import PointAndClick.Decoder

/-!
# Cursors

A buffer with a position in it, and the operations that callers outside the decoders use on it.
Their arguments may be any integers: an operation that would leave the buffer, or look past its
ends, gives an error, and the cursor that it was given is still good.
-/

set_option autoImplicit false

namespace PointAndClick

/-- A position in a buffer. -/
structure Cursor where
  buffer : Buffer
  pos : Nat
deriving DecidableEq, Repr

namespace Cursor

/-- What an operation gives. -/
inductive Value
  | nothing
  | flag (value : Bool)
  | number (value : Int)
  | bytes (value : List UInt8)
  | text (value : Option String)
deriving DecidableEq, Repr

/-- What can be done with a cursor. -/
inductive Operation
  | seek (target : Int)
  | skip (count : Int)
  | readByte
  | readHalf
  | readWord
  | readSigned
  | readBytes (count : Int)
  | readText
  | readTextOrEmpty
  | readPadded (width : Int)
  | peekWord (offset : Int)
  | peekSigned (offset : Int)
  | canRead (count : Int)
  | atEnd
  | describe
deriving DecidableEq, Repr

/-- How many bytes are left. -/
def remaining (c : Cursor) : Nat :=
  c.buffer.size - c.pos

/-- Moves to a position of the buffer, its end included. -/
def seek (c : Cursor) (target : Int) : Except DecodeError Cursor :=
  if target < 0 ∨ c.buffer.size < target then
    .error (.seekOutside target c.buffer.size c.pos)
  else .ok { c with pos := target.toNat }

/-- The cursor at a position of a buffer. -/
def at? (b : Buffer) (pos : Int) : Except DecodeError Cursor :=
  seek ⟨b, 0⟩ pos

/-- Runs a decoder at the position. -/
def read {α : Type} (c : Cursor) (d : Decoder α) : Except DecodeError (α × Cursor) :=
  match d c.buffer c.pos with
  | .error e => .error e
  | .ok (a, after) => .ok (a, { c with pos := after })

/-- Runs a decoder that takes a count, which must not be negative. -/
def readCount {α : Type} (c : Cursor) (count : Int) (d : Nat → Decoder α) :
    Except DecodeError (α × Cursor) :=
  if count < 0 then .error (.shortRead count c.remaining c.pos) else c.read (d count.toNat)

/-- Looks at the word some bytes away from the position. -/
def peek {α : Type} (c : Cursor) (offset : Int) (value : Buffer → Nat → α) :
    Except DecodeError α :=
  let target := c.pos + offset
  if target < 0 ∨ c.buffer.size < target + 4 then .error (.peekOutside target)
  else .ok (value c.buffer target.toNat)

/-- The text that shows a cursor. -/
def shown (c : Cursor) : String :=
  s!"ByteCursor(pos=0x{Text.hexadecimal c.pos}, size={c.buffer.size})"

/-- Does an operation: what it gives, and the cursor after it. -/
def apply (c : Cursor) : Operation → Except DecodeError (Value × Cursor)
  | .seek target => (c.seek target).map fun after => (.nothing, after)
  | .skip count => (c.readCount count Decoder.skip).map fun r => (.nothing, r.2)
  | .readByte => (c.read Decoder.byte).map fun r => (.number r.1, r.2)
  | .readHalf => (c.read Decoder.half).map fun r => (.number r.1, r.2)
  | .readWord => (c.read Decoder.word).map fun r => (.number r.1, r.2)
  | .readSigned => (c.read Decoder.signed).map fun r => (.number r.1, r.2)
  | .readBytes count => (c.readCount count Decoder.bytes).map fun r => (.bytes r.1, r.2)
  | .readText => (c.read Decoder.text?).map fun r => (.text r.1, r.2)
  | .readTextOrEmpty => (c.read Decoder.textOrEmpty).map fun r => (.text (some r.1), r.2)
  | .readPadded width =>
      (c.readCount width Decoder.paddedText).map fun r => (.text (some r.1), r.2)
  | .peekWord offset =>
      (c.peek offset Buffer.wordAt).map fun word => (.number word, c)
  | .peekSigned offset => (c.peek offset Buffer.signedAt).map fun word => (.number word, c)
  | .canRead count => .ok (.flag (0 ≤ count && count ≤ c.remaining), c)
  | .atEnd => .ok (.flag (c.buffer.size ≤ c.pos), c)
  | .describe => .ok (.text (some c.shown), c)

end Cursor

end PointAndClick
