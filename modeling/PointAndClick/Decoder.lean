import PointAndClick.Buffer
import PointAndClick.DecodeError

/-!
# Decoders

A decoder reads a value from a buffer at a position and gives the position behind it. One that
fails gives no position, so its caller goes on from where it was.
-/

set_option autoImplicit false

namespace PointAndClick

/-- A reader of values of one type. -/
def Decoder (α : Type) : Type :=
  Buffer → Nat → Except DecodeError (α × Nat)

namespace Decoder

instance : Monad Decoder where
  pure a := fun _ pos => .ok (a, pos)
  bind read next := fun b pos =>
    match read b pos with
    | .error e => .error e
    | .ok (a, after) => next a b after

theorem pure_apply {α : Type} (a : α) (b : Buffer) (pos : Nat) :
    (pure a : Decoder α) b pos = .ok (a, pos) := rfl

theorem bind_eq_ok {α β : Type} {read : Decoder α} {next : α → Decoder β} {b : Buffer}
    {pos : Nat} {r : β × Nat} :
    (read >>= next) b pos = .ok r ↔
      ∃ a after, read b pos = .ok (a, after) ∧ next a b after = .ok r := by
  show (match read b pos with
    | .error e => .error e
    | .ok (a, after) => next a b after) = Except.ok r ↔ _
  cases h : read b pos with
  | error e => simp
  | ok p =>
      obtain ⟨a, after⟩ := p
      constructor
      · exact fun e => ⟨a, after, rfl, e⟩
      · rintro ⟨_, _, e, k⟩
        cases e
        exact k

/-! ## Positions -/

/-- The position of the next byte. -/
def position : Decoder Nat := fun _ pos => .ok (pos, pos)

/-- Stops with an error. -/
def fail {α : Type} (e : DecodeError) : Decoder α := fun _ _ => .error e

/-- Passes over some bytes. -/
def skip (count : Nat) : Decoder Unit := fun b pos =>
  if b.size < pos + count then .error (.shortRead count (b.size - pos) pos)
  else .ok ((), pos + count)

/-! ## Bytes and words -/

/-- A value of fixed width, taken from the buffer at the position. -/
def fixed {α : Type} (width : Nat) (value : Buffer → Nat → α) : Decoder α := fun b pos =>
  if b.size < pos + width then .error (.shortRead width (b.size - pos) pos)
  else .ok (value b pos, pos + width)

/-- Some bytes. -/
def bytes (count : Nat) : Decoder (List UInt8) :=
  fixed count fun b pos => b.slice pos count

/-- An unsigned byte. -/
def byte : Decoder Nat := fixed 1 Buffer.byteAt

/-- An unsigned half word. -/
def half : Decoder Nat := fixed 2 Buffer.halfAt

/-- An unsigned word. -/
def word : Decoder Nat := fixed 4 Buffer.wordAt

/-- A signed word. -/
def signed : Decoder Int := fixed 4 Buffer.signedAt

/-! ## Texts -/

/-- A length-prefixed text; an absent one takes no bytes. -/
def text? : Decoder (Option String) := fun b pos =>
  match b.textAt? pos with
  | some (text, after) => .ok (some text, after)
  | none => .ok (none, pos)

/-- A length-prefixed text, or else the given error. -/
def text (absent : Nat → DecodeError) : Decoder String := fun b pos =>
  match b.textAt? pos with
  | some r => .ok r
  | none => .error (absent pos)

/-- A length-prefixed text. An absent one is empty and takes its length field, so that the fields
behind it stay aligned. -/
def textOrEmpty : Decoder String := do
  match ← text? with
  | some text => return text
  | none =>
    skip 4
    return ""

/-- The bytes without the zeros at their end. -/
def dropZerosEnd : List UInt8 → List UInt8
  | [] => []
  | x :: xs =>
      match dropZerosEnd xs with
      | [] => if x = 0 then [] else [x]
      | y :: ys => x :: y :: ys

/-- A text of fixed width, padded with zeros. -/
def paddedText (width : Nat) : Decoder String := do
  return Buffer.textOf (dropZerosEnd (← bytes width))

end Decoder

end PointAndClick
