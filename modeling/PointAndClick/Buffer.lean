/-!
# File buffers

The bytes of a project file, the little-endian words in them, and the length-prefixed texts: a
word with the length, then one byte per character. Positions past the end read as zero, so the
functions that return no option are used behind a bounds check.
-/

set_option autoImplicit false

namespace PointAndClick

/-- The bytes of a file. -/
abbrev Buffer := Array UInt8

namespace Buffer

/-- The longest text that a length field may announce. -/
def maxTextLength : Nat := 10000

/-! ## Words -/

/-- The byte at a position, zero past the end. -/
def byteAt (b : Buffer) (pos : Nat) : Nat :=
  (b[pos]?.getD 0).toNat

/-- The half word at a position. -/
def halfAt (b : Buffer) (pos : Nat) : Nat :=
  b.byteAt pos + 0x100 * b.byteAt (pos + 1)

/-- The unsigned word at a position. -/
def wordAt (b : Buffer) (pos : Nat) : Nat :=
  b.halfAt pos + 0x10000 * b.halfAt (pos + 2)

/-- The signed word at a position, in two's complement. -/
def signedAt (b : Buffer) (pos : Nat) : Int :=
  let word := b.wordAt pos
  if word < 0x80000000 then word else word - 0x100000000

/-! ## Texts -/

/-- The `count` bytes from a position on, fewer at the end of the buffer. -/
def slice (b : Buffer) (pos count : Nat) : List UInt8 :=
  (b.extract pos (pos + count)).toList

/-- The character of a byte: its value is the code point. -/
def charOf (byte : UInt8) : Char :=
  Char.ofNat byte.toNat

/-- The text of some bytes. -/
def textOf (bytes : List UInt8) : String :=
  String.ofList (bytes.map charOf)

/-- The complete length-prefixed text at a position and the position behind it; `none` if the
length is more than `maxTextLength` or runs past the end. -/
def textAt? (b : Buffer) (pos : Nat) : Option (String × Nat) :=
  if b.size < pos + 4 then none
  else
    let length := b.wordAt pos
    if maxTextLength < length ∨ b.size < pos + 4 + length then none
    else some (textOf (b.slice (pos + 4) length), pos + 4 + length)

/-! ## Bounds -/

theorem byteAt_lt (b : Buffer) (pos : Nat) : b.byteAt pos < 0x100 := by
  unfold byteAt
  exact (b[pos]?.getD 0).toNat_lt

theorem halfAt_lt (b : Buffer) (pos : Nat) : b.halfAt pos < 0x10000 := by
  have := b.byteAt_lt pos
  have := b.byteAt_lt (pos + 1)
  unfold halfAt
  omega

theorem wordAt_lt (b : Buffer) (pos : Nat) : b.wordAt pos < 0x100000000 := by
  have := b.halfAt_lt pos
  have := b.halfAt_lt (pos + 2)
  unfold wordAt
  omega

theorem textAt?_bounds {b : Buffer} {pos next : Nat} {text : String}
    (h : b.textAt? pos = some (text, next)) : pos + 4 ≤ next ∧ next ≤ b.size := by
  unfold textAt? at h
  split at h
  · simp at h
  · dsimp only at h
    split at h
    · simp at h
    · simp only [Option.some.injEq, Prod.mk.injEq] at h
      omega

end Buffer

end PointAndClick
