import PointAndClick.Text.Numeral

/-!
# Decode errors

Why bytes could not be decoded, and where. `message` words a cause, `category` sorts the causes
into the few that callers tell apart.
-/

set_option autoImplicit false

namespace PointAndClick

/-- The path fields of a scene. -/
inductive PathField
  | wave
  | bitmap
deriving DecidableEq, Repr

/-- A cause for which decoding stops. -/
inductive DecodeError
  /-- A move to a position outside the buffer. -/
  | seekOutside (target : Int) (size pos : Nat)
  /-- A read of more bytes than are left, or of less than none. -/
  | shortRead (wanted : Int) (left pos : Nat)
  /-- A look at a word that is not wholly inside the buffer. -/
  | peekOutside (pos : Int)
  /-- A record whose text is too long or runs past the end. -/
  | implausibleText (pos : Nat)
  /-- A shape record with too many points. -/
  | implausiblePoints (count pos : Nat)
  /-- A scene path that is too long or runs past the end. -/
  | implausiblePath (field : PathField) (pos : Nat)
  /-- A record with an unknown tag. -/
  | unknownTag (tag pos : Nat)
  /-- A bitmap block with an unknown layout word. -/
  | unknownLayout (layout pos : Nat)
deriving DecidableEq, Repr

namespace DecodeError

/-- What callers tell apart. -/
inductive Category
  | outOfBounds
  | implausibleLength
  | unrecognizedTag
  | other
deriving DecidableEq, Repr

/-- The category of a cause. -/
def category : DecodeError → Category
  | seekOutside .. | shortRead .. | peekOutside .. => .outOfBounds
  | implausibleText .. | implausiblePoints .. | implausiblePath .. => .implausibleLength
  | unknownTag .. => .unrecognizedTag
  | unknownLayout .. => .other

/-- The position at which decoding stopped. -/
def position : DecodeError → Int
  | seekOutside _ _ pos | shortRead _ _ pos | implausibleText pos | implausiblePoints _ pos
  | implausiblePath _ pos | unknownTag _ pos | unknownLayout _ pos => pos
  | peekOutside pos => pos

/-- The wording of a cause without its position. -/
def cause : DecodeError → String
  | seekOutside target size _ => s!"Seek to {target} outside buffer of {size}"
  | shortRead wanted left _ => s!"Read of {wanted} bytes with {left} remaining"
  | peekOutside _ => "Peek past end of buffer"
  | implausibleText _ => "Record string length out of range"
  | implausiblePoints count _ => s!"Shape with {count} points"
  | implausiblePath .wave _ => "Implausible wave path length"
  | implausiblePath .bitmap _ => "Implausible bitmap path length"
  | unknownTag tag _ => s!"Unrecognized record tag {tag}"
  | unknownLayout layout _ => s!"Unknown bitmap marker {layout}"

/-- The full wording, which ends in the position. -/
def message (e : DecodeError) : String :=
  s!"{e.cause} at 0x{Text.hexadecimal e.position}"

end DecodeError

end PointAndClick
