import PointAndClick.Hotspot.Assembler
import PointAndClick.Record.Decode

/-!
# Event groups

A group is a word with the type of an event (at most 10), a word with a count (1 to 50) and as
many records. Zero words may follow it, and then a shape, or else a tip text: a font record,
possibly a text record, and possibly more zero words and a shape. Each group becomes a hotspot.

Groups are told apart from the zero words between them by `looksLike`. Readers here take a `limit`
and not only the size of the buffer: with a limit beyond the end they may look past it, which ends
the reading with an error and keeps what was read before.
-/

set_option autoImplicit false

namespace PointAndClick.EventGroup

/-- The highest event type. -/
def maxEventType : Nat := 10

/-- The most records of a group. -/
def maxRecords : Nat := 50

/-! ## Recognising a group -/

/-- A group may start at a position: its two words are in range and its first record decodes as a
command. -/
def looksLike (b : Buffer) (pos : Nat) : Bool :=
  pos + 8 ≤ b.size && b.wordAt pos ≤ maxEventType && 0 < b.wordAt (pos + 4) &&
    b.wordAt (pos + 4) ≤ maxRecords &&
      match Record.decode b (pos + 8) with
      | .ok (r, _) => r.code?.isSome
      | .error _ => false

/-- `looksLike` some bytes away from a position, before the buffer's start included. -/
def looksLikeAt (b : Buffer) (pos : Nat) (offset : Int) : Bool :=
  let target := pos + offset
  0 ≤ target && looksLike b target.toNat

/-! ## Zero words between groups -/

/-- The zero word at a position is the type of a group, and not padding before one. -/
def startsGroup (b : Buffer) (pos : Nat) : Bool :=
  looksLike b pos && !looksLike b (pos + 4)

/-- The position behind the zero words from `pos` on. `fuel` bounds their number. -/
def paddingEnd (b : Buffer) (limit : Nat) : Nat → Nat → Nat
  | 0, pos => pos
  | fuel + 1, pos =>
      if pos + 4 ≤ limit && pos + 4 ≤ b.size && b.wordAt pos = 0 && !startsGroup b pos then
        paddingEnd b limit fuel (pos + 4)
      else pos

/-- Passes over zero words, up to one that starts a group. A limit beyond the buffer is an error
when only the end of the buffer stops it. -/
def skipPadding (b : Buffer) (limit pos : Nat) : Nat × Except DecodeError Unit :=
  let after := paddingEnd b limit (b.size / 4 + 1) pos
  if after + 4 ≤ limit && b.size < after + 4 then (after, .error (.peekOutside after))
  else (after, .ok ())

/-! ## Reading groups -/

/-- How far reading has come. -/
structure Progress where
  pos : Nat
  assembler : Assembler
deriving DecidableEq, Repr

/-- A step of reading: how far it came, and the error that stopped it. -/
abbrev Step := Progress × Except DecodeError Unit

/-- Reads a record and adds it as `add` says; an error leaves everything as it was. -/
def readRecord (b : Buffer) (p : Progress) (add : Assembler → Record → Assembler) : Step :=
  match Record.decode b p.pos with
  | .ok (r, after) => (⟨after, add p.assembler r⟩, .ok ())
  | .error e => (p, .error e)

/-- The word at the position of the next record, none at the limit. -/
def peekTag (b : Buffer) (limit pos : Nat) : Except DecodeError (Option Nat) :=
  if limit < pos + 4 then .ok none
  else if b.size < pos + 4 then .error (.peekOutside pos)
  else .ok (some (b.wordAt pos))

/-- Reads the shape behind a tip text, if there is one. -/
def readTipShape (b : Buffer) (limit : Nat) (p : Progress) : Progress :=
  let (after, outcome) := skipPadding b limit p.pos
  let p := { p with pos := after }
  match outcome with
  | .error _ => p
  | .ok () =>
      match peekTag b limit p.pos with
      | .ok (some tag) => if isShapeTag tag then (readRecord b p Assembler.add).1 else p
      | _ => p

/-- Reads a tip text from its font record on. It may be cut short anywhere. -/
def readTipText (b : Buffer) (limit : Nat) (p : Progress) : Progress :=
  match readRecord b p Assembler.addHover with
  | (p, .error _) => p
  | (p, .ok ()) =>
      match peekTag b limit p.pos with
      | .error _ => p
      | .ok tag =>
          if tag.any fun tag => (tag : Int) = Command.playText then
            match readRecord b p Assembler.addHover with
            | (p, .error _) => p
            | (p, .ok ()) => readTipShape b limit p
          else readTipShape b limit p

/-- Reads the records of a group. The flag says whether all of them were there and none was a
shape, which ends the group. -/
def readRecords (b : Buffer) (limit : Nat) (maxDistance : Int) : Nat → Progress → Progress × Bool
  | 0, p => (p, true)
  | count + 1, p =>
      match Record.next? b p.pos (some limit) maxDistance with
      | none => (p, false)
      | some (r, after) =>
          match r.payload with
          | .shape .. => (⟨after, p.assembler.add r⟩, false)
          | _ =>
              readRecords b limit maxDistance count
                ⟨after, if r.isKept then p.assembler.add r else p.assembler⟩

/-- Reads what may follow the records of a group: a shape or a tip text. -/
def readTerminator (b : Buffer) (limit : Nat) (p : Progress) : Step :=
  let (after, outcome) := skipPadding b limit p.pos
  let p := { p with pos := after }
  match outcome with
  | .error e => (p, .error e)
  | .ok () =>
      match peekTag b limit p.pos with
      | .error e => (p, .error e)
      | .ok none => (p, .ok ())
      | .ok (some tag) =>
          if isShapeTag tag then ((readRecord b p Assembler.add).1, .ok ())
          else if (tag : Int) = Command.font then (readTipText b limit p, .ok ())
          else (p, .ok ())

/-- Reads a group whose two words are inside the buffer. -/
def read (b : Buffer) (limit : Nat) (maxDistance : Int) (p : Progress) : Step :=
  let assembler := p.assembler.begin (some (b.wordAt p.pos)) p.pos
  match readRecords b limit maxDistance (b.wordAt (p.pos + 4)) ⟨p.pos + 8, assembler⟩ with
  | (p, false) => (p, .ok ())
  | (p, true) => readTerminator b limit p

/-- What reading groups came to: how many, how far, and the error that stopped it. -/
structure Outcome where
  progress : Progress
  groups : Nat
  error : Option DecodeError := none
deriving Repr

/-- Reads groups until what follows looks like none. A group that is cut short at the end of the
buffer is not counted. `fuel` bounds the number of groups. -/
def readMany (b : Buffer) (limit : Nat) (maxDistance : Int) : Nat → Nat → Progress → Outcome
  | 0, groups, p => { progress := p, groups }
  | fuel + 1, groups, p =>
      if limit < p.pos + 8 then { progress := p, groups }
      else
        let (after, outcome) := skipPadding b limit p.pos
        let p := { p with pos := after }
        match outcome with
        | .error e => { progress := p, groups, error := some e }
        | .ok () =>
            if looksLike b p.pos then
              match read b limit maxDistance p with
              | (p, .error _) => { progress := p, groups }
              | (p, .ok ()) => readMany b limit maxDistance fuel (groups + 1) p
            else { progress := p, groups }

/-- Reads all groups from a position on. A group takes at least eight bytes, so the size of the
buffer bounds their number. -/
def readAll (b : Buffer) (stop : Option Int) (maxDistance : Int) (p : Progress) : Outcome :=
  readMany b (match stop with | none => b.size | some stop => stop.toNat) maxDistance
    (b.size / 8 + 1) 0 p

end PointAndClick.EventGroup
