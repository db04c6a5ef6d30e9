import PointAndClick.Decoder
import PointAndClick.Record.Basic

/-!
# Decoding records

A record is a tag word and what the tag asks for: nothing (0 and 2), a code word and a text
(1 and 3), a text (4 to 48), or a point count and as many pairs of signed words (100 to 110).
-/

set_option autoImplicit false

namespace PointAndClick.Record

/-- The most points of a shape record. -/
def maxPoints : Nat := 100

/-- Some points in a row. -/
def decodePoints : Nat → Decoder (List Point)
  | 0 => pure []
  | count + 1 => do
    let x ← Decoder.signed
    let y ← Decoder.signed
    return ⟨x, y⟩ :: (← decodePoints count)

/-- What follows the tag of a record that starts at `start`. -/
def decodePayload (tag start : Nat) : Decoder Payload :=
  if tag = 0 then return .null
  else if tag = 2 then return .marker
  else if tag = 1 then do
    let code ← Decoder.word
    return .wrapper code (← Decoder.text fun _ => .implausibleText start)
  else if tag = 3 then do
    let code ← Decoder.word
    return .complex code (← Decoder.text fun _ => .implausibleText start)
  else if isSimpleTag tag then do
    return .simple tag (← Decoder.text fun _ => .implausibleText start)
  else if isShapeTag tag then do
    let count ← Decoder.word
    if maxPoints < count then Decoder.fail (.implausiblePoints count start)
    else return .shape tag (← decodePoints count)
  else Decoder.fail (.unknownTag tag start)

theorem decodePayload_of_isSimpleTag {tag : Nat} (h : isSimpleTag tag = true) (start : Nat) :
    decodePayload tag start =
      Decoder.text (fun _ => .implausibleText start) >>= fun text =>
        pure (.simple tag text) := by
  have hrange := isSimpleTag_iff.mp h
  rw [decodePayload, if_neg (by omega), if_neg (by omega), if_neg (by omega), if_neg (by omega),
    if_pos h]

theorem decodePayload_of_isShapeTag {tag : Nat} (h : isShapeTag tag = true) (start : Nat) :
    decodePayload tag start =
      Decoder.word >>= fun count =>
        if maxPoints < count then Decoder.fail (.implausiblePoints count start)
        else decodePoints count >>= fun points => pure (.shape tag points) := by
  have hrange := isShapeTag_iff.mp h
  have hsimple : ¬isSimpleTag tag = true := by
    rw [isSimpleTag_iff]
    omega
  rw [decodePayload, if_neg (by omega), if_neg (by omega), if_neg (by omega), if_neg (by omega),
    if_neg hsimple, if_pos h]

/-- One record. -/
def decode : Decoder Record := do
  let start ← Decoder.position
  let tag ← Decoder.word
  return ⟨← decodePayload tag start, start⟩

/-! ## Regions of a buffer -/

/-- Where reading has to stop: at `stop`, if there is one, and at the end of the buffer. -/
def limit (b : Buffer) (stop : Option Int) : Nat :=
  match stop with
  | none => b.size
  | some stop => min stop.toNat b.size

/-- The first record that decodes before `limit` from one of the `tries` positions from `pos` on,
and the position behind it. -/
def search (b : Buffer) (limit : Nat) : Nat → Nat → Option (Record × Nat)
  | 0, _ => none
  | tries + 1, pos =>
      if limit < pos + 4 then none
      else
        match decode b pos with
        | .ok (record, after) =>
            if after ≤ limit then some (record, after) else search b limit tries (pos + 1)
        | .error _ => search b limit tries (pos + 1)

/-- The next record before `stop`, at most `maxDistance` bytes further on. -/
def next? (b : Buffer) (pos : Nat) (stop : Option Int) (maxDistance : Int) :
    Option (Record × Nat) :=
  search b (limit b stop) (maxDistance + 1).toNat pos

/-- How far a search for the next record goes if nothing else is said. -/
def defaultDistance : Int := 4096

/-- The records before `limit` that are kept, and the position where reading stopped. `fuel`
bounds the number of records. -/
def collect (b : Buffer) (limit : Nat) (maxDistance : Int) :
    Nat → Nat → List Record × Nat
  | 0, pos => ([], pos)
  | fuel + 1, pos =>
      match search b limit (maxDistance + 1).toNat pos with
      | none => ([], pos)
      | some (record, after) =>
          let (records, last) := collect b limit maxDistance fuel after
          (if record.isKept then record :: records else records, last)

/-- The kept records from `pos` to `stop`, and the position where reading stopped. A record takes
at least one byte, so the size of the buffer bounds their number. -/
def all (b : Buffer) (pos : Nat) (stop : Option Int) (maxDistance : Int) : List Record × Nat :=
  collect b (limit b stop) maxDistance b.size pos

end PointAndClick.Record
