import PointAndClick.Boundary.Content
import PointAndClick.Text.Quoted

/-!
# Finding scene boundaries

Scene starts are found by their looks, in four searches over the bytes of a file: for delimiters,
for music, for the empty scene and for known scenes. What is found without a content is dropped,
and so are two kinds of finds that are known to be no scenes.

A search fails at a text that bytes cannot stand for, and where the window of the music text
reaches over the end of the file.
-/

set_option autoImplicit false

namespace PointAndClick.Boundary

/-- Something that may be a boundary. -/
structure Candidate where
  position : Nat
  kind : BoundaryKind
  zeros : Nat
  content : Option String := none
deriving DecidableEq, Repr

/-- Why a search fails. -/
inductive SearchFault
  /-- A word is asked for at a position where the file does not hold one. -/
  | outside (pos size : Nat)
  /-- A text is looked for that has a character which is no byte. -/
  | unwritable (text : String)
deriving DecidableEq, Repr

/-- The wording of a fault. -/
def SearchFault.message : SearchFault → String
  | outside pos size => s!"No word at offset {pos} of {size} bytes"
  | unwritable text => s!"Not a text of bytes: {Text.quoted text}"

/-! ## Zeros -/

/-- How many bytes just before a position are zero. -/
def zerosBefore (b : Buffer) : Nat → Nat
  | 0 => 0
  | pos + 1 => if b.byteAt pos = 0 then zerosBefore b pos + 1 else 0

/-- The zeros before each position from one on with `run` zeros before it. -/
def zeroRunsFrom (run : Nat) : List UInt8 → List Nat
  | [] => [run]
  | byte :: bytes => run :: zeroRunsFrom (if byte = 0 then run + 1 else 0) bytes

/-- The zeros before each position of a buffer, its end included. -/
def zeroRuns (b : Buffer) : List Nat := zeroRunsFrom 0 b.toList

/-! ## Candidates by position -/

/-- The candidates with one more, in the order of their positions. It takes the place of one at
the same position. -/
def put (c : Candidate) : List Candidate → List Candidate
  | [] => [c]
  | d :: ds =>
      if c.position < d.position then c :: d :: ds
      else if c.position = d.position then c :: ds
      else d :: put c ds

/-- The positions from `start` up to, but not including, `stop`. -/
def positions (start stop : Nat) : List Nat :=
  List.range' start (stop - start)

/-! ## Delimiters -/

/-- A delimiter stands at a position. -/
def isDelimiter (b : Buffer) (p : BoundaryProfile) (pos : Nat) : Bool :=
  b.wordAt pos = 1 && p.delimiterMinZeros ≤ zerosBefore b pos

/-- The delimiters from a position on, but for the last 20 bytes. Positions close behind one are
passed over. `fuel` bounds the number of positions. -/
def delimiters (b : Buffer) (p : BoundaryProfile) : Nat → Nat → List Candidate
  | 0, _ => []
  | fuel + 1, pos =>
      if pos + 20 < b.size then
        if isDelimiter b p pos then
          ⟨pos, .delimiter, zerosBefore b pos, none⟩ ::
            delimiters b p fuel (pos + p.delimiterSkip + 1)
        else delimiters b p fuel (pos + 1)
      else []

/-! ## Music -/

/-- Each character of a text is a byte. -/
def isWritable (text : String) : Bool :=
  text.toList.all fun c => c.toNat < 0x100

/-- A length-prefixed text stands at a position. -/
def hasText (b : Buffer) (pos : Nat) (text : List Char) : Bool :=
  pos + 4 + text.length ≤ b.size && b.wordAt pos = text.length &&
    (b.slice (pos + 4) text.length).map Buffer.charOf = text

/-- The music text stands at one of `count` positions from `pos` on. Whether bytes can stand for it
is looked at where its length stands. -/
def searchMusic (b : Buffer) (p : BoundaryProfile) : Nat → Nat → Except SearchFault Bool
  | 0, _ => .ok false
  | count + 1, pos =>
      if b.size < pos + 4 then .error (.outside pos b.size)
      else if b.wordAt pos = p.musicText.length && !isWritable p.musicText then
        .error (.unwritable p.musicText)
      else if hasText b pos p.musicText.toList then .ok true
      else searchMusic b p count (pos + 1)

/-- The music word stands at a position, and the music text in the window from there on. -/
def isMusic (b : Buffer) (p : BoundaryProfile) (pos : Nat) : Except SearchFault Bool :=
  if b.wordAt pos = p.musicMarker then searchMusic b p p.musicWindow.toNat pos else .ok false

/-- A position is near one of some candidates. -/
def isNear (p : BoundaryProfile) (found : List Candidate) (pos : Nat) : Bool :=
  found.any fun c => ((c.position : Int) - pos).natAbs < p.musicMinDistance

/-- Adds a music boundary, if there is one at a position that is not near to what was found before
it. -/
def addMusicAt (b : Buffer) (p : BoundaryProfile) (found : List Candidate) (pos : Nat) :
    Except SearchFault (List Candidate) := do
  if (← isMusic b p pos) && !isNear p found pos then return put ⟨pos, .music, 0, none⟩ found
  else return found

/-- Adds the music boundaries from a position on, but for the last 100 bytes. -/
def addMusic (b : Buffer) (p : BoundaryProfile) (start : Nat) (found : List Candidate) :
    Except SearchFault (List Candidate) :=
  (positions start (b.size - 100)).foldlM (addMusicAt b p) found

/-! ## Texts -/

/-- Adds a position if a text stands there behind enough zeros. -/
def addTextAt (b : Buffer) (text : String) (minZeros : Int) (kind : BoundaryKind)
    (found : List Candidate) (pos : Nat) : List Candidate :=
  if hasText b pos text.toList && minZeros ≤ zerosBefore b pos then
    put ⟨pos, kind, zerosBefore b pos, some text⟩ found
  else found

/-- Adds the places of a text behind enough zeros. -/
def addTexts (b : Buffer) (start : Nat) (text : String) (minZeros : Int) (kind : BoundaryKind)
    (found : List Candidate) : Except SearchFault (List Candidate) :=
  if isWritable text then
    .ok ((positions start (b.size - text.length - 4)).foldl (addTextAt b text minZeros kind) found)
  else .error (.unwritable text)

/-! ## All candidates -/

/-- What the four searches find from a position on. -/
def found (b : Buffer) (p : BoundaryProfile) (start : Nat) :
    Except SearchFault (List Candidate) := do
  let delimiters := (delimiters b p b.size start).foldl (fun cs c => put c cs) []
  let music ← addMusic b p start delimiters
  let empty ← addTexts b start p.emptyText p.emptyMinZeros .empty music
  p.namedScenes.foldlM (fun cs (name, minZeros) => addTexts b start name minZeros .named cs) empty

/-- A candidate with its content, if it has one. -/
def withContent? (b : Buffer) (p : BoundaryProfile) (c : Candidate) : Option Candidate :=
  match c.content with
  | some _ => some c
  | none => (content? b p c.position).map fun content => { c with content := some content }

/-- The candidates from a position on, in order, each with its content. -/
def candidates (b : Buffer) (p : BoundaryProfile) (start : Nat) :
    Except SearchFault (List Candidate) := do
  return (← found b p start).filterMap (withContent? b p)

/-! ## Boundaries -/

/-- A scene start. The first has the index 1. -/
structure SceneStart where
  index : Nat
  position : Nat
  kind : BoundaryKind
  zeros : Nat
  content : String
deriving DecidableEq, Repr

/-- A candidate repeats the content of the next one, far behind it: a command that names the image
of a scene. -/
def isEcho (p : BoundaryProfile) (c : Candidate) (next : Option Candidate) : Bool :=
  next.any fun n =>
    p.echoZeros.1 ≤ c.zeros && c.zeros ≤ p.echoZeros.2 && c.content == n.content &&
      c.position + p.echoMinGap ≤ n.position

/-- A candidate belongs to the commands that end the game. -/
def isEndGame (p : BoundaryProfile) (c : Candidate) : Bool :=
  p.endGameMinZeros ≤ c.zeros && c.content == some p.endGameVideo

/-- The candidates that are neither echoes nor the end of the game. -/
def genuine (p : BoundaryProfile) : List Candidate → List Candidate
  | [] => []
  | c :: cs =>
      if isEcho p c cs.head? || isEndGame p c then genuine p cs else c :: genuine p cs

/-- The scene starts of a file from a position on. -/
def scan (b : Buffer) (p : BoundaryProfile) (start : Nat) :
    Except SearchFault (List SceneStart) := do
  return (genuine p (← candidates b p start)).mapIdx fun i c =>
    ⟨i + 1, c.position, c.kind, c.zeros, c.content.getD ""⟩

end PointAndClick.Boundary
