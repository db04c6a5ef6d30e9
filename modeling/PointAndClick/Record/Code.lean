/-!
# Tags and command codes

A record starts with a tag that fixes its layout; a command record also has a code that says which
command it is. The codes from 0 on have names.
-/

set_option autoImplicit false

namespace PointAndClick

/-! ## Tags -/

/-- The tags of records with a text and nothing else. -/
def isSimpleTag (tag : Int) : Bool := 4 ≤ tag && tag ≤ 48

/-- The tags of shape records. -/
def isShapeTag (tag : Int) : Bool := 100 ≤ tag && tag ≤ 110

theorem isSimpleTag_iff {tag : Int} : isSimpleTag tag = true ↔ 4 ≤ tag ∧ tag ≤ 48 := by
  simp only [isSimpleTag, Bool.and_eq_true, decide_eq_true_eq]

theorem isShapeTag_iff {tag : Int} : isShapeTag tag = true ↔ 100 ≤ tag ∧ tag ≤ 110 := by
  simp only [isShapeTag, Bool.and_eq_true, decide_eq_true_eq]

/-- The tags up to the last simple one, and those of shapes. -/
def isKnownTag (tag : Int) : Bool := tag ≤ 48 || isShapeTag tag

/-! ## Commands -/

namespace Command

/-- The names of the commands in the order of their codes. -/
def names : List String :=
  ["QUIT", "ABOUT", "PREFS", "PREV", "NEXT", "ZOOM", "SCENE", "HOTSPOT", "TIPTEXT", "PLAYAVI",
    "PLAYBMP", "PLAYWAV", "PLAYMID", "PLAYHTML", "ZOOMIN", "ZOOMOUT", "PAUSE", "EXEC", "EXPLORE",
    "PLAYCDA", "PLAYSEQ", "IF", "SET_VAR", "INC_VAR", "DEC_VAR", "INVALIDATE", "DEFCURSOR",
    "ADDBMP", "DELBMP", "SHOWBMP", "HIDEBMP", "RUNPRJ", "UPDATE", "RUNDLL", "MSGBOX", "PLAYCMD",
    "CLOSEWAV", "CLOSEDLL", "PLAYTEXT", "FONT", "REM", "ADDTEXT", "DELOBJ", "SHOWOBJ", "HIDEOBJ",
    "LOAD", "SAVE", "CLOSEAVI", "CLOSEMID"]

/-- The code that shows an image. -/
def playBmp : Int := 10

/-- The code that plays a sound. -/
def playWav : Int := 11

/-- The code of a condition. -/
def condition : Int := 21

/-- The code that shows a text. -/
def playText : Int := 38

/-- The code that chooses a font. -/
def font : Int := 39

/-- The name of a code, if it has one. -/
def knownName? (code : Int) : Option String :=
  if 0 ≤ code then names[code.toNat]? else none

/-- The name of a code; one without a name is called by its number. -/
def name (code : Int) : String :=
  (knownName? code).getD s!"CMD_{code}"

end Command

end PointAndClick
