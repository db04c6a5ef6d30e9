import PointAndClick.Scene.Basic

/-!
# Verbs

What a running project does for each verb. Several verbs may do the same, and a verb that is not
in the list does nothing at all.
-/

set_option autoImplicit false

namespace PointAndClick

/-- What a verb asks for. -/
inductive Verb
  | quit
  | navigate (direction : Direction)
  | goToScene
  | setHotspot
  | enableHotspot
  | disableHotspot
  | tipText
  | playAvi
  | playBmp
  | playWav
  | playMid
  | playCda
  | playHtml
  | pause
  | execute
  | explore
  | runProject
  | condition
  | setVariable
  | incrementVariable
  | decrementVariable
  | invalidate
  | setCursor
  | addImage
  | hideObject
  | showObject
  | messageBox
  | playCommand
  | closeWav
  | closeMid
  | closeAvi
  | stopAll
  | playText
  | chooseFont
  | nothing
  | addText
  | load
  | save
  | startTimer
  | stopTimer
deriving DecidableEq, Repr

namespace Verb

/-- The verbs by name. -/
def table : List (String × Verb) :=
  [("QUIT", quit), ("PREV", navigate .backward), ("NEXT", navigate .forward),
    ("FORWARD", navigate .forward), ("BACKWARD", navigate .backward), ("LEFT", navigate .left),
    ("RIGHT", navigate .right), ("SCENE", goToScene), ("HOTSPOT", setHotspot),
    ("ENABLE", enableHotspot), ("DISABLE", disableHotspot), ("TIPTEXT", tipText),
    ("PLAYAVI", playAvi), ("PLAYBMP", playBmp), ("PLAYWAV", playWav), ("PLAYMID", playMid),
    ("PLAYCDA", playCda), ("PLAYHTML", playHtml), ("PAUSE", pause), ("EXEC", execute),
    ("EXPLORE", explore), ("RUNDLL", execute), ("RUNPRJ", runProject), ("IF", condition),
    ("SET_VAR", setVariable), ("INC_VAR", incrementVariable), ("DEC_VAR", decrementVariable),
    ("INVALIDATE", invalidate), ("UPDATE", invalidate), ("DEFCURSOR", setCursor),
    ("ADDBMP", addImage), ("DELBMP", hideObject), ("HIDEBMP", hideObject), ("DELOBJ", hideObject),
    ("HIDEOBJ", hideObject), ("SHOWBMP", showObject), ("SHOWOBJ", showObject),
    ("MSGBOX", messageBox), ("PLAYCMD", playCommand), ("CLOSEWAV", closeWav),
    ("CLOSEMID", closeMid), ("CLOSEAVI", closeAvi), ("STOPALL", stopAll), ("PLAYTEXT", playText),
    ("FONT", chooseFont), ("REM", nothing), ("ADDTEXT", addText), ("LOAD", load), ("SAVE", save),
    ("TIMERSTART", startTimer), ("TIMERSTOP", stopTimer), ("ABOUT", nothing), ("PREFS", nothing),
    ("ZOOM", nothing), ("ZOOMIN", nothing), ("ZOOMOUT", nothing), ("PLAYSEQ", nothing),
    ("CLOSEDLL", nothing)]

/-- What the verb of a name asks for. -/
def ofName? (name : String) : Option Verb := table.lookup name

end Verb

end PointAndClick
