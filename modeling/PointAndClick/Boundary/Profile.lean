/-!
# Profiles for finding scene boundaries

The thresholds and the texts by which scene starts are found without decoding a file. A threshold
may be any integer, but behind a delimiter a search only goes on.
-/

set_option autoImplicit false

namespace PointAndClick

/-- What a boundary looks like in the bytes of a file. -/
inductive BoundaryKind
  /-- A word 1 behind zeros. -/
  | delimiter
  /-- A music word with the music text soon behind it. -/
  | music
  /-- The text of an empty scene behind zeros. -/
  | empty
  /-- The text of a known scene behind zeros. -/
  | named
deriving DecidableEq, Repr

/-- The short name of a kind. -/
def BoundaryKind.label : BoundaryKind → String
  | delimiter => "delim"
  | music => "music"
  | empty => "empty"
  | named => "named"

/-- The thresholds and texts of a search. -/
structure BoundaryProfile where
  /-- The fewest zeros before a delimiter. -/
  delimiterMinZeros : Int := 12
  /-- How many positions behind a delimiter are passed over. -/
  delimiterSkip : Nat := 10
  musicMarker : Int := 0x81
  musicText : String := "music.wav"
  /-- In how many positions from its marker on the music text may start. -/
  musicWindow : Int := 50
  /-- How far a music boundary has to be from those found before it. -/
  musicMinDistance : Int := 100
  emptyText : String := "Empty"
  emptyMinZeros : Int := 50
  /-- The known scenes, each with the fewest zeros before its text. -/
  namedScenes : List (String × Int) := [("Toolbar", 5), ("Fin Perdu", 5)]
  /-- In how many positions from a boundary on its content may start. -/
  contentWindow : Int := 300
  contentMinLength : Int := 5
  contentMaxLength : Int := 79
  /-- The numbers of zeros, from the first to the second, before what may be an echo. -/
  echoZeros : Int × Int := (19, 21)
  /-- How far an echo is at least from what it repeats. -/
  echoMinGap : Int := 250
  /-- The fewest zeros before the end of the game. -/
  endGameMinZeros : Int := 90
  endGameVideo : String := "fin2.avi"
deriving DecidableEq, Repr

namespace BoundaryProfile

/-- The usual profile. -/
def usual : BoundaryProfile := {}

/-- A profile with more known scenes. -/
def extended : BoundaryProfile where
  musicMinDistance := 50
  namedScenes := [("Village", 4), ("Le bureau du banquier", 4), ("La banque", 4), ("Toolbar", 5),
    ("Fin Perdu", 5)]

/-- Where a search starts if nothing else is said. -/
def defaultStart : Nat := 4400

end BoundaryProfile

end PointAndClick
