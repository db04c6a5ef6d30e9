import PointAndClick.Number.Binary64
import PointAndClick.Script.Fault

/-!
# Durations

Durations are whole milliseconds. A wait is measured in seconds, in double precision, and the clock
counts the whole milliseconds of these seconds: exactly as many as there were unless the wait is
astronomically long.
-/

set_option autoImplicit false

namespace PointAndClick.Duration

/-- From this number of milliseconds on, about 71000 years, the clock may count more or fewer. -/
def exactBelow : Nat := 0x8000000000000

/-- The milliseconds that the clock counts for a wait. -/
def onClock (milliseconds : Nat) : Except Fault Nat :=
  if milliseconds < exactBelow then .ok milliseconds
  else
    match Binary64.ofQuotient false milliseconds 1000 with
    | .infinite _ => .error .pauseSeconds
    | .finite _ seconds =>
        match Binary64.ofQuotient false (1000 * seconds.num.natAbs) seconds.den with
        | .infinite _ => .error .pauseCount
        | .finite _ count => .ok (Binary64.roundDiv count.num.natAbs count.den)

/-- The milliseconds that are left of a wait when it is multiplied by zero in double precision. -/
def timesZero (milliseconds : Nat) : Except Fault Nat :=
  if milliseconds < Binary64.overflow then .ok 0 else .error .pauseProduct

end PointAndClick.Duration
