/-!
# Turns and waits

What goes on in time takes turns, and waits. All turns of the present instant are taken first; then
the wait that ends first is over. Of several waits that end at one time, the one that began first
comes first.

Both are done in rounds: a round takes as many turns as there are when it begins, or ends as many
waits. A `Schedule` says how many rounds can matter.
-/

set_option autoImplicit false

namespace PointAndClick

variable {σ ω : Type}

/-! ## Rounds -/

/-- Does something some times over. -/
def again (step : σ → σ) : Nat → σ → σ
  | 0, s => s
  | n + 1, s => again step n (step s)

/-- Does as much as there is to do, round after round, until there is nothing or the rounds are
used up. -/
def rounds (todo : σ → Nat) (step : σ → σ) : Nat → σ → σ
  | 0, s => s
  | n + 1, s => if todo s = 0 then s else rounds todo step n (again step (todo s) s)

/-! ## Waits -/

/-- A wait that ends: when, its place among those that end then, and who waits. -/
structure Due (ω : Type) where
  time : Nat
  order : Nat
  waiter : ω
deriving DecidableEq, Repr

namespace Due

/-- The wait ends before another. -/
def before (a b : Due ω) : Bool :=
  a.time < b.time || (a.time == b.time && a.order < b.order)

/-- The first of some waits to end. -/
def first : List (Due ω) → Option (Due ω)
  | [] => none
  | d :: ds =>
      match first ds with
      | none => some d
      | some e => if e.before d then some e else some d

end Due

/-! ## Schedules -/

/-- How something goes on in time. -/
structure Schedule (σ ω : Type) where
  /-- How many turns of the present instant there are. -/
  turns : σ → Nat
  /-- Takes the first turn, if there is one. -/
  takeFirst : σ → σ
  /-- What can be done at the present instant at most, apart from turns that lead to no more. -/
  work : σ → Nat
  /-- The waits that will end. -/
  dues : σ → List (Due ω)
  /-- Ends a wait. -/
  wake : σ → Due ω → σ

namespace Schedule

variable (S : Schedule σ ω)

/-- Takes all turns of the present instant. -/
def settle (s : σ) : σ := rounds S.turns S.takeFirst (S.work s + 1) s

/-- Ends a wait, and takes the turns that follow. -/
def wakeFirst (s : σ) (d : Due ω) : σ := S.settle (S.wake s d)

/-- The wait to end next: the first, if it ends up to a time, as long as it is wanted. -/
def next? (wanted : σ → Bool) (time : Nat) (s : σ) : Option (Due ω) :=
  if wanted s then (Due.first (S.dues s)).filter (·.time ≤ time) else none

/-- How many waits there are, if one is to end next. -/
def waits (wanted : σ → Bool) (time : Nat) (s : σ) : Nat :=
  if (S.next? wanted time s).isSome then (S.dues s).length else 0

/-- Ends the wait that is to end next, if there is one. -/
def wakeNext (wanted : σ → Bool) (time : Nat) (s : σ) : σ :=
  match S.next? wanted time s with
  | none => s
  | some d => S.wakeFirst s d

/-- Ends the waits that end up to a time, one after another, as long as it is wanted. -/
def passWhile (wanted : σ → Bool) (time : Nat) (s : σ) : σ :=
  rounds (S.waits wanted time) (S.wakeNext wanted time) (time + 1) s

/-- Ends the waits that end up to a time, one after another. -/
def passUntil (time : Nat) (s : σ) : σ := S.passWhile (fun _ => true) time s

end Schedule

end PointAndClick
