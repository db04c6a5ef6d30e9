import PointAndClick.Proofs.Play.Instants

/-!
# The lock in one step

In one step a machine leaves the lock to who has it, works for the call that has it, or hands it to
the first call that waits; what is asked for meanwhile comes last (`Machine.Hands`). Turns that are
taken (`Machine.hands_take`), waits that end (`Machine.hands_wake`) and calls
(`Machine.hands_request`) are such steps.
-/

set_option autoImplicit false

namespace PointAndClick

namespace Machine

open Session

/-- The lock, who waits for it and what was told to users are the same, and so is what is left to
do, and the time. -/
structure Alike (m m₁ : Machine) : Prop where
  now : m₁.now = m.now
  running : m₁.running = m.running
  left : m₁.stepsLeft = m.stepsLeft
  queue : m₁.queue = m.queue
  results : m₁.results = m.results
  scenes : m₁.session.navigation.scenes = m.session.navigation.scenes

/-- What one step does with the lock, while some calls ask for it. -/
inductive Hands (m : Machine) (asked : List Request) (m' : Machine) : Prop
  /-- The lock stays where it is, and the calls wait. -/
  | leaves (halike : Alike { m with queue := m.queue ++ asked } m')
      (hsoon : m.running.isSome → .resume ∈ m.session.turns → .resume ∈ m'.session.turns)
  /-- The call that has the lock goes on. -/
  | goesOn {m₁ : Machine} {r : Running} (hrunning : m.running = some r) (halike : Alike m m₁)
      (h : Spends r.owner m.stepsLeft m₁ m') (hasked : asked = [])
  /-- The first call gets the lock. -/
  | starts {m₁ : Machine} {r : Request} {rest : List Request}
      (hfirst : m.queue ++ asked = r :: rest) (hfree : m.running = none)
      (halike : Alike { m with queue := rest } m₁)
      (h : Spends r.owner (stepsOf m.session r.work) m₁ m')

variable {m m' m₁ : Machine}

theorem Alike.refl (m : Machine) : Alike m m := ⟨rfl, rfl, rfl, rfl, rfl, rfl⟩

/-- What is asked for gets the lock at once if it is free and nothing waits. -/
theorem hands_request (halike : Alike m m₁)
    (hturns : .resume ∈ m.session.turns → .resume ∈ m₁.session.turns) (r : Request) :
    Hands m [r] (m₁.request r) := by
  unfold request
  split
  · rename_i hfree
    rw [Bool.and_eq_true, Option.isNone_iff_eq_none, List.isEmpty_iff] at hfree
    have hqueue : m.queue = [] := halike.queue.symm.trans hfree.2
    have hfirst : m.queue ++ [r] = [r] := by rw [hqueue, List.nil_append]
    have hnone : Alike { m with queue := [] } m₁ :=
      ⟨halike.now, halike.running, halike.left, hfree.2, halike.results, halike.scenes⟩
    have hspends : Spends r.owner (stepsOf m.session r.work) m₁ (m₁.start r) :=
      stepsOf_congr halike.scenes ▸ spends_start r
    exact .starts hfirst (halike.running.symm.trans hfree.1) hnone hspends
  · refine .leaves ⟨halike.now, halike.running, halike.left, ?_, halike.results, halike.scenes⟩
      fun _ => hturns
    exact congrArg (· ++ [r]) halike.queue

theorem hands_nothing (halike : Alike m m')
    (hsoon : m.running.isSome → .resume ∈ m.session.turns → .resume ∈ m'.session.turns) :
    Hands m [] m' := by
  refine .leaves ⟨halike.now, halike.running, halike.left, ?_, halike.results, halike.scenes⟩ hsoon
  exact halike.queue.trans (List.append_nil _).symm

/-- A call asks for the lock, if there is one. -/
theorem hands_answer {step : Machine × Option Request} (halike : Alike m step.1)
    (hturns : .resume ∈ m.session.turns → .resume ∈ step.1.session.turns) :
    Hands m step.2.toList (answer step) := by
  unfold answer
  cases step.2 with
  | none => exact hands_nothing halike fun _ => hturns
  | some r => exact hands_request halike hturns r

theorem hands_tick (halike : Alike m m₁)
    (hturns : .resume ∈ m.session.turns → .resume ∈ m₁.session.turns) (serial : Nat) :
    ∃ asked, Hands m asked (m₁.tick serial) := by
  rw [tick_eq_answer]
  refine ⟨_, hands_answer ?_ hturns⟩
  exact ⟨halike.now, halike.running, halike.left, halike.queue, halike.results, halike.scenes⟩

theorem hands_goOn (halike : Alike m m₁)
    (hturns : .resume ∈ m.session.turns → .resume ∈ m₁.session.turns) : Hands m [] m₁.goOn := by
  cases hrunning : m₁.running with
  | none =>
      have hidle : m₁.goOn = m₁ := by
        unfold goOn
        rw [hrunning]
      rw [hidle]
      exact hands_nothing halike fun _ => hturns
  | some r =>
      have hspends := spends_goOn hrunning
      rw [halike.left] at hspends
      exact .goesOn (halike.running.symm.trans hrunning) halike hspends rfl

/-- A turn is taken, in any order. -/
theorem hands_take (hlocks : m.Locks) {t : Turn} (ht : t ∈ m.session.turns) :
    ∃ asked, Hands m asked ((m.dropTurn t).take t) := by
  have halike : Alike m (m.dropTurn t) := ⟨rfl, rfl, rfl, rfl, rfl, rfl⟩
  have hturns (hne : t ≠ .resume) (hmem : .resume ∈ m.session.turns) :
      .resume ∈ (m.dropTurn t).session.turns := (List.mem_erase_of_ne hne.symm).mpr hmem
  cases t with
  | beginTimer serial =>
      simp only [take]
      split
      · exact ⟨[], hands_nothing ⟨rfl, rfl, rfl, rfl, rfl, rfl⟩ fun _ => hturns (by simp)⟩
      · exact ⟨[], hands_nothing halike fun _ => hturns (by simp)⟩
  | tickTimer serial =>
      simp only [take]
      split
      · exact hands_tick halike (hturns (by simp)) serial
      · exact ⟨[], hands_nothing halike fun _ => hturns (by simp)⟩
  | grant =>
      obtain ⟨hfree, hqueue, -⟩ := hlocks.of_grant_mem ht
      obtain ⟨r, rest, hcons⟩ := List.exists_cons_of_ne_nil hqueue
      have hdrop : (m.dropTurn .grant).queue = r :: rest := hcons
      simp only [take, hdrop]
      have hfirst : m.queue ++ [] = r :: rest := by rw [hcons, List.append_nil]
      let m₁ : Machine := { m.dropTurn .grant with queue := rest }
      have halike' : Alike { m with queue := rest } m₁ := ⟨rfl, rfl, rfl, rfl, rfl, rfl⟩
      have hspends : Spends r.owner (stepsOf m.session r.work) m₁ (m₁.start r) :=
        spends_start (m := m₁) r
      exact ⟨[], .starts hfirst hfree halike' hspends⟩
  | resume =>
      simp only [take]
      cases hrunning : m.running with
      | none =>
          have hidle : (m.dropTurn .resume).goOn = m.dropTurn .resume := by
            unfold goOn
            rw [show (m.dropTurn .resume).running = none from hrunning]
          rw [hidle]
          exact ⟨[], hands_nothing halike fun hsome => by simp [hrunning] at hsome⟩
      | some r =>
          have hspends := spends_goOn (m := m.dropTurn .resume) hrunning
          exact ⟨[], .goesOn hrunning halike hspends rfl⟩

/-- The time passes up to the end of a wait, and the wait ends. -/
theorem hands_wake (d : Due) :
    ∃ asked, Hands { m with now := max m.now d.time } asked (m.wake d) := by
  unfold wake
  dsimp only
  split
  · exact ⟨[], hands_goOn (.refl _) id⟩
  · split
    · exact ⟨[], hands_nothing ⟨rfl, rfl, rfl, rfl, rfl, rfl⟩ fun _ => id⟩
    · exact hands_tick (.refl _) id _

end Machine

end PointAndClick
