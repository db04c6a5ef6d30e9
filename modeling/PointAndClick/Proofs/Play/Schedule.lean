import Mathlib.Data.Finset.Card
import PointAndClick.Play.Schedule

/-!
# The rounds suffice

The rounds of a schedule are limited in advance. No limit cuts anything short: all turns of the
present instant are taken if each that leads to more uses up some of the work
(`Schedule.Settles.turns_settle`), and all waits up to a time are ended if each that begins ends
later than the present (`Schedule.Passes.next?_passWhile`).
-/

set_option autoImplicit false

namespace PointAndClick

variable {σ ω : Type}

/-! ## Rounds -/

section

variable {todo : σ → Nat} {step : σ → σ} {P : σ → Prop}

theorem again_keeps (h : ∀ s, P s → P (step s)) (n : Nat) {s : σ} (hs : P s) :
    P (again step n s) := by
  induction n generalizing s with
  | zero => exact hs
  | succ n ih => exact ih (h s hs)

theorem rounds_keeps (h : ∀ s, P s → P (step s)) (n : Nat) {s : σ} (hs : P s) :
    P (rounds todo step n s) := by
  induction n generalizing s with
  | zero => exact hs
  | succ n ih =>
      unfold rounds
      split
      · exact hs
      · exact ih (again_keeps h (todo s) hs)

/-- Rounds that leave less and less to do leave nothing, if there are more of them than was left. -/
theorem todo_rounds (left : σ → Nat) (hkeeps : ∀ s, P s → P (step s))
    (hround : ∀ s, P s → todo s ≠ 0 →
      todo (again step (todo s) s) = 0 ∨ left (again step (todo s) s) < left s)
    {n : Nat} {s : σ} (hs : P s) (hn : left s < n) : todo (rounds todo step n s) = 0 := by
  induction n generalizing s with
  | zero => exact absurd hn (Nat.not_lt_zero _)
  | succ n ih =>
      unfold rounds
      split
      · assumption
      · rename_i hmore
        rcases hround s hs hmore with hdone | hless
        · -- nothing is left after this round, and the others do nothing
          cases n with
          | zero => exact hdone
          | succ n =>
              unfold rounds
              rw [if_pos hdone]
              exact hdone
        · exact ih (again_keeps hkeeps _ hs) (by omega)

end

/-! ## The first wait -/

namespace Due

variable {d : Due ω} {ds : List (Due ω)}

theorem mem_of_first (h : first ds = some d) : d ∈ ds := by
  induction ds generalizing d with
  | nil => nomatch h
  | cons a ds ih =>
      unfold first at h
      cases hrest : first ds with
      | none =>
          rw [hrest] at h
          cases h
          exact List.mem_cons_self
      | some e =>
          rw [hrest] at h
          dsimp only at h
          split at h
          · cases h
            exact List.mem_cons_of_mem a (ih hrest)
          · cases h
            exact List.mem_cons_self

theorem first_eq_none (h : first ds = none) : ds = [] := by
  cases ds with
  | nil => rfl
  | cons a ds =>
      unfold first at h
      split at h
      · nomatch h
      · split at h <;> nomatch h

/-- No wait ends before the first. -/
theorem time_first_le (h : first ds = some d) : ∀ e ∈ ds, d.time ≤ e.time := by
  induction ds generalizing d with
  | nil => nomatch h
  | cons a ds ih =>
      unfold first at h
      cases hrest : first ds with
      | none =>
          rw [hrest] at h
          cases h
          rw [first_eq_none hrest]
          exact fun e he => Nat.le_of_eq (congrArg time (List.mem_singleton.mp he).symm)
      | some b =>
          rw [hrest] at h
          dsimp only at h
          have hleast := ih hrest
          intro e he
          split at h <;> rename_i hbefore <;> cases h <;>
            simp only [before, Bool.or_eq_true, Bool.and_eq_true, decide_eq_true_eq,
              beq_iff_eq] at hbefore <;>
            rcases List.mem_cons.mp he with rfl | hmem
          · omega
          · exact hleast e hmem
          · exact Nat.le_refl _
          · exact Nat.le_trans (by omega) (hleast e hmem)

end Due

namespace Schedule

variable {S : Schedule σ ω}

/-! ## The present instant -/

/-- Each turn that leads to more uses up some of the work that is left. -/
structure Settles (S : Schedule σ ω) (left : σ → Nat) : Prop where
  le (s : σ) : left s ≤ S.work s
  idle (s : σ) : S.turns s = 0 → S.takeFirst s = s
  take (s : σ) : S.turns s ≠ 0 → left (S.takeFirst s) < left s ∨
    left (S.takeFirst s) ≤ left s ∧ S.turns (S.takeFirst s) + 1 = S.turns s

theorem Settles.round {left : σ → Nat} (h : S.Settles left) (n : Nat) (s : σ) :
    left (again S.takeFirst n s) < left s ∨
      left (again S.takeFirst n s) ≤ left s ∧
        S.turns (again S.takeFirst n s) = S.turns s - n := by
  induction n generalizing s with
  | zero => exact .inr ⟨Nat.le_refl _, rfl⟩
  | succ n ih =>
      have hrest := ih (S.takeFirst s)
      rw [again]
      by_cases hidle : S.turns s = 0
      · rw [h.idle s hidle] at hrest ⊢
        omega
      · have htake := h.take s hidle
        omega

/-- No turn of the present instant is left. -/
theorem Settles.turns_settle {left : σ → Nat} (h : S.Settles left) (s : σ) :
    S.turns (S.settle s) = 0 := by
  refine todo_rounds (P := fun _ => True) left (fun _ _ => trivial) (fun s _ _ => ?_) trivial
    (Nat.lt_succ_of_le (h.le s))
  have hround := h.round (S.turns s) s
  omega

/-! ## Waits -/

/-- Waits that begin end later than the present, and one that ends is over. -/
structure Passes (S : Schedule σ ω) (now : σ → Nat) (P : σ → Prop) : Prop where
  take (s : σ) : P s → P (S.takeFirst s) ∧ now (S.takeFirst s) = now s ∧
    ∀ e ∈ S.dues (S.takeFirst s), now s < e.time ∨ e ∈ S.dues s
  wake (s : σ) (d : Due ω) : P s → d ∈ S.dues s →
    P (S.wake s d) ∧ now (S.wake s d) = max (now s) d.time ∧
      ∀ e ∈ S.dues (S.wake s d), max (now s) d.time < e.time ∨ e ∈ S.dues s ∧ e ≠ d

variable {now : σ → Nat} {P : σ → Prop}

theorem Passes.wakeFirst (h : S.Passes now P) {s : σ} {d : Due ω} (hs : P s)
    (hd : d ∈ S.dues s) :
    P (S.wakeFirst s d) ∧ now (S.wakeFirst s d) = max (now s) d.time ∧
      ∀ e ∈ S.dues (S.wakeFirst s d), max (now s) d.time < e.time ∨ e ∈ S.dues s ∧ e ≠ d := by
  refine rounds_keeps (P := fun s' => P s' ∧ now s' = max (now s) d.time ∧
    ∀ e ∈ S.dues s', max (now s) d.time < e.time ∨ e ∈ S.dues s ∧ e ≠ d) ?_ _ (h.wake s d hs hd)
  rintro s' ⟨hs', hnow, hdues⟩
  obtain ⟨htaken, hsame, hlater⟩ := h.take s' hs'
  refine ⟨htaken, hsame.trans hnow, fun e he => ?_⟩
  rcases hlater e he with hlate | hold
  · exact .inl (hnow ▸ hlate)
  · exact hdues e hold

variable {wanted : σ → Bool} {time : Nat}

theorem next?_eq_some {s : σ} {d : Due ω} (h : S.next? wanted time s = some d) :
    Due.first (S.dues s) = some d ∧ d.time ≤ time := by
  unfold next? at h
  split at h
  · simpa [Option.filter_eq_some_iff] using h
  · nomatch h

theorem next?_isSome {s : σ} (h : S.waits wanted time s ≠ 0) :
    ∃ d, S.next? wanted time s = some d ∧ S.waits wanted time s = (S.dues s).length := by
  unfold waits at h ⊢
  cases hnext : S.next? wanted time s with
  | none => simp [hnext] at h
  | some d => exact ⟨d, rfl, rfl⟩

theorem next?_eq_none_of_waits {s : σ} (h : S.waits wanted time s = 0) :
    S.next? wanted time s = none := by
  cases hnext : S.next? wanted time s with
  | none => rfl
  | some d =>
      have hmem := Due.mem_of_first (next?_eq_some hnext).1
      unfold waits at h
      rw [hnext] at h
      have hnil : S.dues s = [] := List.length_eq_zero_iff.mp h
      rw [hnil] at hmem
      nomatch hmem

theorem Passes.wakeNext (h : S.Passes now P) (s : σ) (hs : P s) : P (S.wakeNext wanted time s) := by
  unfold Schedule.wakeNext
  split
  · exact hs
  · rename_i d hnext
    exact (h.wakeFirst hs (Due.mem_of_first (next?_eq_some hnext).1)).1

theorem again_of_done {s : σ} (h : S.waits wanted time s = 0) (n : Nat) :
    again (S.wakeNext wanted time) n s = s := by
  have hstep : S.wakeNext wanted time s = s := by
    unfold Schedule.wakeNext
    rw [next?_eq_none_of_waits h]
  induction n with
  | zero => rfl
  | succ n ih =>
      unfold again
      rw [hstep]
      exact ih

open scoped Classical in
/-- The waits that end up to a time. -/
noncomputable def ripe (S : Schedule σ ω) (time : Nat) (s : σ) : Finset (Due ω) :=
  (S.dues s).toFinset.filter (·.time ≤ time)

theorem mem_ripe {s : σ} {e : Due ω} {time : Nat} :
    e ∈ S.ripe time s ↔ e ∈ S.dues s ∧ e.time ≤ time := by
  simp [ripe]

/-- As many waits as end at the first time are ended in a round, unless it stops before. -/
theorem Passes.round (h : S.Passes now P) {first : Nat} (n : Nat) {s : σ} (hs : P s)
    (hfirst : first ≤ now s ∨ ∀ e ∈ S.dues s, first ≤ e.time) (hn : (S.ripe first s).card ≤ n) :
    S.waits wanted time (again (S.wakeNext wanted time) n s) = 0 ∨
      S.ripe first (again (S.wakeNext wanted time) n s) = ∅ := by
  classical
  induction n generalizing s with
  | zero => exact .inr (Finset.card_eq_zero.mp (Nat.le_zero.mp hn))
  | succ n ih =>
      by_cases hdone : S.waits wanted time s = 0
      · rw [again_of_done hdone]
        exact .inl hdone
      · obtain ⟨d, hnext, -⟩ := next?_isSome hdone
        have hd := (next?_eq_some hnext).1
        have hmem := Due.mem_of_first hd
        obtain ⟨hs', hnow, hdues⟩ := h.wakeFirst hs hmem
        have hstep : S.wakeNext wanted time s = S.wakeFirst s d := by
          unfold Schedule.wakeNext
          rw [hnext]
        have hreached : first ≤ max (now s) d.time := by
          rcases hfirst with hnow | hall
          · exact Nat.le_trans hnow (Nat.le_max_left _ _)
          · exact Nat.le_trans (hall d hmem) (Nat.le_max_right _ _)
        -- what is ripe now was so before, and is not the wait that ended
        have hripe : S.ripe first (S.wakeFirst s d) ⊆ (S.ripe first s).erase d := by
          intro e he
          obtain ⟨hdue, htime⟩ := mem_ripe.mp he
          rcases hdues e hdue with hlate | ⟨hold, hne⟩
          · omega
          · exact Finset.mem_erase.mpr ⟨hne, mem_ripe.mpr ⟨hold, htime⟩⟩
        have hcard : (S.ripe first (S.wakeFirst s d)).card ≤ n := by
          by_cases hearly : d.time ≤ first
          · have hless := Finset.card_lt_card
              (Finset.erase_ssubset (mem_ripe.mpr ⟨hmem, hearly⟩))
            have hle := Finset.card_le_card hripe
            omega
          · -- the first wait is later, so none is ripe
            have hnone : S.ripe first s = ∅ := by
              refine Finset.eq_empty_of_forall_notMem fun e he => ?_
              obtain ⟨hdue, htime⟩ := mem_ripe.mp he
              have hleast := Due.time_first_le hd e hdue
              omega
            have hle := Finset.card_le_card hripe
            rw [hnone] at hle
            exact Nat.le_trans hle (Nat.zero_le n)
        unfold again
        rw [hstep]
        exact ih hs' (.inl (by omega)) hcard

/-- No wait is left that is to end next. -/
theorem Passes.next?_passWhile (h : S.Passes now P) {s : σ} (hs : P s) :
    S.next? wanted time (S.passWhile wanted time s) = none := by
  classical
  refine next?_eq_none_of_waits ?_
  refine todo_rounds (P := P) (fun s => ((Due.first (S.dues s)).map fun d => time - d.time).getD 0)
    (fun s hs => h.wakeNext s hs) (fun s hs hmore => ?_) hs ?_
  · obtain ⟨d, hnext, hwaits⟩ := next?_isSome hmore
    obtain ⟨hd, htime⟩ := next?_eq_some hnext
    have hcard : (S.ripe d.time s).card ≤ S.waits wanted time s := by
      rw [hwaits]
      exact Nat.le_trans (Finset.card_filter_le _ _) (List.toFinset_card_le _)
    have hround : S.waits wanted time _ = 0 ∨ _ :=
      h.round _ hs (.inr (Due.time_first_le hd)) hcard
    rcases hround with hdone | hripe
    · exact .inl hdone
    · refine Classical.or_iff_not_imp_left.mpr fun hmore' => ?_
      obtain ⟨d', hnext', -⟩ := next?_isSome hmore'
      obtain ⟨hd', htime'⟩ := next?_eq_some hnext'
      have hlater : d.time < d'.time := by
        by_contra hle
        have hmem := mem_ripe.mpr ⟨Due.mem_of_first hd', Nat.le_of_not_lt hle⟩
        rw [hripe] at hmem
        exact absurd hmem (Finset.notMem_empty _)
      rw [hd, hd']
      show time - d'.time < time - d.time
      omega
  · cases Due.first (S.dues s) with
    | none => exact Nat.succ_pos _
    | some d => exact Nat.lt_succ_of_le (Nat.sub_le _ _)

/-- The waits that are left end later, if more of them are wanted. -/
theorem lt_of_next?_eq_none {s : σ} (h : S.next? wanted time s = none) (hwanted : wanted s = true) :
    ∀ e ∈ S.dues s, time < e.time := by
  intro e he
  unfold next? at h
  rw [if_pos hwanted] at h
  cases hfirst : Due.first (S.dues s) with
  | none =>
      rw [Due.first_eq_none hfirst] at he
      nomatch he
  | some d =>
      rw [hfirst] at h
      have hlate : ¬d.time ≤ time := by simpa using h
      exact Nat.lt_of_lt_of_le (Nat.lt_of_not_le hlate) (Due.time_first_le hfirst e he)

theorem Passes.lt_of_mem_passUntil (h : S.Passes now P) {s : σ} (hs : P s) :
    ∀ e ∈ S.dues (S.passUntil time s), time < e.time :=
  lt_of_next?_eq_none (h.next?_passWhile hs) rfl

end Schedule

end PointAndClick
