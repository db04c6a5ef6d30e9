import Mathlib.Tactic.ByContra
import PointAndClick.Proofs.Navigation.Soundness

/-!
# Saved states that are rejected

A saved state that is wrong somewhere leaves what was taken from it before (`Navigation.Rejects`).
So the place in the history may be one of the history that was there before. It is out of the new
history if the state has a readable history that is too short for it and no readable place
(`Navigation.BreaksOff`), and only then (`Navigation.rejection`). Going back then fails if it is
out by more than one.
-/

set_option autoImplicit false

namespace PointAndClick

namespace Navigation

variable {n n' : Navigation} {state : Json} {e : Fault}

/-! ## The place and the history -/

theorem neg_one_le_placeIndex (n : Navigation) : -1 ≤ n.placeIndex := by
  unfold placeIndex
  split <;> omega

theorem placeIndex_lt_iff {k : Nat} : n.placeIndex < k ↔ ∀ p, n.place = some p → p < k := by
  unfold placeIndex
  cases n.place with
  | none =>
      simp only [reduceCtorEq, false_implies, implies_true, iff_true]
      omega
  | some p => simp

theorem placeIndex_le_iff {k : Nat} : n.placeIndex ≤ k ↔ ∀ p, n.place = some p → p ≤ k := by
  calc n.placeIndex ≤ k
      ↔ n.placeIndex < (k + 1 : Nat) := by omega
    _ ↔ ∀ p, n.place = some p → p < k + 1 := placeIndex_lt_iff
    _ ↔ ∀ p, n.place = some p → p ≤ k := by simp only [Nat.lt_succ_iff]

/-! ## What is left of a saved state -/

/-- The history that is taken from a saved state. -/
def takenHistory (n : Navigation) (state : Json) : Except Fault (List Nat) :=
  Except.map (cutHistory n.maxHistory) do
    let fields ← state.savedFields
    savedHistory n.scenes.length
      (← ((fields.lookup "navigation_history").getD (.list [])).savedItems)

/-- The place that is taken from a saved state, before it is moved into the history. -/
def takenPlace (history : List Nat) (state : Json) : Except Fault Int :=
  ((state.field? "history_position").getD (.int (history.length - 1 : Int))).savedInt

/-- What a saved state that is wrong leaves: all as it was, or its history with the place that was,
or its history with its place. -/
inductive Rejects (n : Navigation) (state : Json) : Navigation → Prop
  | history {e : Fault} (hhistory : n.takenHistory state = .error e) : Rejects n state n
  | place {history : List Nat} {e : Fault} (hhistory : n.takenHistory state = .ok history)
      (hplace : takenPlace history state = .error e) : Rejects n state { n with history }
  | later {history : List Nat} {place : Int} {n' : Navigation}
      (hhistory : n.takenHistory state = .ok history)
      (hplace : takenPlace history state = .ok place) (htaken : n'.history = history)
      (hmoved : n'.place = savedPlace history place) : Rejects n state n'

theorem rejects (h : (n.restore state).2 = .error e) : n.Rejects state (n.restore state).1 := by
  unfold Navigation.restore at h ⊢
  dsimp only at h ⊢
  split at h
  · rename_i e' hsaved
    have htaken : n.takenHistory state = .error e' := by
      rw [takenHistory, hsaved]
      rfl
    exact .history htaken
  · rename_i history hsaved
    have htaken : n.takenHistory state = .ok (cutHistory n.maxHistory history) := by
      rw [takenHistory, hsaved]
      rfl
    split at h
    · rename_i hplace
      exact .place htaken hplace
    · rename_i place hplace
      split at h
      · exact .later htaken hplace rfl rfl
      · split at h
        · exact .later htaken hplace rfl rfl
        · rename_i fields hfields
          split at h
          · rename_i restored e' hrestored
            obtain ⟨disabled, hdisabled⟩ := disableSaved_eq _ fields
            rw [hrestored] at hdisabled
            dsimp only at hdisabled
            rw [hdisabled]
            exact .later htaken hplace rfl rfl
          · nomatch h

/-- The saved state has a history, but no place, and the place that was is not in this history. -/
def BreaksOff (n : Navigation) (state : Json) : Prop :=
  ∃ history e, n.takenHistory state = .ok history ∧ takenPlace history state = .error e ∧
    history.length ≤ n.placeIndex

/-- A saved state that is rejected leaves the place in the history unless it breaks off between the
two. -/
theorem Rejects.placeIndex_lt_iff (h : n.Rejects state n') (hin : n.placeIndex < n.history.length) :
    n'.placeIndex < n'.history.length ↔ ¬n.BreaksOff state := by
  cases h with
  | history hhistory =>
      refine iff_of_true hin ?_
      rintro ⟨history, e, htaken, -, -⟩
      rw [hhistory] at htaken
      nomatch htaken
  | @place history e hhistory hplace =>
      have hsame : Navigation.placeIndex { n with history } = n.placeIndex := rfl
      rw [hsame]
      constructor
      · rintro hlt ⟨history', e', htaken, -, hle⟩
        rw [hhistory] at htaken
        cases htaken
        exact absurd hlt (Int.not_lt.mpr hle)
      · intro hnot
        exact Int.not_le.mp fun hle => hnot ⟨history, e, hhistory, hplace, hle⟩
  | later hhistory hplace htaken hmoved =>
      refine iff_of_true ?_ ?_
      · rw [Navigation.placeIndex_lt_iff, htaken, hmoved]
        exact fun p hp => lt_of_savedPlace hp
      · rintro ⟨history, e, htaken, hbroken, -⟩
        rw [hhistory] at htaken
        cases htaken
        rw [hplace] at hbroken
        nomatch hbroken

/-! ## Where the history leads -/

/-- The operation goes through the history, or enters a scene. -/
def Operation.IsTravel : Operation → Prop
  | .enter .. | .back | .forward => True
  | _ => False

theorem entryAt_eq_ok {p : Nat} (h : p < n.history.length) :
    n.entryAt p = .ok (some n.history[p]) := by
  unfold entryAt
  rw [List.getElem?_eq_getElem h]

theorem scene_ne_historyPlace (n : Navigation) (index : Int) :
    n.scene index ≠ .error .historyPlace := by
  unfold scene
  split
  · nofun
  · split <;> nofun

theorem placeIndex_record_le (n : Navigation) (index : Nat) :
    (n.record index).placeIndex ≤ (n.record index).history.length := by
  rw [placeIndex_le_iff]
  intro p hp
  unfold record lastPlace at hp ⊢
  dsimp only at hp ⊢
  split at hp
  · nomatch hp
  · cases hp
    exact Nat.sub_le _ _

/-- A place that is out of the history by no more than one leads nowhere out of it. -/
theorem travel (hin : n.placeIndex ≤ n.history.length) {op : Operation} (hop : op.IsTravel) :
    (n.operate op).2 ≠ .error .historyPlace ∧
      (n.operate op).1.placeIndex ≤ (n.operate op).1.history.length := by
  have hplace := placeIndex_le_iff.mp hin
  cases op with
  | enter index recorded =>
      unfold operate
      dsimp only
      split
      · rename_i e hscene
        refine ⟨?_, hin⟩
        rintro ⟨⟩
        exact scene_ne_historyPlace n index hscene
      · refine ⟨by rintro ⟨⟩, ?_⟩
        cases recorded with
        | true => exact placeIndex_record_le { n with current := some index.toNat } index.toNat
        | false => exact hin
  | back =>
      unfold operate back
      dsimp only
      split
      · rename_i p hp
        have hlt : p < n.history.length := hplace (p + 1) hp
        refine ⟨?_, ?_⟩
        · rw [entryAt_eq_ok hlt]
          rintro ⟨⟩
        · exact Int.ofNat_le.mpr (Nat.le_of_lt hlt)
      · exact ⟨by rintro ⟨⟩, hin⟩
  | forward =>
      unfold operate forward
      dsimp only
      split
      · rename_i hcan
        have hlt : n.nextPlace < n.history.length := by
          simpa [canGoForward] using hcan
        refine ⟨?_, ?_⟩
        · rw [entryAt_eq_ok hlt]
          rintro ⟨⟩
        · exact Int.ofNat_le.mpr (Nat.le_of_lt hlt)
      · exact ⟨by rintro ⟨⟩, hin⟩
  | _ => exact hop.elim

theorem travel_after (hin : n.placeIndex ≤ n.history.length) {ops : List Operation}
    (hops : ∀ op ∈ ops, op.IsTravel) : (n.after ops).placeIndex ≤ (n.after ops).history.length := by
  induction ops generalizing n with
  | nil => exact hin
  | cons op ops ih =>
      obtain ⟨hop, hops⟩ := List.forall_mem_cons.mp hops
      exact ih (travel hin hop).2 hops

/-- A place that is out of the history by more than one fails the first step back. -/
theorem back_eq_error (hout : n.history.length < n.placeIndex) :
    (n.operate .back).2 = .error .historyPlace := by
  unfold placeIndex at hout
  cases hplace : n.place with
  | none =>
      rw [hplace] at hout
      dsimp only at hout
      omega
  | some p =>
      rw [hplace] at hout
      dsimp only at hout
      obtain ⟨q, rfl⟩ : ∃ q, p = q + 1 := ⟨p - 1, by omega⟩
      have hnone : n.history[q]? = none := List.getElem?_eq_none (by omega)
      unfold operate back entryAt
      rw [hplace]
      dsimp only
      rw [hnone]
      rfl

/-! ## Rejection -/

/-- A navigation whose place is in the history, and that rejects a saved state, has its place in the
history afterwards unless the state breaks off between the two. No way through the history fails
from then on if and only if the place is out of it by no more than one. -/
theorem rejection (hin : n.placeIndex < n.history.length) (h : (n.restore state).2 = .error e) :
    let n' := (n.restore state).1
    (-1 ≤ n'.placeIndex ∧ n'.placeIndex < n'.history.length ↔ ¬n.BreaksOff state) ∧
      ((∀ ops : List Operation, (∀ op ∈ ops, op.IsTravel) → ∀ op : Operation, op.IsTravel →
        ((n'.after ops).operate op).2 ≠ .error .historyPlace) ↔
          n'.placeIndex ≤ n'.history.length) := by
  intro n'
  refine ⟨?_, ?_, ?_⟩
  · rw [and_iff_right n'.neg_one_le_placeIndex]
    exact (rejects h).placeIndex_lt_iff hin
  · intro hnever
    by_contra hout
    exact hnever [] (by simp) .back trivial (back_eq_error (Int.not_le.mp hout))
  · intro hle ops hops op hop
    exact (travel (travel_after hle hops) hop).1

/-- The third of three scenes is shown, and a saved state with one scene in its history and no
number for its place is rejected. The place is then out of the history by two. -/
theorem rejection_shortened :
    let n := after { scenes := [{ index := 0 }, { index := 1 }, { index := 2 }] }
      [.enter 0 true, .enter 1 true, .enter 2 true]
    let state := Json.object [
      ("navigation_history", .list [.int 0]), ("history_position", .text "x")]
    n.placeIndex = 2 ∧ n.history = [0, 1, 2] ∧ (n.restore state).1.history = [0] ∧
      n.BreaksOff state := by
  intro n state
  have hin : n.placeIndex < n.history.length := by decide
  have hrejected : (n.restore state).2 = .error .savedNumber := by rfl
  have hplace : ¬(n.restore state).1.placeIndex < (n.restore state).1.history.length := by
    decide +kernel
  refine ⟨rfl, rfl, by decide +kernel, ?_⟩
  by_contra hbreaks
  exact hplace ((rejection hin hrejected).1.mpr hbreaks).2

/-- Not every saved state that is rejected leaves the place in the history, nor the way back open.
-/
theorem not_forall_placeIndex_lt :
    ¬∀ (n : Navigation) (state : Json) (e : Fault), n.placeIndex < n.history.length →
      (n.restore state).2 = .error e →
        (-1 ≤ (n.restore state).1.placeIndex ∧
          (n.restore state).1.placeIndex < (n.restore state).1.history.length) ∧
        ∀ ops : List Operation, (∀ op ∈ ops, op.IsTravel) → ∀ op : Operation, op.IsTravel →
          (((n.restore state).1.after ops).operate op).2 ≠ .error .historyPlace := by
  intro hall
  have hbroken := hall
    (after { scenes := [{ index := 0 }, { index := 1 }, { index := 2 }] }
      [.enter 0 true, .enter 1 true, .enter 2 true])
    (.object [("navigation_history", .list [.int 0]), ("history_position", .text "x")])
    .savedNumber (by decide) (by rfl)
  exact hbroken.2 [] (by simp) .back trivial (by rfl)

end Navigation

end PointAndClick
