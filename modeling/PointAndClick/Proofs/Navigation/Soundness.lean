import PointAndClick.Proofs.Play.Pauses

/-!
# A sound navigation

In a sound navigation the history is no longer than it may be, the place lies in it, and its entries
and the scene shown are scenes of the project (`Navigation.Sound`). Every operation keeps a
navigation sound, with one exception: a saved state that is wrong in the middle leaves what was
taken from it before (`Navigation.Sound.operate`).

So after whatever operations, going back or forward gives a scene or nothing and never fails, and an
operation that fails changes nothing (`Navigation.sound_after`).
-/

set_option autoImplicit false

namespace PointAndClick

namespace Navigation

/-! ## Operations -/

/-- What can be asked of a navigation. -/
inductive Operation
  | resolve (ref : SceneRef)
  | enter (index : Int) (recorded : Bool)
  | back
  | forward
  | reset
  | beginTransition
  | endTransition
  | setEnabled (scene hotspot : Int) (enabled : Bool)
  | restore (state : Json)

/-- What an operation gives. -/
inductive Answer
  | nothing
  | flag (value : Bool)
  | scene (index : Option Nat)

/-- Does what is asked. A scene is entered only if it is there. -/
def operate (n : Navigation) : Operation → Navigation × Except Fault Answer
  | .resolve ref => (n, (n.resolve ref).map fun index => .scene (some index))
  | .enter index recorded =>
      match n.scene index with
      | .error e => (n, .error e)
      | .ok _ => (n.enter index.toNat recorded, .ok (.scene (some index.toNat)))
  | .back => (n.back.1, n.back.2.map .scene)
  | .forward => (n.forward.1, n.forward.2.map .scene)
  | .reset => (n.reset, .ok .nothing)
  | .beginTransition =>
      match n.beginTransition with
      | some n' => (n', .ok (.flag true))
      | none => (n, .ok (.flag false))
  | .endTransition => (n.endTransition, .ok .nothing)
  | .setEnabled scene hotspot enabled =>
      match n.setEnabled scene hotspot enabled with
      | .ok n' => (n', .ok .nothing)
      | .error e => (n, .error e)
  | .restore state => ((n.restore state).1, (n.restore state).2.map fun _ => .nothing)

/-- Does what is asked, one thing after another. What fails does not keep the rest from being
done. -/
def after (n : Navigation) (ops : List Operation) : Navigation :=
  ops.foldl (fun n op => (n.operate op).1) n

/-- No saved state that is restored on the way is wrong. -/
def RestoresWell : Navigation → List Operation → Prop
  | _, [] => True
  | n, op :: ops =>
      (∀ state, op = .restore state → (n.restore state).2 = .ok ()) ∧
        (n.operate op).1.RestoresWell ops

/-! ## Soundness -/

/-- The history is no longer than it may be, the place lies in it, and its entries and the scene
shown are scenes of the project. -/
structure Sound (n : Navigation) : Prop where
  length : n.history.length ≤ n.maxHistory
  place : ∀ p, n.place = some p → p < n.history.length
  entries : ∀ i ∈ n.history, i < n.scenes.length
  current : ∀ i, n.current = some i → i < n.scenes.length

variable {n n' : Navigation}

theorem sound_fresh (scenes : List Scene) (maxHistory : Nat) :
    Sound { scenes, maxHistory } where
  length := Nat.zero_le _
  place p hp := by simp at hp
  entries i hi := by simp at hi
  current i hi := by simp at hi

/-- Transitions and hotspots are free. -/
theorem Sound.of_eq (h : n.Sound) (hscenes : n'.scenes = n.scenes)
    (hmax : n'.maxHistory = n.maxHistory) (hhistory : n'.history = n.history)
    (hplace : n'.place = n.place) (hcurrent : n'.current = n.current) : n'.Sound := by
  constructor
  · rw [hhistory, hmax]
    exact h.length
  · rw [hhistory, hplace]
    exact h.place
  · rw [hhistory, hscenes]
    exact h.entries
  · rw [hcurrent, hscenes]
    exact h.current

theorem lt_of_scene_eq_ok {index : Int} {scene : Scene} (h : n.scene index = .ok scene) :
    0 ≤ index ∧ index.toNat < n.scenes.length ∧ n.scenes[index.toNat]? = some scene := by
  unfold Navigation.scene at h
  split at h
  · simp at h
  · cases hget : n.scenes[index.toNat]? with
    | none => simp [hget] at h
    | some s =>
        obtain ⟨hlt, -⟩ := List.getElem?_eq_some_iff.mp hget
        refine ⟨by omega, hlt, ?_⟩
        simp only [hget, Except.ok.injEq] at h
        rw [h]

/-- A scene that is there is found. -/
theorem scene_natCast_eq_ok {i : Nat} (h : i < n.scenes.length) :
    n.scene i = .ok n.scenes[i] := by
  have hnat : ¬((i : Int) < 0) := by omega
  simp [Navigation.scene, hnat, h]

/-! ## Entering scenes -/

/-- The history after a scene is recorded ends with it. -/
theorem record_eq (n : Navigation) (index : Nat) (hmax : 0 < n.maxHistory) :
    ∃ before, (n.record index).history = before ++ [index] ∧
      (n.record index).place = some before.length ∧
      before.length < n.maxHistory ∧ ∀ i ∈ before, i ∈ n.history := by
  obtain ⟨kept, hkept⟩ : ∃ kept, kept = n.history.take n.keptEntries := ⟨_, rfl⟩
  have hhistory : (n.record index).history =
      (kept ++ [index]).drop ((kept ++ [index]).length - n.maxHistory) := by
    rw [hkept]
    rfl
  -- of a history that grows too long the last entry is never among those dropped
  have hdrop : (kept ++ [index]).length - n.maxHistory ≤ kept.length := by
    simp only [List.length_append, List.length_singleton]
    omega
  refine ⟨kept.drop ((kept ++ [index]).length - n.maxHistory), ?_, ?_, ?_, ?_⟩
  · rw [hhistory]
    exact List.drop_append_of_le_length hdrop
  · show lastPlace (n.record index).history = _
    rw [hhistory, List.drop_append_of_le_length hdrop]
    simp [lastPlace]
  · simp only [List.length_drop, List.length_append, List.length_singleton]
    omega
  · intro i hi
    have htake : i ∈ kept := List.mem_of_mem_drop hi
    rw [hkept] at htake
    exact List.mem_of_mem_take htake

theorem Sound.record (h : n.Sound) (hmax : 0 < n.maxHistory) {index : Nat}
    (hindex : index < n.scenes.length) : (n.record index).Sound := by
  obtain ⟨before, hhistory, hplace, hlength, hbefore⟩ := n.record_eq index hmax
  constructor
  · rw [hhistory]
    simp only [List.length_append, List.length_singleton]
    exact hlength
  · intro p hp
    rw [hplace] at hp
    rw [hhistory]
    cases hp
    simp
  · intro i hi
    rw [hhistory] at hi
    rcases List.mem_append.mp hi with hold | hnew
    · exact h.entries i (hbefore i hold)
    · rw [List.mem_singleton.mp hnew]
      exact hindex
  · exact h.current

theorem Sound.enter (h : n.Sound) (hmax : 0 < n.maxHistory) {index : Nat}
    (hindex : index < n.scenes.length) (recorded : Bool) : (n.enter index recorded).Sound := by
  have hshown : Sound { n with current := some index } := by
    refine ⟨h.length, h.place, h.entries, ?_⟩
    intro i hi
    cases hi
    exact hindex
  unfold Navigation.enter
  cases recorded with
  | true => exact hshown.record hmax hindex
  | false => exact hshown

/-! ## Moving in the history -/

theorem Sound.move (h : n.Sound) {p : Nat} (hp : p < n.history.length) :
    Sound { n with place := some p } := by
  refine ⟨h.length, ?_, h.entries, h.current⟩
  intro q hq
  cases hq
  exact hp

/-- An entry of a sound history is a scene of the project. -/
theorem Sound.entryAt (h : n.Sound) {p : Nat} (hp : p < n.history.length) :
    n.entryAt p = .ok (some n.history[p]) ∧ n.history[p] < n.scenes.length := by
  constructor
  · simp [Navigation.entryAt, hp]
  · exact h.entries _ (List.getElem_mem hp)

/-- Going back gives nothing and changes nothing, or gives the entry before. -/
theorem Sound.back_cases (h : n.Sound) :
    n.back = (n, .ok none) ∨
      ∃ p, ∃ hp : p + 1 < n.history.length, n.place = some (p + 1) ∧
        n.back = ({ n with place := some p }, .ok (some n.history[p])) := by
  unfold Navigation.back
  cases hplace : n.place with
  | none => exact Or.inl rfl
  | some q =>
      cases q with
      | zero => exact Or.inl rfl
      | succ p =>
          have hp : p + 1 < n.history.length := h.place _ hplace
          refine Or.inr ⟨p, hp, rfl, ?_⟩
          show ({ n with place := some p }, n.entryAt p) = _
          rw [(h.entryAt (Nat.lt_of_succ_lt hp)).1]

/-- Going forward gives nothing and changes nothing, or gives the entry after. -/
theorem Sound.forward_cases (h : n.Sound) :
    n.forward = (n, .ok none) ∨
      ∃ hp : n.nextPlace < n.history.length,
        n.forward = ({ n with place := some n.nextPlace }, .ok (some n.history[n.nextPlace])) := by
  unfold Navigation.forward
  by_cases hforward : n.canGoForward = true
  · have hp : n.nextPlace < n.history.length := by simpa [canGoForward] using hforward
    refine Or.inr ⟨hp, ?_⟩
    rw [if_pos hforward, (h.entryAt hp).1]
  · exact Or.inl (if_neg hforward)

theorem Sound.back (h : n.Sound) : n.back.1.Sound := by
  rcases h.back_cases with hback | ⟨p, hp, -, hback⟩
  · rw [hback]
    exact h
  · rw [hback]
    exact h.move (Nat.lt_of_succ_lt hp)

theorem Sound.forward (h : n.Sound) : n.forward.1.Sound := by
  rcases h.forward_cases with hforward | ⟨hp, hforward⟩
  · rw [hforward]
    exact h
  · rw [hforward]
    exact h.move hp

/-- Going back never fails, and what it gives is a scene of the project. -/
theorem Sound.back_eq_ok (h : n.Sound) :
    ∃ target, n.back.2 = .ok target ∧ ∀ i, target = some i → i < n.scenes.length := by
  rcases h.back_cases with hback | ⟨p, hp, -, hback⟩
  · exact ⟨none, by rw [hback], by simp⟩
  · refine ⟨some n.history[p], by rw [hback], ?_⟩
    intro i hi
    cases hi
    exact (h.entryAt (Nat.lt_of_succ_lt hp)).2

/-- Going forward never fails, and what it gives is a scene of the project. -/
theorem Sound.forward_eq_ok (h : n.Sound) :
    ∃ target, n.forward.2 = .ok target ∧ ∀ i, target = some i → i < n.scenes.length := by
  rcases h.forward_cases with hforward | ⟨hp, hforward⟩
  · exact ⟨none, by rw [hforward], by simp⟩
  · refine ⟨some n.history[n.nextPlace], by rw [hforward], ?_⟩
    intro i hi
    cases hi
    exact (h.entryAt hp).2

/-! ## Saved states -/

/-- Saved entries that are no scenes of the project are left out. -/
theorem lt_of_mem_savedHistory {count : Nat} {items : List Json} {history : List Nat}
    (h : savedHistory count items = .ok history) : ∀ i ∈ history, i < count := by
  unfold savedHistory at h
  cases hnumbers : items.mapM Json.savedInt with
  | error e => simp [hnumbers, bind, Except.bind] at h
  | ok numbers =>
      simp only [hnumbers, bind, Except.bind, pure, Except.pure, Except.ok.injEq] at h
      intro i hi
      rw [← h] at hi
      obtain ⟨k, hk, rfl⟩ := List.mem_map.mp hi
      have hbounds := (List.mem_filter.mp hk).2
      simp only [decide_eq_true_eq] at hbounds
      omega

theorem length_cutHistory_le {maxHistory : Nat} (hmax : 0 < maxHistory) (history : List Nat) :
    (cutHistory maxHistory history).length ≤ maxHistory := by
  have hne : maxHistory ≠ 0 := by omega
  simp only [cutHistory, hne, if_false, List.length_drop]
  omega

theorem mem_of_mem_cutHistory {maxHistory i : Nat} {history : List Nat}
    (h : i ∈ cutHistory maxHistory history) : i ∈ history := by
  unfold cutHistory at h
  split at h
  · exact h
  · exact List.mem_of_mem_drop h

theorem lt_of_savedPlace {history : List Nat} {place : Int} {p : Nat}
    (h : savedPlace history place = some p) : p < history.length := by
  unfold savedPlace at h
  dsimp only at h
  split at h
  · simp at h
  · cases h
    omega

/-- Saved hotspots change nothing else. -/
theorem disableSaved_eq (n : Navigation) (fields : List (String × Json)) :
    ∃ disabled, (n.disableSaved fields).1 = { n with disabled } := by
  induction fields generalizing n with
  | nil => exact ⟨n.disabled, rfl⟩
  | cons field fields ih =>
      obtain ⟨key, enabled⟩ := field
      unfold disableSaved
      split
      · exact ih n
      · cases savedKey key with
        | error e => exact ⟨n.disabled, rfl⟩
        | ok k =>
            obtain ⟨disabled, hdisabled⟩ := ih { n with disabled := insertKey k n.disabled }
            exact ⟨disabled, hdisabled⟩

/-- The entries of a saved history are scenes of the project. -/
theorem lt_of_mem_saved {count : Nat} {state : Json} {history : List Nat}
    (h : (do
      let fields ← state.savedFields
      savedHistory count
        (← ((fields.lookup "navigation_history").getD (.list [])).savedItems)) =
      (.ok history : Except Fault (List Nat))) : ∀ i ∈ history, i < count := by
  cases hfields : state.savedFields with
  | error e => simp [hfields, bind, Except.bind] at h
  | ok fields =>
      cases hitems : ((fields.lookup "navigation_history").getD (.list [])).savedItems with
      | error e => simp [hfields, hitems, bind, Except.bind] at h
      | ok items =>
          simp only [hfields, hitems, bind, Except.bind] at h
          exact lt_of_mem_savedHistory h

/-- With a history and a place that were saved, a navigation is sound if the scene shown is. -/
theorem sound_saved (hmax : 0 < n.maxHistory) {history : List Nat}
    (hentries : ∀ i ∈ history, i < n.scenes.length) (place : Int) {current : Option Nat}
    (hcurrent : ∀ i, current = some i → i < n.scenes.length) (disabled : List (Int × Int)) :
    Sound { n with
      history := cutHistory n.maxHistory history
      place := savedPlace (cutHistory n.maxHistory history) place
      current
      disabled } where
  length := length_cutHistory_le hmax history
  place _ hp := lt_of_savedPlace hp
  entries i hi := hentries i (mem_of_mem_cutHistory hi)
  current := hcurrent

/-- A saved scene is shown only if it is there. -/
theorem lt_of_saved_current (index : Int) {count i : Nat}
    (h : (if 0 ≤ index ∧ index < count then some index.toNat else none) = some i) : i < count := by
  split at h
  · cases h
    omega
  · nomatch h

/-- Whatever the saved hotspots are, and whether they can be read or not, a sound navigation stays
sound. -/
theorem sound_restoreFlags (h : n.Sound) (fields : List (String × Json)) :
    (match n.disableSaved fields with
      | (n, .error e) => (n, .error e)
      | (n, .ok ()) => ({ n with transitioning := false }, .ok ()) :
        Navigation × Except Fault Unit).1.Sound := by
  obtain ⟨disabled, hdisabled⟩ := n.disableSaved_eq fields
  split <;> rename_i hsaved <;> rw [hsaved] at hdisabled <;> dsimp only at hdisabled ⊢ <;>
    rw [hdisabled] <;> exact h.of_eq rfl rfl rfl rfl rfl

/-- A saved state that is not wrong leaves a sound navigation, whatever it holds. -/
theorem sound_restore (hmax : 0 < n.maxHistory) {state : Json}
    (h : (n.restore state).2 = .ok ()) : (n.restore state).1.Sound := by
  unfold Navigation.restore at h ⊢
  dsimp only at h ⊢
  split at h
  · nomatch h
  · rename_i history hhistory
    have hentries := lt_of_mem_saved hhistory
    split at h
    · nomatch h
    · rename_i place hplace
      split at h
      · nomatch h
      · rename_i index hindex
        split at h
        · nomatch h
        · rename_i fields hfields
          exact sound_restoreFlags
            (sound_saved hmax hentries place (fun _ => lt_of_saved_current index) []) fields

/-- The place in the history can be read from a saved state, if it has one. -/
def ReadsPlace (state : Json) : Prop :=
  ∀ saved, state.field? "history_position" = some saved → ∃ place, saved.savedInt = .ok place

/-- A saved state with a place that can be read leaves a sound navigation sound, also if it is wrong
otherwise. -/
theorem Sound.restore (h : n.Sound) (hmax : 0 < n.maxHistory) {state : Json}
    (hreads : ReadsPlace state) : (n.restore state).1.Sound := by
  unfold Navigation.restore
  dsimp only
  split
  · exact h
  · rename_i history hhistory
    have hentries := lt_of_mem_saved hhistory
    split
    · rename_i e hplace
      cases hfield : state.field? "history_position" with
      | none =>
          rw [hfield] at hplace
          nomatch hplace
      | some saved =>
          obtain ⟨place, hread⟩ := hreads saved hfield
          rw [hfield, Option.getD_some, hread] at hplace
          nomatch hplace
    · rename_i place hplace
      split
      · exact sound_saved hmax hentries place h.current n.disabled
      · rename_i index hindex
        have hsound := sound_saved hmax hentries place (fun _ => lt_of_saved_current index) []
        split
        · exact hsound
        · rename_i fields hfields
          exact sound_restoreFlags hsound fields

/-- A saved state never changes the scenes, and never begins a change of scene. -/
theorem restore_eq (n : Navigation) (state : Json) :
    ∃ history place current disabled transitioning,
      (n.restore state).1 = { n with history, place, current, disabled, transitioning } ∧
        (transitioning = true → n.transitioning = true) := by
  unfold Navigation.restore
  dsimp only
  split
  · exact ⟨_, _, _, _, _, rfl, id⟩
  · split
    · exact ⟨_, _, _, _, _, rfl, id⟩
    · split
      · exact ⟨_, _, _, _, _, rfl, id⟩
      · split
        · exact ⟨_, _, _, _, _, rfl, id⟩
        · split <;> rename_i hsaved <;>
            obtain ⟨disabled, hdisabled⟩ := disableSaved_eq _ _ <;>
            rw [hsaved] at hdisabled <;>
            dsimp only at hdisabled ⊢ <;>
            rw [hdisabled]
          · exact ⟨_, _, _, _, _, rfl, id⟩
          · exact ⟨_, _, _, _, _, rfl, fun h => nomatch h⟩

/-! ## Whatever is asked -/

theorem enter_eq (n : Navigation) (index : Nat) (recorded : Bool) :
    ∃ history place, n.enter index recorded = { n with current := some index, history, place } := by
  cases recorded with
  | true => exact ⟨_, _, rfl⟩
  | false => exact ⟨_, _, rfl⟩

/-- Nothing that is asked changes the scenes or how long the history may be. -/
theorem bounds_operate (n : Navigation) (op : Operation) :
    (n.operate op).1.scenes = n.scenes ∧ (n.operate op).1.maxHistory = n.maxHistory := by
  cases op with
  | resolve ref => exact ⟨rfl, rfl⟩
  | enter index recorded =>
      unfold operate
      dsimp only
      split
      · exact ⟨rfl, rfl⟩
      · obtain ⟨history, place, henter⟩ := n.enter_eq index.toNat recorded
        rw [henter]
        exact ⟨rfl, rfl⟩
  | back =>
      obtain ⟨place, hback⟩ := Session.back_eq n
      unfold operate
      rw [hback]
      exact ⟨rfl, rfl⟩
  | forward =>
      obtain ⟨place, hforward⟩ := Session.forward_eq n
      unfold operate
      rw [hforward]
      exact ⟨rfl, rfl⟩
  | reset => exact ⟨rfl, rfl⟩
  | beginTransition =>
      unfold operate Navigation.beginTransition
      cases n.transitioning with
      | true => exact ⟨rfl, rfl⟩
      | false => exact ⟨rfl, rfl⟩
  | endTransition => exact ⟨rfl, rfl⟩
  | setEnabled scene hotspot enabled =>
      unfold operate
      dsimp only
      split
      · rename_i n' hset
        obtain ⟨disabled, rfl⟩ := Session.setEnabled_eq_ok hset
        exact ⟨rfl, rfl⟩
      · exact ⟨rfl, rfl⟩
  | restore state =>
      obtain ⟨history, place, current, disabled, transitioning, hrestore, -⟩ := n.restore_eq state
      unfold operate
      rw [hrestore]
      exact ⟨rfl, rfl⟩

/-- What is asked of a sound navigation leaves a sound one, unless it is to restore a state that is
wrong. -/
theorem Sound.operate (h : n.Sound) (hmax : 0 < n.maxHistory) {op : Operation}
    (hwell : ∀ state, op = .restore state → (n.restore state).2 = .ok ()) :
    (n.operate op).1.Sound := by
  cases op with
  | resolve ref => exact h
  | enter index recorded =>
      unfold Navigation.operate
      dsimp only
      split
      · exact h
      · rename_i scene hscene
        exact h.enter hmax (lt_of_scene_eq_ok hscene).2.1 recorded
  | back => exact h.back
  | forward => exact h.forward
  | reset => exact sound_fresh n.scenes n.maxHistory
  | beginTransition =>
      unfold Navigation.operate Navigation.beginTransition
      cases n.transitioning with
      | true => exact h
      | false => exact h.of_eq rfl rfl rfl rfl rfl
  | endTransition => exact h.of_eq rfl rfl rfl rfl rfl
  | setEnabled scene hotspot enabled =>
      unfold Navigation.operate
      dsimp only
      split
      · rename_i n' hset
        obtain ⟨disabled, rfl⟩ := Session.setEnabled_eq_ok hset
        exact h.of_eq rfl rfl rfl rfl rfl
      · exact h
  | restore state => exact sound_restore hmax (hwell state rfl)

/-- Whatever is asked, one thing after another, a sound navigation stays sound. -/
theorem Sound.after (h : n.Sound) (hmax : 0 < n.maxHistory) {ops : List Operation}
    (hwell : n.RestoresWell ops) :
    (n.after ops).Sound ∧ (n.after ops).scenes = n.scenes ∧
      (n.after ops).maxHistory = n.maxHistory := by
  induction ops generalizing n with
  | nil => exact ⟨h, rfl, rfl⟩
  | cons op ops ih =>
      obtain ⟨hfirst, hrest⟩ := hwell
      obtain ⟨hscenes, hbound⟩ := n.bounds_operate op
      obtain ⟨hsound, hscenes', hbound'⟩ :=
        ih (h.operate hmax hfirst) (by rw [hbound]; exact hmax) hrest
      exact ⟨hsound, hscenes'.trans hscenes, hbound'.trans hbound⟩

/-- In a sound navigation, what fails changes nothing, unless it is to restore a state that is
wrong. -/
theorem Sound.operate_eq_self (h : n.Sound) {op : Operation} {e : Fault}
    (hop : ∀ state, op ≠ .restore state) (hfails : (n.operate op).2 = .error e) :
    (n.operate op).1 = n := by
  cases op with
  | resolve ref => rfl
  | enter index recorded =>
      unfold Navigation.operate at hfails ⊢
      dsimp only at hfails ⊢
      split at hfails
      · rfl
      · nomatch hfails
  | back =>
      obtain ⟨target, htarget, -⟩ := h.back_eq_ok
      simp [Navigation.operate, htarget, Except.map] at hfails
  | forward =>
      obtain ⟨target, htarget, -⟩ := h.forward_eq_ok
      simp [Navigation.operate, htarget, Except.map] at hfails
  | reset => nomatch hfails
  | beginTransition =>
      unfold Navigation.operate at hfails
      dsimp only at hfails
      split at hfails <;> nomatch hfails
  | endTransition => nomatch hfails
  | setEnabled scene hotspot enabled =>
      unfold Navigation.operate at hfails ⊢
      dsimp only at hfails ⊢
      split at hfails
      · nomatch hfails
      · rfl
  | restore state => exact absurd rfl (hop state)

/-! ## The whole -/

/-- After whatever was asked of a fresh navigation, with no saved state among it that is wrong: the
history is as long as it may be at most, the place lies in it or before it, and its entries and the
scene shown are scenes of the project; going back and going forward never fail and give a scene of
the project or none; and what fails, a saved state apart, changes nothing at all. -/
theorem sound_after (scenes : List Scene) (maxHistory : Nat) (hmax : 1 ≤ maxHistory)
    (ops : List Operation) (hwell : RestoresWell { scenes, maxHistory } ops) :
    let n := after { scenes, maxHistory } ops
    n.scenes = scenes ∧ n.history.length ≤ maxHistory ∧
      (-1 ≤ n.placeIndex ∧ n.placeIndex < n.history.length) ∧
      (∀ i ∈ n.history, i < scenes.length) ∧
      (n.currentIndex = -1 ∨ 0 ≤ n.currentIndex ∧ n.currentIndex < scenes.length) ∧
      (∃ target, n.back.2 = .ok target ∧ ∀ i, target = some i → i < scenes.length) ∧
      (∃ target, n.forward.2 = .ok target ∧ ∀ i, target = some i → i < scenes.length) ∧
      ∀ op e, (∀ state, op ≠ .restore state) → (n.operate op).2 = .error e →
        (n.operate op).1 = n := by
  intro n
  obtain ⟨hsound, hscenes, hbound⟩ : n.Sound ∧ n.scenes = scenes ∧ n.maxHistory = maxHistory :=
    (sound_fresh scenes maxHistory).after hmax hwell
  have hplace : -1 ≤ n.placeIndex ∧ n.placeIndex < n.history.length := by
    unfold placeIndex
    cases hp : n.place with
    | none =>
        dsimp only
        omega
    | some p =>
        have hlt : p < n.history.length := hsound.place p hp
        dsimp only
        omega
  have hcurrent : n.currentIndex = -1 ∨ 0 ≤ n.currentIndex ∧ n.currentIndex < scenes.length := by
    unfold currentIndex
    cases hi : n.current with
    | none => exact Or.inl rfl
    | some i =>
        have hlt : i < n.scenes.length := hsound.current i hi
        rw [hscenes] at hlt
        refine Or.inr ?_
        dsimp only at hlt ⊢
        omega
  refine ⟨hscenes, ?_, hplace, ?_, hcurrent, ?_, ?_, ?_⟩
  · exact hbound ▸ hsound.length
  · exact hscenes ▸ hsound.entries
  · exact hscenes ▸ hsound.back_eq_ok
  · exact hscenes ▸ hsound.forward_eq_ok
  · intro op e hop hfails
    exact hsound.operate_eq_self hop hfails

/-- Two scenes are shown and a third that is not there is asked for. Then a state is restored with
too long a history and a place beyond it. -/
theorem sound_after_restored :
    let ops : List Operation := [.enter 0 true, .enter 1 true, .enter 2 true, .back,
      .restore (.object [
        ("navigation_history", .list [.int 1, .int 7, .int 0, .int 1, .int 1]),
        ("history_position", .int 9),
        ("current_scene_index", .int 1)]),
      .enter 0 true]
    let n := after { scenes := [{ index := 0 }, { index := 1 }], maxHistory := 3 } ops
    n.history = [1, 1, 0] ∧ n.history.length ≤ 3 ∧
      ∃ target, n.back.2 = .ok target ∧ ∀ i, target = some i → i < 2 := by
  intro ops n
  have hwell :
      RestoresWell { scenes := [{ index := 0 }, { index := 1 }], maxHistory := 3 } ops := by
    refine ⟨nofun, nofun, nofun, nofun, ?_, nofun, trivial⟩
    rintro state ⟨⟩
    rfl
  obtain ⟨-, hlength, -, -, -, hback, -⟩ := sound_after _ 3 (by decide) ops hwell
  exact ⟨rfl, hlength, hback⟩

end Navigation

end PointAndClick
