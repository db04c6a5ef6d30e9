import PointAndClick.Proofs.Navigation.Rejection

/-!
# The entry at the saved place

Of a saved history the entries that are no scenes of the project are left out, and of the others the
last ones stay, as many as a history may have (`Navigation.staying`). The saved place is a place
among all saved entries. It is only moved into the new history, and so it names the entry that it
named if no entry before that one is left out, or if no entry behind it stays, and not otherwise
(`Navigation.restored_occurrence`).
-/

set_option autoImplicit false

namespace PointAndClick

namespace Navigation

/-! ## Entries that stay -/

/-- A saved entry is the index of one of `count` scenes. -/
def isScene (count : Nat) (entry : Int) : Bool := 0 ≤ entry ∧ entry < count

/-- The saved entry at a place stays in a history: it is a scene, and fewer than `maxHistory` scenes
are behind it. -/
def stays (count maxHistory : Nat) (entries : List Int) (i : Nat) : Bool :=
  entries[i]?.any (isScene count) && (entries.drop (i + 1)).countP (isScene count) < maxHistory

/-- The places of the saved entries that stay, in order. -/
def staying (count maxHistory : Nat) (entries : List Int) : List Nat :=
  (List.range entries.length).filter (stays count maxHistory entries)

/-- The scene of the saved entry at a place. -/
def sceneAt (entries : List Int) (i : Nat) : Nat := (entries.getD i 0).toNat

variable {count maxHistory p : Nat} {entry : Int} {entries : List Int}

theorem mem_staying {i : Nat} :
    i ∈ staying count maxHistory entries ↔ stays count maxHistory entries i = true := by
  rw [staying, List.mem_filter, List.mem_range, and_iff_right_iff_imp]
  intro h
  by_contra hout
  have hnone : entries[i]? = none := List.getElem?_eq_none (by omega)
  simp [stays, hnone] at h

/-- Whether an entry stays depends on those behind it only. -/
theorem staying_cons :
    staying count maxHistory (entry :: entries) =
      if isScene count entry ∧ entries.countP (isScene count) < maxHistory then
        0 :: (staying count maxHistory entries).map (· + 1)
      else (staying count maxHistory entries).map (· + 1) := by
  have hrest : ((List.range entries.length).map Nat.succ).filter
      (stays count maxHistory (entry :: entries)) =
        (staying count maxHistory entries).map (· + 1) := by
    rw [List.filter_map]
    rfl
  have hfirst : stays count maxHistory (entry :: entries) 0 =
      (isScene count entry ∧ entries.countP (isScene count) < maxHistory : Bool) := by
    simp [stays]
  rw [staying, List.length_cons, List.range_succ_eq_map, List.filter_cons, hrest, hfirst]
  simp only [decide_eq_true_eq]

/-- The new history has the scenes of the entries that stay. -/
theorem cutHistory_eq (hmax : 1 ≤ maxHistory) :
    cutHistory maxHistory ((entries.filter (isScene count)).map Int.toNat) =
      (staying count maxHistory entries).map (sceneAt entries) := by
  have hcut (history : List Nat) :
      cutHistory maxHistory history = history.drop (history.length - maxHistory) :=
    if_neg (by omega)
  induction entries with
  | nil => simp [hcut, staying]
  | cons entry entries ih =>
      have hmap : ((staying count maxHistory entries).map (· + 1)).map
          (sceneAt (entry :: entries)) =
            (staying count maxHistory entries).map (sceneAt entries) := by
        rw [List.map_map]
        rfl
      rw [hcut, List.length_map, ← List.countP_eq_length_filter] at ih ⊢
      rw [staying_cons]
      by_cases hscene : isScene count entry = true
      · rw [List.filter_cons_of_pos hscene, List.countP_cons_of_pos hscene, List.map_cons]
        by_cases hfew : entries.countP (isScene count) < maxHistory
        -- nothing is cut off yet, so the first entry stays
        · rw [if_pos ⟨hscene, hfew⟩, Nat.sub_eq_zero_of_le hfew, List.drop_zero, List.map_cons,
            hmap, ← ih, Nat.sub_eq_zero_of_le (Nat.le_of_lt hfew), List.drop_zero]
          rfl
        · rw [if_neg (fun h => hfew h.2), Nat.succ_sub (Nat.not_lt.mp hfew), List.drop_succ_cons,
            ih, hmap]
      · rw [List.filter_cons_of_neg hscene, List.countP_cons_of_neg hscene,
          if_neg (fun h => hscene h.1), ih, hmap]

/-! ## The place of an entry that stays -/

/-- The places of the entries that stay before one that stays, and of those behind it. -/
theorem exists_staying_eq (hp : p ∈ staying count maxHistory entries) :
    ∃ behind, staying count maxHistory entries =
        (List.range p).filter (stays count maxHistory entries) ++ p :: behind ∧
      ∀ i, i ∈ behind ↔ p < i ∧ i ∈ staying count maxHistory entries := by
  have hstays := mem_staying.mp hp
  have hlt : p < entries.length := List.mem_range.mp (List.mem_filter.mp hp).1
  have hrange : List.range entries.length =
      List.range p ++ p :: List.range' (p + 1) (entries.length - p - 1) := by
    have hsplit : entries.length = p + ((entries.length - p - 1) + 1) := by omega
    rw [hsplit, List.range_eq_range', List.range_eq_range', ← List.range'_append_1,
      List.range'_succ]
    simp
  refine ⟨(List.range' (p + 1) (entries.length - p - 1)).filter (stays count maxHistory entries),
    ?_, fun i => ?_⟩
  · rw [staying, hrange, List.filter_append, List.filter_cons_of_pos hstays]
  · simp only [staying, List.mem_filter, List.mem_range'_1, List.mem_range]
    constructor
    · rintro ⟨hrange, hi⟩
      exact ⟨by omega, by omega, hi⟩
    · rintro ⟨hbehind, hi, hi'⟩
      exact ⟨by omega, hi'⟩

/-- An entry that stays has one place in the new history: as many entries stay before it. -/
theorem staying_getElem?_eq_iff (hp : p ∈ staying count maxHistory entries) {q : Nat} :
    (staying count maxHistory entries)[q]? = some p ↔
      q = (List.range p).countP (stays count maxHistory entries) := by
  obtain ⟨behind, heq, -⟩ := exists_staying_eq hp
  have hnodup : (staying count maxHistory entries).Nodup := List.nodup_range.filter _
  have hself : (staying count maxHistory entries)[
      (List.range p).countP (stays count maxHistory entries)]? = some p := by
    rw [heq, List.countP_eq_length_filter]
    simp
  constructor
  · intro hq
    have hlt : q < (staying count maxHistory entries).length := (List.getElem?_eq_some_iff.mp hq).1
    exact (List.getElem?_inj hlt hnodup).mp (hq.trans hself.symm)
  · rintro rfl
    exact hself

/-- A place that is moved into the new history meets an entry that stays if no entry before it is
left out, or if it is the last one that stays. -/
theorem staying_min_eq_iff (hp : p ∈ staying count maxHistory entries) :
    (staying count maxHistory entries)[min p ((staying count maxHistory entries).length - 1)]? =
        some p ↔
      (∀ i < p, i ∈ staying count maxHistory entries) ∨
        ∀ i ∈ staying count maxHistory entries, i ≤ p := by
  obtain ⟨behind, heq, hbehind⟩ := exists_staying_eq hp
  have hlength := congrArg List.length heq
  rw [List.length_append, List.length_cons, ← List.countP_eq_length_filter] at hlength
  have hle : (List.range p).countP (stays count maxHistory entries) ≤ p := by
    simpa using List.countP_le_length (p := stays count maxHistory entries) (l := List.range p)
  have hbefore : (List.range p).countP (stays count maxHistory entries) = p ↔
      ∀ i < p, i ∈ staying count maxHistory entries := by
    have hall := List.countP_eq_length (p := stays count maxHistory entries) (l := List.range p)
    simpa [mem_staying] using hall
  have hlast : behind.length = 0 ↔ ∀ i ∈ staying count maxHistory entries, i ≤ p := by
    rw [List.length_eq_zero_iff, List.eq_nil_iff_forall_not_mem]
    constructor
    · intro hnone i hi
      by_contra hlt
      exact hnone i ((hbehind i).mpr ⟨by omega, hi⟩)
    · intro hle i hi
      obtain ⟨hlt, hstays⟩ := (hbehind i).mp hi
      exact absurd (hle i hstays) (by omega)
  rw [staying_getElem?_eq_iff hp, ← hbefore, ← hlast, hlength]
  omega

/-! ## What is taken from a saved state -/

variable {n : Navigation} {state : Json}

/-- The history and the place of a saved state are taken from it, whatever else it holds. -/
theorem restore_taken {history : List Nat} {place : Int}
    (hhistory : n.takenHistory state = .ok history)
    (hplace : takenPlace history state = .ok place) :
    (n.restore state).1.history = history ∧
      (n.restore state).1.place = savedPlace history place := by
  unfold takenHistory at hhistory
  unfold takenPlace at hplace
  unfold Navigation.restore
  dsimp only
  split
  · rename_i e hsaved
    rw [hsaved] at hhistory
    nomatch hhistory
  · rename_i saved hsaved
    rw [hsaved] at hhistory
    cases hhistory
    rw [hplace]
    dsimp only
    split
    · exact ⟨rfl, rfl⟩
    · split
      · exact ⟨rfl, rfl⟩
      · rename_i index hindex fields hfields
        split <;> rename_i restored hflags <;>
          obtain ⟨disabled, hdisabled⟩ := disableSaved_eq _ fields <;>
          rw [hflags] at hdisabled <;>
          dsimp only at hdisabled ⊢ <;>
          rw [hdisabled] <;>
          exact ⟨rfl, rfl⟩

theorem mapM_savedInt_int (entries : List Int) :
    (entries.map Json.int).mapM Json.savedInt = .ok entries := by
  induction entries with
  | nil => rfl
  | cons entry entries ih =>
      rw [List.map_cons, List.mapM_cons, ih]
      rfl

/-- Of a saved list of numbers those that are scenes are taken, and of these the last ones. -/
theorem takenHistory_eq (hmax : 1 ≤ n.maxHistory)
    (h : state.field? "navigation_history" = some (Json.listOf .int entries)) :
    n.takenHistory state =
      .ok ((staying n.scenes.length n.maxHistory entries).map (sceneAt entries)) := by
  cases state with
  | object fields =>
      have hlookup : fields.lookup "navigation_history" = some (Json.listOf .int entries) := h
      have hsaved : savedHistory n.scenes.length (entries.map Json.int) =
          .ok ((entries.filter (isScene n.scenes.length)).map Int.toNat) := by
        unfold savedHistory
        rw [mapM_savedInt_int]
        rfl
      rw [← cutHistory_eq hmax]
      show Except.map _ (savedHistory n.scenes.length =<<
        ((fields.lookup "navigation_history").getD (.list [])).savedItems) = _
      rw [hlookup]
      show Except.map _ (savedHistory n.scenes.length (entries.map Json.int)) = _
      rw [hsaved]
      rfl
  | null | bool | int | real | text | list => nomatch h

/-- A place that is not negative is moved into a history that is not empty. -/
theorem savedPlace_natCast {history : List Nat} (hne : history ≠ []) (p : Nat) :
    savedPlace history p = some (min p (history.length - 1)) := by
  have hpos : 0 < history.length := List.length_pos_iff.mpr hne
  have hmoved : max (-1) (min (p : Int) ((history.length : Int) - 1)) =
      (min p (history.length - 1) : Nat) := by omega
  unfold savedPlace
  dsimp only
  rw [hmoved, if_neg (by omega), Int.toNat_natCast]

/-! ## The saved place -/

/-- Of a saved history of numbers the entries that stay make up the history of the navigation, also
if the saved state is wrong otherwise. A saved place that names one of them is moved into this
history. It is then the place of the entry that it named if no entry before that one is left out, or
if no entry behind it stays, and the place of another entry if neither is so. -/
theorem restored_occurrence (hmax : 1 ≤ n.maxHistory)
    (hentries : state.field? "navigation_history" = some (Json.listOf .int entries))
    (hplace : state.field? "history_position" = some (.int p))
    (hp : p ∈ staying n.scenes.length n.maxHistory entries) :
    let kept := staying n.scenes.length n.maxHistory entries
    let moved := min p (kept.length - 1)
    let n' := (n.restore state).1
    n'.history = kept.map (sceneAt entries) ∧ n'.place = some moved ∧ moved < kept.length ∧
      (kept[moved]? = some p ↔ (∀ i < p, i ∈ kept) ∨ ∀ i ∈ kept, i ≤ p) := by
  intro kept moved n'
  have hne : kept.map (sceneAt entries) ≠ [] := by
    rw [ne_eq, List.map_eq_nil_iff]
    exact List.ne_nil_of_mem hp
  have htaken : takenPlace (kept.map (sceneAt entries)) state = .ok p := by
    rw [takenPlace, hplace]
    rfl
  obtain ⟨hhistory, hmoved⟩ := restore_taken (takenHistory_eq hmax hentries) htaken
  rw [savedPlace_natCast hne, List.length_map] at hmoved
  have hpos : 0 < kept.length := List.length_pos_iff.mpr (List.ne_nil_of_mem hp)
  exact ⟨hhistory, hmoved, by omega, staying_min_eq_iff hp⟩

/-- Two scenes and a history of three entries at most. Of five saved entries the first is no scene
and the second is cut off, so that the place of the third becomes that of the fifth. -/
theorem restored_occurrence_moved :
    let n : Navigation := { scenes := [{ index := 0 }, { index := 1 }], maxHistory := 3 }
    let entries : List Int := [7, 0, 1, 0, 1]
    let state := Json.object [
      ("navigation_history", Json.listOf .int entries), ("history_position", .int 2),
      ("current_scene_index", .text "x")]
    let kept := staying 2 3 entries
    kept = [2, 3, 4] ∧ (n.restore state).1.history = [1, 0, 1] ∧
      (n.restore state).1.place = some 2 ∧ kept[2]? ≠ some 2 := by
  intro n entries state kept
  have hkept : kept = [2, 3, 4] := by decide
  have hmem : 2 ∈ kept := by decide
  have hentries : state.field? "navigation_history" = some (Json.listOf .int entries) := rfl
  have hposition : state.field? "history_position" = some (.int 2) := rfl
  obtain ⟨hhistory, hplace, -, hiff⟩ :=
    restored_occurrence (n := n) (p := 2) (by decide) hentries hposition hmem
  refine ⟨hkept, hhistory, hplace, fun hsame => ?_⟩
  -- the first entry is left out, and the last one stays
  rcases hiff.mp hsame with hbefore | hlast
  · exact absurd (hbefore 0 (by decide)) (by decide)
  · exact absurd (hlast 4 (by decide)) (by decide)

/-- Not every saved place of an entry that stays is left at the place of that entry. -/
theorem not_forall_restored_occurrence :
    ¬∀ (n : Navigation) (state : Json) (entries : List Int) (p : Nat), 1 ≤ n.maxHistory →
      state.field? "navigation_history" = some (Json.listOf .int entries) →
        state.field? "history_position" = some (.int p) →
          p ∈ staying n.scenes.length n.maxHistory entries →
            ∃ q, (n.restore state).1.place = some q ∧
              (staying n.scenes.length n.maxHistory entries)[q]? = some p := by
  intro hall
  -- the second entry is the first one that stays, and the place becomes that of the third
  obtain ⟨q, hplace, hkept⟩ := hall { scenes := [{ index := 0 }, { index := 1 }] }
    (.object [("navigation_history", Json.listOf .int [9, 0, 1]), ("history_position", .int 1)])
    [9, 0, 1] 1 (by decide) rfl rfl (by decide)
  have hq : some 1 = some q := hplace
  cases hq
  exact absurd hkept (by decide)

end Navigation

end PointAndClick
