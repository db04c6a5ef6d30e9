import PointAndClick.Proofs.Navigation.Soundness
import PointAndClick.Proofs.Text.Numeral

/-!
# A saved navigation is restored

Of a navigation the scene shown, the history, the place in it and the hotspots that are switched
off are saved, these under texts made of two numbers. A sound navigation whose hotspots are listed
in order (`Navigation.Listed`) is restored from what was saved of it (`Sound.restore_saveFields`),
and so is every navigation that comes about (`Navigation.restore_after`).
-/

set_option autoImplicit false

namespace PointAndClick

namespace Navigation

variable {n : Navigation} {k l : Int × Int} {keys : List (Int × Int)}

/-! ## The order of hotspots -/

theorem keyBefore_iff : keyBefore k l = true ↔ k.1 < l.1 ∨ k.1 = l.1 ∧ k.2 < l.2 := by
  simp [keyBefore]

theorem keyBefore_trans {m : Int × Int} (h : keyBefore k l = true) (h' : keyBefore l m = true) :
    keyBefore k m = true := by
  rw [keyBefore_iff] at h h' ⊢
  omega

theorem keyBefore_of_not (hne : l ≠ k) (h : ¬keyBefore k l = true) : keyBefore l k = true := by
  rw [keyBefore_iff] at h ⊢
  have hparts : ¬(l.1 = k.1 ∧ l.2 = k.2) := fun hparts => hne (Prod.ext hparts.1 hparts.2)
  omega

theorem not_keyBefore_of_keyBefore (h : keyBefore l k = true) : l ≠ k ∧ ¬keyBefore k l = true := by
  rw [keyBefore_iff] at h ⊢
  constructor
  · rintro rfl
    omega
  · omega

theorem mem_insertKey (h : l ∈ insertKey k keys) : l = k ∨ l ∈ keys := by
  fun_induction insertKey k keys with
  | case1 => exact Or.inl (List.mem_singleton.mp h)
  | case2 rest => exact Or.inr h
  | case3 m rest hne hbefore => exact List.mem_cons.mp h
  | case4 m rest hne hbefore ih =>
      rcases List.mem_cons.mp h with rfl | hrest
      · exact Or.inr List.mem_cons_self
      · exact (ih hrest).imp id (List.mem_cons_of_mem m)

/-- Behind those before it a hotspot is the last. -/
theorem insertKey_of_before (h : ∀ l ∈ keys, keyBefore l k = true) :
    insertKey k keys = keys ++ [k] := by
  induction keys with
  | nil => rfl
  | cons l keys ih =>
      obtain ⟨hne, hnot⟩ := not_keyBefore_of_keyBefore (h l List.mem_cons_self)
      rw [insertKey, if_neg hne, if_neg hnot, ih fun m hm => h m (List.mem_cons_of_mem l hm)]
      rfl

/-! ## Hotspots in a list -/

/-- A hotspot can be written as text and read again: its two numbers do not have more digits than
a number may have. -/
def IsWritable (k : Int × Int) : Prop :=
  k.1.natAbs < 10 ^ Text.maxDigits ∧ k.2.natAbs < 10 ^ Text.maxDigits

/-- The hotspots are in order, each once, and each can be written. -/
structure Listed (keys : List (Int × Int)) : Prop where
  inOrder : keys.Pairwise fun k l => keyBefore k l = true
  writable : ∀ k ∈ keys, IsWritable k

theorem listed_nil : Listed [] := ⟨List.Pairwise.nil, nofun⟩

theorem pairwise_insertKey (h : keys.Pairwise fun k l => keyBefore k l = true) :
    (insertKey k keys).Pairwise fun k l => keyBefore k l = true := by
  fun_induction insertKey k keys with
  | case1 => exact List.pairwise_singleton _ _
  | case2 rest => exact h
  | case3 l rest hne hbefore =>
      refine List.pairwise_cons.mpr ⟨?_, h⟩
      intro m hm
      rcases List.mem_cons.mp hm with rfl | hrest
      · exact hbefore
      · exact keyBefore_trans hbefore ((List.pairwise_cons.mp h).1 m hrest)
  | case4 l rest hne hnot ih =>
      obtain ⟨hfirst, hrest⟩ := List.pairwise_cons.mp h
      refine List.pairwise_cons.mpr ⟨?_, ih hrest⟩
      intro m hm
      rcases mem_insertKey hm with rfl | hold
      · exact keyBefore_of_not hne hnot
      · exact hfirst m hold

theorem Listed.insertKey (h : Listed keys) (hk : IsWritable k) :
    Listed (Navigation.insertKey k keys) := by
  refine ⟨pairwise_insertKey h.inOrder, ?_⟩
  intro l hl
  rcases mem_insertKey hl with rfl | hold
  · exact hk
  · exact h.writable l hold

theorem Listed.filter (h : Listed keys) (p : Int × Int → Bool) : Listed (keys.filter p) :=
  ⟨h.inOrder.filter p, fun k hk => h.writable k (List.mem_of_mem_filter hk)⟩

/-- What a saved text names can be written. -/
theorem isWritable_of_savedKey {text : String} (h : savedKey text = .ok k) : IsWritable k := by
  have hread : ∀ (s : String) (i : Int), (Json.text s).savedInt = .ok i →
      i.natAbs < 10 ^ Text.maxDigits := by
    intro s i hi
    unfold Json.savedInt at hi
    dsimp only at hi
    split at hi
    · rename_i j hj
      cases hi
      exact Text.natAbs_lt_of_savedInteger? hj
    · nomatch hi
  unfold savedKey at h
  dsimp only [bind, Except.bind] at h
  split at h
  · nomatch h
  · rename_i scene hscene
    split at h
    · nomatch h
    · rename_i hotspot hhotspot
      cases h
      exact ⟨hread _ _ hscene, hread _ _ hhotspot⟩

theorem Listed.disableSaved (h : Listed n.disabled) (fields : List (String × Json)) :
    Listed (n.disableSaved fields).1.disabled := by
  induction fields generalizing n with
  | nil => exact h
  | cons field fields ih =>
      obtain ⟨text, enabled⟩ := field
      unfold Navigation.disableSaved
      split
      · exact ih h
      · split
        · exact h
        · rename_i k hk
          exact ih (h.insertKey (isWritable_of_savedKey hk))

/-- Whatever a saved state holds, the hotspots stay listed. -/
theorem Listed.restore (h : Listed n.disabled) (state : Json) :
    Listed (n.restore state).1.disabled := by
  unfold Navigation.restore
  dsimp only
  split
  · exact h
  · split
    · exact h
    · split
      · exact h
      · split
        · exact listed_nil
        · split <;> rename_i hsaved <;>
            have hdisabled := congrArg (fun r => r.1.disabled) hsaved <;>
            exact hdisabled ▸ Listed.disableSaved listed_nil _

/-! ## Hotspots of a project -/

/-- Every hotspot of the scenes can be written. -/
def WritableHotspots (scenes : List Scene) : Prop :=
  ∀ (i : Nat) (s : Scene), scenes[i]? = some s → ∀ h ∈ s.hotspots, IsWritable (i, h.id)

/-- Only a hotspot that is there is switched on or off. -/
theorem of_setEnabled_eq_ok {n' : Navigation} {scene hotspot : Int} {enabled : Bool}
    (h : n.setEnabled scene hotspot enabled = .ok n') :
    (∃ (i : Nat) (s : Scene), n.scenes[i]? = some s ∧
      ∃ spot ∈ s.hotspots, scene = i ∧ hotspot = spot.id) ∧
    n' = { n with
      disabled := if enabled then n.disabled.filter (· ≠ (scene, hotspot))
        else Navigation.insertKey (scene, hotspot) n.disabled } := by
  unfold setEnabled at h
  cases hscene : n.scene scene with
  | error e =>
      rw [hscene] at h
      nomatch h
  | ok s =>
      rw [hscene] at h
      dsimp only [bind, Except.bind] at h
      split at h
      · rename_i hthere
        cases h
        obtain ⟨hnonneg, -, hs⟩ := lt_of_scene_eq_ok hscene
        obtain ⟨spot, hspot, hid⟩ := List.any_eq_true.mp hthere
        exact ⟨⟨scene.toNat, s, hs, spot, hspot, (Int.toNat_of_nonneg hnonneg).symm,
          (of_decide_eq_true hid).symm⟩, rfl⟩
      · nomatch h

theorem Listed.setEnabled {n' : Navigation} {scene hotspot : Int} {enabled : Bool}
    (h : Listed n.disabled) (hwritable : WritableHotspots n.scenes)
    (hset : n.setEnabled scene hotspot enabled = .ok n') : Listed n'.disabled := by
  obtain ⟨⟨i, s, hs, spot, hspot, rfl, rfl⟩, rfl⟩ := of_setEnabled_eq_ok hset
  cases enabled with
  | true => exact h.filter _
  | false => exact h.insertKey (hwritable i s hs spot hspot)

theorem Listed.operate (h : Listed n.disabled) (hwritable : WritableHotspots n.scenes)
    (op : Operation) : Listed (n.operate op).1.disabled := by
  cases op with
  | resolve ref => exact h
  | enter index recorded =>
      simp only [Navigation.operate]
      split
      · exact h
      · obtain ⟨history, place, henter⟩ := n.enter_eq index.toNat recorded
        rw [henter]
        exact h
  | back =>
      obtain ⟨place, hback⟩ := Session.back_eq n
      simp only [Navigation.operate, hback]
      exact h
  | forward =>
      obtain ⟨place, hforward⟩ := Session.forward_eq n
      simp only [Navigation.operate, hforward]
      exact h
  | reset => exact listed_nil
  | beginTransition =>
      simp only [Navigation.operate, Navigation.beginTransition]
      cases n.transitioning with
      | true => exact h
      | false => exact h
  | endTransition => exact h
  | setEnabled scene hotspot enabled =>
      simp only [Navigation.operate]
      split
      · rename_i n' hset
        exact h.setEnabled hwritable hset
      · exact h
  | restore state => exact h.restore state

theorem Listed.after (h : Listed n.disabled) (hwritable : WritableHotspots n.scenes)
    (ops : List Operation) : Listed (n.after ops).disabled := by
  induction ops generalizing n with
  | nil => exact h
  | cons op ops ih =>
      have hscenes : (n.operate op).1.scenes = n.scenes := (n.bounds_operate op).1
      exact ih (h.operate hwritable op) (hscenes ▸ hwritable)

/-! ## What is saved is restored -/

/-- A text is split at the first of its characters that is the given one. -/
theorem split_at_first {cs : List Char} {d : Char} (h : ∀ c ∈ cs, c ≠ d) (ds : List Char) :
    (cs ++ d :: ds).takeWhile (· ≠ d) = cs ∧ (cs ++ d :: ds).dropWhile (· ≠ d) = d :: ds := by
  have hbefore : ∀ c ∈ cs, decide (c ≠ d) = true := fun c hc => decide_eq_true (h c hc)
  constructor
  · rw [List.takeWhile_append_of_pos hbefore]
    simp
  · rw [List.dropWhile_append_of_pos hbefore]
    simp

/-- A number written as text is read as it was. -/
theorem savedInt_decimal {i : Int} (h : i.natAbs < 10 ^ Text.maxDigits) :
    (Json.text (String.ofList (Text.writeNumeral i))).savedInt = .ok i := by
  show (Json.text (Text.decimal i)).savedInt = .ok i
  simp [Json.savedInt, Text.savedInteger?_decimal h]

/-- The text of a hotspot names it. -/
theorem savedKey_of_isWritable (h : IsWritable k) :
    savedKey s!"{Text.decimal k.1}:{Text.decimal k.2}" = .ok k := by
  have htext : (s!"{Text.decimal k.1}:{Text.decimal k.2}").toList =
      Text.writeNumeral k.1 ++ ':' :: Text.writeNumeral k.2 := by
    simp [Text.decimal, toString]
  have hplain : ∀ c ∈ Text.writeNumeral k.1, c ≠ ':' := by
    intro c hc
    rcases Text.eq_minus_or_isDigit_of_mem_writeNumeral hc with rfl | hdigit
    · decide
    · exact Text.ne_of_isDigit hdigit rfl
  obtain ⟨hscene, hhotspot⟩ := split_at_first hplain (Text.writeNumeral k.2)
  unfold savedKey
  dsimp only
  rw [htext, hscene, hhotspot, List.drop_one, List.tail_cons, savedInt_decimal h.1,
    savedInt_decimal h.2]
  rfl

/-- Saved hotspots are switched off one behind the other. -/
theorem disableSaved_append (n : Navigation) (h : Listed (n.disabled ++ keys)) :
    n.disableSaved (keys.map fun k =>
      (s!"{Text.decimal k.1}:{Text.decimal k.2}", Json.bool false)) =
      ({ n with disabled := n.disabled ++ keys }, .ok ()) := by
  induction keys generalizing n with
  | nil => simp [disableSaved]
  | cons k keys ih =>
      have hk : IsWritable k := h.writable k (by simp)
      have hbefore : ∀ l ∈ n.disabled, keyBefore l k = true := by
        intro l hl
        exact (List.pairwise_append.mp h.inOrder).2.2 l hl k List.mem_cons_self
      have hgrown : n.disabled ++ k :: keys = n.disabled ++ [k] ++ keys := by simp
      rw [hgrown] at h ⊢
      rw [List.map_cons, disableSaved, savedKey_of_isWritable hk]
      dsimp only [Json.isSet]
      rw [insertKey_of_before hbefore]
      exact ih { n with disabled := n.disabled ++ [k] } h

theorem disableSaved_saved (h : Listed keys) (hnone : n.disabled = []) :
    n.disableSaved (keys.map fun k =>
      (s!"{Text.decimal k.1}:{Text.decimal k.2}", Json.bool false)) =
      ({ n with disabled := keys }, .ok ()) := by
  have hlisted : Listed (n.disabled ++ keys) := by
    rw [hnone]
    exact h
  rw [disableSaved_append n hlisted, hnone]
  rfl

theorem mapM_savedInt (history : List Nat) :
    (history.map fun (i : Nat) => Json.int i).mapM Json.savedInt = .ok (history.map Int.ofNat) := by
  induction history with
  | nil => rfl
  | cons i history ih =>
      rw [List.map_cons, List.mapM_cons, ih]
      rfl

/-- Entries that are scenes of the project stay. -/
theorem savedHistory_saved {count : Nat} {history : List Nat} (h : ∀ i ∈ history, i < count) :
    savedHistory count (history.map fun (i : Nat) => Json.int i) = .ok history := by
  have hfilter : (history.map Int.ofNat).filter (fun (i : Int) => 0 ≤ i ∧ i < count) =
      history.map Int.ofNat := by
    refine List.filter_eq_self.mpr ?_
    intro i hi
    obtain ⟨j, hj, rfl⟩ := List.mem_map.mp hi
    have hlt : j < count := h j hj
    simp [hlt]
  unfold savedHistory
  rw [mapM_savedInt]
  show Except.ok
    (((history.map Int.ofNat).filter fun (i : Int) => 0 ≤ i ∧ i < count).map Int.toNat) = _
  have hback : Int.toNat ∘ Int.ofNat = id := rfl
  rw [hfilter, List.map_map, hback, List.map_id]

theorem cutHistory_eq_self {maxHistory : Nat} {history : List Nat}
    (h : history.length ≤ maxHistory) : cutHistory maxHistory history = history := by
  unfold cutHistory
  split
  · rfl
  · rw [Nat.sub_eq_zero_of_le h, List.drop_zero]

/-- A place in the history is not moved. -/
theorem Sound.savedPlace_placeIndex (h : n.Sound) :
    savedPlace n.history n.placeIndex = n.place := by
  unfold savedPlace placeIndex
  cases hplace : n.place with
  | none =>
      have hindex : max (-1) (min (-1) ((n.history.length : Int) - 1)) = -1 := by omega
      dsimp only
      rw [hindex]
      rfl
  | some p =>
      have hp : p < n.history.length := h.place p hplace
      have hindex : max (-1) (min (p : Int) ((n.history.length : Int) - 1)) = p := by omega
      dsimp only
      rw [hindex, if_neg (by omega), Int.toNat_natCast]

/-- A scene that is shown is shown again. -/
theorem Sound.saved_current (h : n.Sound) :
    (if 0 ≤ n.currentIndex ∧ n.currentIndex < n.scenes.length then some n.currentIndex.toNat
      else none) = n.current := by
  unfold currentIndex
  cases hcurrent : n.current with
  | none => rfl
  | some i =>
      have hi : i < n.scenes.length := h.current i hcurrent
      dsimp only
      rw [if_pos (by omega), Int.toNat_natCast]

/-- The fields of a saved state tell where a navigation was: the scene shown and the history. -/
structure Locates (fields : List (String × Json)) (n : Navigation) : Prop where
  history : fields.lookup "navigation_history" =
    some (Json.listOf (fun (i : Nat) => .int i) n.history)
  place : fields.lookup "history_position" = some (.int n.placeIndex)
  current : fields.lookup "current_scene_index" = some (.int n.currentIndex)

theorem locates_saveFields (n : Navigation) : Locates n.saveFields n := ⟨rfl, rfl, rfl⟩

/-- A saved state leads to where a sound navigation was, whatever was before; then the hotspots are
switched off. -/
theorem Sound.restore_of_locates {m : Navigation} {fields : List (String × Json)} (h : n.Sound)
    (hfields : Locates fields n) (hscenes : m.scenes = n.scenes)
    (hmax : m.maxHistory = n.maxHistory) :
    m.restore (.object fields) =
      match ((fields.lookup "hotspot_enabled_flags").getD (.object [])).savedFields with
      | .error e => ({ n with disabled := [], transitioning := m.transitioning }, .error e)
      | .ok flags =>
          match disableSaved { n with disabled := [], transitioning := m.transitioning } flags with
          | (restored, .error e) => (restored, .error e)
          | (restored, .ok ()) => ({ restored with transitioning := false }, .ok ()) := by
  have hsaved : (do
      let fields ← (Json.object fields).savedFields
      savedHistory m.scenes.length
        (← ((fields.lookup "navigation_history").getD (.list [])).savedItems)) =
      (.ok n.history : Except Fault (List Nat)) := by
    show savedHistory m.scenes.length =<<
      ((fields.lookup "navigation_history").getD (.list [])).savedItems = _
    rw [hfields.history, hscenes]
    exact savedHistory_saved h.entries
  have hcut : cutHistory m.maxHistory n.history = n.history := by
    rw [hmax]
    exact cutHistory_eq_self h.length
  have hplace : ((Json.object fields).field? "history_position").getD
      (.int (n.history.length - 1 : Int)) = .int n.placeIndex :=
    congrArg (Option.getD · _) hfields.place
  have hcurrent : ((Json.object fields).field? "current_scene_index").getD (.int (-1)) =
      .int n.currentIndex := congrArg (Option.getD · _) hfields.current
  unfold Navigation.restore
  dsimp only
  rw [hsaved]
  dsimp only
  rw [hcut, hplace, hcurrent]
  dsimp only [Json.savedInt]
  rw [h.savedPlace_placeIndex, hscenes, h.saved_current, hmax]
  rfl

/-- Whether its hotspots can be read or not, a saved state leads to where a sound navigation was. -/
theorem Sound.restore_eq_of_locates {m : Navigation} {fields : List (String × Json)} (h : n.Sound)
    (hfields : Locates fields n) (hscenes : m.scenes = n.scenes)
    (hmax : m.maxHistory = n.maxHistory) :
    ∃ disabled transitioning,
      (m.restore (.object fields)).1 = { n with disabled, transitioning } := by
  rw [h.restore_of_locates hfields hscenes hmax]
  split
  · exact ⟨_, _, rfl⟩
  · rename_i flags _
    obtain ⟨disabled, hdisabled⟩ :=
      disableSaved_eq { n with disabled := [], transitioning := m.transitioning } flags
    split <;> rename_i hflags <;> rw [hflags] at hdisabled <;> dsimp only at hdisabled ⊢ <;>
      rw [hdisabled] <;> exact ⟨_, _, rfl⟩

/-- What was saved of a sound navigation restores all of it, whatever was before. Only a change of
scene is not under way any more. -/
theorem Sound.restore_saveFields {m : Navigation} (h : n.Sound) (hlisted : Listed n.disabled)
    (hscenes : m.scenes = n.scenes) (hmax : m.maxHistory = n.maxHistory) :
    m.restore (.object n.saveFields) = ({ n with transitioning := false }, .ok ()) := by
  have hflags : (n.saveFields.lookup "hotspot_enabled_flags").getD (.object []) =
      .object (n.disabled.map fun k =>
        (s!"{Text.decimal k.1}:{Text.decimal k.2}", Json.bool false)) := rfl
  rw [h.restore_of_locates (locates_saveFields n) hscenes hmax, hflags]
  dsimp only [Json.savedFields]
  rw [disableSaved_saved hlisted rfl]

/-! ## The whole -/

/-- Whatever was asked of a fresh navigation, with no saved state among it that is wrong: what is
saved of it then, restored in a fresh navigation of the same scenes, makes it the same in all that
it holds, except that no change of scene is under way. A number in the text of a hotspot has to be
one that can be read, as every number of at most `Text.maxDigits` digits can. -/
theorem restore_after (scenes : List Scene) (hwritable : WritableHotspots scenes)
    (maxHistory : Nat) (hmax : 1 ≤ maxHistory) (ops : List Operation)
    (hwell : RestoresWell { scenes, maxHistory } ops) :
    let n := after { scenes, maxHistory } ops
    let fresh : Navigation := { scenes, maxHistory }
    fresh.restore (.object n.saveFields) = ({ n with transitioning := false }, .ok ()) := by
  intro n fresh
  have hfresh : fresh.Sound := sound_fresh scenes maxHistory
  obtain ⟨hsound, hscenes, hbound⟩ := hfresh.after hmax hwell
  have hlisted : Listed n.disabled := Listed.after listed_nil hwritable ops
  exact hsound.restore_saveFields hlisted hscenes.symm hbound.symm

/-- Hotspots of two scenes are switched off and one on again. Then a state is restored in which one
hotspot is written twice and another is that of no scene, and two more are switched off. -/
theorem restore_after_switched :
    let scenes : List Scene :=
      [{ index := 0, hotspots := [{ id := 0 }, { id := 12 }] },
        { index := 1, hotspots := [{ id := 3 }] }]
    let ops : List Operation := [.enter 0 true, .setEnabled 0 12 false, .setEnabled 1 3 false,
      .setEnabled 0 12 true,
      .restore (.object [
        ("navigation_history", .list [.int 1, .int 7, .int 0]),
        ("current_scene_index", .int 0),
        ("hotspot_enabled_flags", .object [("1:3", .bool false), (" +1 : 0_3 ", .bool false),
          ("-1:-1", .bool false), ("0:0", .bool true)])]),
      .setEnabled 0 12 false, .setEnabled 0 0 false, .back, .beginTransition]
    let n := after { scenes, maxHistory := 3 } ops
    n.disabled = [(-1, -1), (0, 0), (0, 12), (1, 3)] ∧ n.transitioning = true ∧
      Navigation.restore { scenes, maxHistory := 3 } (.object n.saveFields) =
        ({ n with transitioning := false }, .ok ()) := by
  intro scenes ops n
  have hwritable : WritableHotspots scenes := by
    have hsmall : ∀ i < 100, i < 10 ^ Text.maxDigits := by
      have hpow : 10 ^ 2 ≤ 10 ^ Text.maxDigits := Nat.pow_le_pow_right (by decide) (by decide)
      omega
    intro i s hs h hh
    match i, hs with
    | 0, rfl =>
        rcases List.mem_pair.mp hh with rfl | rfl
        · exact ⟨hsmall 0 (by decide), hsmall 0 (by decide)⟩
        · exact ⟨hsmall 0 (by decide), hsmall 12 (by decide)⟩
    | 1, rfl =>
        obtain rfl := List.mem_singleton.mp hh
        exact ⟨hsmall 1 (by decide), hsmall 3 (by decide)⟩
  have hwell : RestoresWell { scenes, maxHistory := 3 } ops := by
    refine ⟨nofun, nofun, nofun, nofun, ?_, nofun, nofun, nofun, nofun, trivial⟩
    rintro state ⟨⟩
    rfl
  have hrestored := restore_after scenes hwritable 3 (by decide) ops hwell
  exact ⟨by decide +kernel, by decide +kernel, hrestored⟩

end Navigation

end PointAndClick
