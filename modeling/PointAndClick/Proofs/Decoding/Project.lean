import PointAndClick.Project.Decode
import PointAndClick.Proofs.Decoding.Scenes

/-!
# Decoding arbitrary bytes

Decoding a project fails only if its header is cut short. Any other file gives a project that is
well formed: its parts follow one another, its scenes are linked in order, and each of its records
is a command of the scene in whose bytes it stands.
-/

set_option autoImplicit false

namespace PointAndClick

/-! ## Chains of scenes -/

namespace Scene.Chained

variable {size index low : Nat} {ss : List Scene}

theorem index_eq (h : Chained size index low ss) (i : Nat) (hi : i < ss.length) :
    ss[i].index = index + i := by
  induction h generalizing i with
  | nil => exact absurd hi (Nat.not_lt_zero i)
  | cons hindex hlow hsound hrest ih =>
      cases i with
      | zero => exact hindex
      | succ i =>
          rw [List.getElem_cons_succ, ih i (Nat.lt_of_succ_lt_succ hi)]
          omega

theorem low_le (h : Chained size index low ss) : ∀ s ∈ ss, low ≤ s.offset := by
  induction h with
  | nil => exact fun _ hs => nomatch hs
  | cons hindex hlow hsound hrest ih =>
      intro s hs
      have hstop := hsound.offset_lt
      rcases List.mem_cons.mp hs with rfl | hs
      · exact hlow
      · have hnext := ih s hs
        omega

theorem le_size (h : Chained size index low ss) : low ≤ size := by
  induction h with
  | nil hlow => exact hlow
  | cons hindex hlow hsound hrest ih =>
      have hstop := hsound.offset_lt
      omega

theorem offsets (h : Chained size index low ss) : (ss.map Scene.offset).Pairwise (· < ·) := by
  induction h with
  | nil => exact List.Pairwise.nil
  | cons hindex hlow hsound hrest ih =>
      refine List.pairwise_cons.mpr ⟨fun offset hoffset => ?_, ih⟩
      obtain ⟨s, hs, rfl⟩ := List.mem_map.mp hoffset
      have hstop := hsound.offset_lt
      have hnext := hrest.low_le s hs
      omega

/-- Each scene takes the bytes up to the next one, and the last one those up to the end. -/
theorem sound (h : Chained size index low ss) (i : Nat) (hi : i < ss.length) :
    ∃ stop, ss[i].Sound stop ∧ stop ≤ (ss[i + 1]?.map Scene.offset).getD size := by
  induction h generalizing i with
  | nil => exact absurd hi (Nat.not_lt_zero i)
  | cons hindex hlow hsound hrest ih =>
      cases i with
      | zero =>
          refine ⟨_, hsound, ?_⟩
          cases hrest with
          | nil hstop => exact hstop
          | cons hindex' hlow' hsound' hrest' => exact hlow'
      | succ i => exact ih i (Nat.lt_of_succ_lt_succ hi)

theorem low_le_records (h : Chained size index low ss) :
    ∀ r ∈ ss.flatMap Scene.records, low ≤ r.offset := by
  intro r hr
  obtain ⟨s, hs, hr⟩ := List.mem_flatMap.mp hr
  obtain ⟨i, hi, rfl⟩ := List.getElem_of_mem hs
  obtain ⟨stop, hsound, -⟩ := h.sound i hi
  have hlow := h.low_le _ hs
  have hspan := hsound.span r hr
  omega

/-- No two records of the scenes share an offset. -/
theorem distinct (h : Chained size index low ss) :
    ((ss.flatMap Scene.records).map Record.offset).Nodup := by
  induction h with
  | nil => exact List.nodup_nil
  | cons hindex hlow hsound hrest ih =>
      rw [List.flatMap_cons, List.map_append, List.nodup_append]
      refine ⟨hsound.distinct, ih, ?_⟩
      -- the other scenes start behind the end of this one
      rintro _ hfirst _ hsecond rfl
      obtain ⟨r, hr, hoffset⟩ := List.mem_map.mp hfirst
      obtain ⟨r', hr', hoffset'⟩ := List.mem_map.mp hsecond
      have hspan := hsound.span r hr
      have hnext := hrest.low_le_records r' hr'
      omega

/-- Links have no part in a chain. -/
theorem mapIdx (h : Chained size index low ss) (links : Nat → Links) :
    Chained size index low (ss.mapIdx fun i s => { s with links := links i }) := by
  induction h generalizing links with
  | nil hlow => exact .nil hlow
  | cons hindex hlow hsound hrest ih =>
      rw [List.mapIdx_cons]
      exact .cons hindex hlow
        ⟨hsound.offset_lt, hsound.numbered, hsound.counts, hsound.span, hsound.distinct⟩
        (ih fun i => links (i + 1))

end Scene.Chained

/-! ## Projects -/

/-- What every decoded project satisfies. -/
structure Project.WellFormed (p : Project) : Prop where
  headerEnd_le : p.headerEnd ≤ p.variablesEnd
  variablesEnd_le : p.variablesEnd ≤ p.size
  index : ∀ i (h : i < p.scenes.length), p.scenes[i].index = i
  forward : ∀ i (h : i < p.scenes.length),
    p.scenes[i].links.forward = if i + 1 < p.scenes.length then some ((i : Int) + 1) else none
  backward : ∀ i (h : i < p.scenes.length),
    p.scenes[i].links.backward = if 0 < i then some ((i : Int) - 1) else none
  offsets : (p.scenes.map Scene.offset).Pairwise (· < ·)
  variablesEnd_le_offset : ∀ s ∈ p.scenes, p.variablesEnd ≤ s.offset
  hotspots : ∀ s ∈ p.scenes, ∀ j (h : j < s.hotspots.length), s.hotspots[j].id = j
  span : ∀ i (h : i < p.scenes.length), ∀ r ∈ p.scenes[i].records,
    p.scenes[i].offset ≤ r.offset ∧
      r.offset < (p.scenes[i + 1]?.map Scene.offset).getD p.size
  distinct : ((p.scenes.flatMap Scene.records).map Record.offset).Nodup
  counts : ∀ s ∈ p.scenes, ∀ r ∈ s.records, r.Counts

namespace Project

theorem chained_decodeScenes (b : Buffer) (maxDistance : Int) (dialect : Dialect) {pos : Nat}
    (hpos : pos ≤ b.size) :
    Scene.Chained b.size 0 pos (decodeScenes b maxDistance dialect pos).1 := by
  cases dialect with
  | table =>
      unfold decodeScenes
      dsimp only
      split
      · exact .nil hpos
      · next table after hdecode => exact SceneTable.chained_decode hdecode hpos
  | stream => exact SceneStream.chained_read b maxDistance hpos

/-- Where the scenes of a decoded project come from. -/
theorem scenes_of_decode {b : Buffer} {maxDistance : Int} {p : Project}
    (h : decode b maxDistance = .ok p) :
    p.variablesEnd ≤ b.size ∧ p.scenes =
      linkSequentially (decodeScenes b maxDistance p.dialect p.variablesEnd).1 := by
  unfold decode at h
  cases hheader : Header.decode b 0 with
  | error e =>
      rw [hheader] at h
      nomatch h
  | ok r =>
      obtain ⟨header, headerEnd⟩ := r
      rw [hheader] at h
      cases h
      have hsize := (Header.takes_decode b 0 header headerEnd hheader).2 (Nat.zero_le _)
      have hvariables := Variable.collect_bounds b (b.size / 8 + 1) header.variableCount headerEnd
      exact ⟨hvariables.2 hsize, rfl⟩

/-- The scenes of a decoded project stand at their indices. -/
theorem getElem?_index_of_decode {b : Buffer} {maxDistance : Int} {p : Project}
    (h : decode b maxDistance = .ok p) {s : Scene} (hs : s ∈ p.scenes) :
    p.scenes[s.index]? = some s := by
  obtain ⟨hsize, hscenes⟩ := scenes_of_decode h
  have hchained : Scene.Chained b.size 0 p.variablesEnd p.scenes := by
    rw [hscenes]
    exact (chained_decodeScenes b maxDistance p.dialect hsize).mapIdx _
  obtain ⟨i, hi, rfl⟩ := List.getElem_of_mem hs
  rw [hchained.index_eq i hi, Nat.zero_add]
  exact List.getElem?_eq_getElem hi

theorem getElem_linkSequentially (scenes : List Scene) (i : Nat)
    (hi : i < (linkSequentially scenes).length) :
    (linkSequentially scenes)[i].links =
      { forward := if i + 1 < (linkSequentially scenes).length then some ((i : Int) + 1) else none
        backward := if 0 < i then some ((i : Int) - 1) else none } := by
  have hlength : (linkSequentially scenes).length = scenes.length := List.length_mapIdx
  have hbackward : 0 < i → ((i - 1 : Nat) : Int) = (i : Int) - 1 := fun hpos => by omega
  rw [hlength]
  simp only [linkSequentially, List.getElem_mapIdx, Int.natCast_add, Int.natCast_one]
  by_cases hpos : 0 < i
  · rw [if_pos hpos, if_pos hpos, hbackward hpos]
  · rw [if_neg hpos, if_neg hpos]

/-- Linking the scenes of a chain gives a well-formed project. -/
theorem wellFormed_of_chained {p : Project} {scenes : List Scene}
    (hheader : p.headerEnd ≤ p.variablesEnd) (hvariables : p.variablesEnd ≤ p.size)
    (h : Scene.Chained p.size 0 p.variablesEnd scenes)
    (hscenes : p.scenes = linkSequentially scenes) : p.WellFormed := by
  have hchained : Scene.Chained p.size 0 p.variablesEnd p.scenes := hscenes ▸ h.mapIdx _
  -- linking changes nothing but the links
  have hlinks := getElem_linkSequentially scenes
  rw [← hscenes] at hlinks
  have hsound : ∀ s ∈ p.scenes, ∃ stop, s.Sound stop := fun s hs => by
    obtain ⟨i, hi, rfl⟩ := List.getElem_of_mem hs
    obtain ⟨stop, hsound, -⟩ := hchained.sound i hi
    exact ⟨stop, hsound⟩
  exact
    { headerEnd_le := hheader
      variablesEnd_le := hvariables
      index := fun i hi => by rw [hchained.index_eq i hi, Nat.zero_add]
      forward := fun i hi => by rw [hlinks i hi]
      backward := fun i hi => by rw [hlinks i hi]
      offsets := hchained.offsets
      variablesEnd_le_offset := hchained.low_le
      hotspots := fun s hs => (hsound s hs).choose_spec.numbered
      span := fun i hi r hr => by
        obtain ⟨stop, hsound, hstop⟩ := hchained.sound i hi
        have hspan := hsound.span r hr
        omega
      distinct := hchained.distinct
      counts := fun s hs => (hsound s hs).choose_spec.counts }

/-- Decoding fails only as its header does, for want of bytes. Otherwise it ends with a well-formed
project, whatever the bytes are and however far it looks for the next record. -/
theorem decode_wellFormed (b : Buffer) (maxDistance : Int) :
    (∃ e, decode b maxDistance = .error e ∧ Header.decode b 0 = .error e ∧
      e.category = .outOfBounds) ∨
    ∃ p, decode b maxDistance = .ok p ∧ Header.decode b 0 = .ok (p.header, p.headerEnd) ∧
      p.size = b.size ∧ p.WellFormed := by
  cases hheader : Header.decode b 0 with
  | error e =>
      refine Or.inl ⟨e, ?_, rfl, Header.failsOutOfBounds_decode b 0 e hheader⟩
      rw [decode, hheader]
      rfl
  | ok r =>
      obtain ⟨header, headerEnd⟩ := r
      have hsize := (Header.takes_decode b 0 header headerEnd hheader).2 (Nat.zero_le _)
      have hvariables := Variable.collect_bounds b (b.size / 8 + 1) header.variableCount headerEnd
      refine Or.inr ⟨_, by rw [decode, hheader]; rfl, rfl, rfl, ?_⟩
      exact wellFormed_of_chained hvariables.1 (hvariables.2 hsize)
        (chained_decodeScenes b maxDistance _ (hvariables.2 hsize)) rfl

end Project

end PointAndClick
