import PointAndClick.Proofs.Decoding.EventGroup
import PointAndClick.Scene.Stream
import PointAndClick.Scene.Table

/-!
# Reading scenes from arbitrary bytes

Whatever the bytes are, each scene holds commands from its own bytes only, and the bytes of a scene
end before those of the next one start. Both forms of a project's scenes give such a chain.
-/

set_option autoImplicit false

namespace PointAndClick

open Decoder

/-- A scene whose bytes run from its offset to another position: it holds commands from these bytes
only, each at most once, and its hotspots are numbered in order. -/
structure Scene.Sound (s : Scene) (stop : Nat) : Prop where
  offset_lt : s.offset < stop
  numbered : Assembler.Numbered s.hotspots
  counts : ∀ r ∈ s.records, r.Counts
  span : ∀ r ∈ s.records, s.offset ≤ r.offset ∧ r.offset < stop
  distinct : (s.records.map Record.offset).Nodup

/-- Scenes whose bytes stand one after another between a position and the end of a buffer, and
whose indices count up. -/
inductive Scene.Chained (size : Nat) : Nat → Nat → List Scene → Prop
  | nil {index low : Nat} (hlow : low ≤ size) : Chained size index low []
  | cons {index low stop : Nat} {s : Scene} {rest : List Scene} (hindex : s.index = index)
      (hlow : low ≤ s.offset) (hsound : s.Sound stop)
      (hrest : Chained size (index + 1) stop rest) : Chained size index low (s :: rest)

namespace Scene

theorem Chained.mono {size index low low' : Nat} {ss : List Scene}
    (h : Chained size index low ss) (hle : low' ≤ low) : Chained size index low' ss := by
  cases h with
  | nil hlow => exact .nil (Nat.le_trans hle hlow)
  | cons hindex hlow hsound hrest => exact .cons hindex (Nat.le_trans hle hlow) hsound hrest

/-- A scene that is made from a sound assembler, and possibly from records before all of its. -/
theorem Sound.of_assembler {s : Scene} {a : Assembler} {low stop : Nat} (h : a.Sound low stop)
    (hlow : s.offset < low) (hle : low ≤ stop) (hhotspots : s.hotspots = a.finish.hotspots)
    (early : List Record)
    (hearly : ∀ r ∈ early, r.Counts ∧ s.offset ≤ r.offset ∧ r.offset < low)
    (hdistinct : (early.map Record.offset).Nodup)
    (hrecords : s.records.Sublist (early ++ a.finish.records)) : s.Sound stop := by
  have hfinish : a.finish.Sound low stop := h.close none
  have hcases : ∀ r ∈ s.records, r ∈ early ∨ r ∈ a.finish.records := fun r hr =>
    List.mem_append.mp (hrecords.subset hr)
  refine ⟨by omega, hhotspots ▸ hfinish.numbered, fun r hr => ?_, fun r hr => ?_, ?_⟩
  · rcases hcases r hr with hr | hr
    · exact (hearly r hr).1
    · exact hfinish.counts r hr
  · rcases hcases r hr with hr | hr
    · have hspan := (hearly r hr).2
      omega
    · have hspan := hfinish.span r hr
      omega
  · refine (hrecords.map Record.offset).nodup ?_
    rw [List.map_append, List.nodup_append]
    refine ⟨hdistinct, hfinish.distinct, ?_⟩
    -- the early records start before those of the assembler
    rintro _ hfirst _ hsecond rfl
    obtain ⟨r, hr, hoffset⟩ := List.mem_map.mp hfirst
    obtain ⟨r', hr', hoffset'⟩ := List.mem_map.mp hsecond
    have hspan := (hearly r hr).2
    have hspan' := hfinish.span r' hr'
    omega

theorem records_finish (a : Assembler) :
    a.finish.records = a.finish.preamble ++ a.finish.hotspots.flatMap Hotspot.records :=
  Assembler.records_eq_of_current (Assembler.current_close a none)

/-! ## Streams -/

/-- A bitmap block takes at least its layout word, the length of the path and 8 reserved bytes. -/
theorem takes_decodeBitmap : Takes decodeBitmap 16 := by
  refine takes_position.bind fun start => (takes_fixed 4 _).bind (n := 12) fun layout => ?_
  split
  · exact (takes_skip 8).bind fun _ => takes_text _
  · split
    · exact (takes_text _).bind fun _ => (takes_skip 8).map
    · exact takes_fail _ _

theorem paddingEnd_bounds (b : Buffer) (pos : Nat) :
    pos ≤ paddingEnd b pos ∧ (pos ≤ b.size → paddingEnd b pos ≤ b.size) := by
  have hfirst := EventGroup.skipPadding_bounds b b.size pos
  dsimp only [paddingEnd]
  split
  · next h =>
      have hsecond := EventGroup.skipPadding_bounds b b.size
        ((EventGroup.skipPadding b b.size pos).1 + 4)
      exact ⟨by omega, fun _ => hsecond.2 h.1⟩
  · exact hfirst

theorem decodeHotspots_eq_ok {maxDistance : Int} {b : Buffer} {pos after : Nat}
    {hotspots : List Hotspot} (h : decodeHotspots maxDistance b pos = .ok (hotspots, after))
    (hpos : pos ≤ b.size) :
    ∃ a : Assembler, a.Sound pos after ∧ hotspots = a.finish.hotspots ∧
      pos ≤ after ∧ after ≤ b.size := by
  have hpad := paddingEnd_bounds b pos
  have hstart : (⟨paddingEnd b pos, { flat := false }⟩ : EventGroup.Progress).Sound b pos :=
    ⟨Assembler.sound_empty _ _ _, hpad.1, hpad.2 hpos⟩
  obtain ⟨hsound, hle⟩ :=
    EventGroup.reaches_readMany b.size maxDistance (b.size / 8 + 1) 0 _ hstart
  cases h
  exact ⟨_, hsound.assembler, rfl, hsound.low, hsound.size⟩

/-- A scene that is read takes the bytes up to where reading stopped, at least those of its
parts but the event groups. -/
theorem decode_eq_ok {maxDistance : Int} {index : Nat} {b : Buffer} {pos after : Nat} {s : Scene}
    (h : decode maxDistance index b pos = .ok (s, after)) (hpos : pos ≤ b.size) :
    s.index = index ∧ s.offset = pos ∧ s.Sound after ∧ pos + 40 ≤ after ∧ after ≤ b.size := by
  obtain ⟨offset, _, hoffset, h⟩ := bind_eq_ok.mp h
  cases hoffset
  obtain ⟨flag, p₁, hflag, h⟩ := bind_eq_ok.mp h
  obtain ⟨_, p₂, hskip, h⟩ := bind_eq_ok.mp h
  obtain ⟨waveOffset, _, hwaveOffset, h⟩ := bind_eq_ok.mp h
  cases hwaveOffset
  obtain ⟨wave, p₃, hwave, h⟩ := bind_eq_ok.mp h
  obtain ⟨background, p₄, hbackground, h⟩ := bind_eq_ok.mp h
  obtain ⟨properties, p₅, hproperties, h⟩ := bind_eq_ok.mp h
  obtain ⟨hotspots, p₆, hhotspots, h⟩ := bind_eq_ok.mp h
  cases h
  have hflag := takes_fixed 4 _ b pos flag p₁ hflag
  have hskip := takes_skip 12 b p₁ _ p₂ hskip
  have hwave := takes_text _ b p₂ wave p₃ hwave
  have hbackground := takes_decodeBitmap b p₃ background p₄ hbackground
  have hproperties := takes_fixed 4 _ b p₄ properties p₅ hproperties
  -- each part ends inside the buffer if it starts there
  have hstart : p₅ ≤ b.size :=
    hproperties.2 (hbackground.2 (hwave.2 (hskip.2 (hflag.2 hpos))))
  obtain ⟨a, ha, rfl, hle, hsize⟩ := decodeHotspots_eq_ok hhotspots hstart
  have hlow : pos < p₅ := by omega
  have htakes : pos + 40 ≤ after := by omega
  have hearly : pos ≤ p₂ := by omega
  have hlate : p₂ < p₅ := by omega
  refine ⟨rfl, rfl, ?_, htakes, hsize⟩
  -- the sound of the scene, if it has one, stands before the hotspots
  refine Sound.of_assembler ha hlow hle rfl
    (if wave = "" then [] else [⟨.simple Command.playWav wave, p₂⟩]) ?_ ?_ ?_
  · intro r hr
    split at hr
    · cases hr
    · rw [List.mem_singleton.mp hr]
      exact ⟨trivial, hearly, hlate⟩
  · split <;> simp
  · rw [records_finish]
    simp only [records, List.append_nil]
    exact (List.Sublist.refl _).append (List.sublist_append_right _ _)

/-- The commands for entering a scene of a stream are its sound, if it has one. -/
theorem onEnter_of_decode {maxDistance : Int} {index : Nat} {b : Buffer} {pos after : Nat}
    {s : Scene} (h : decode maxDistance index b pos = .ok (s, after)) :
    ∃ offset, s.onEnter =
      if s.wave = "" then [] else [⟨.simple Command.playWav s.wave, offset⟩] := by
  obtain ⟨_, _, _, h⟩ := bind_eq_ok.mp h
  obtain ⟨_, _, _, h⟩ := bind_eq_ok.mp h
  obtain ⟨_, _, _, h⟩ := bind_eq_ok.mp h
  obtain ⟨waveOffset, _, _, h⟩ := bind_eq_ok.mp h
  obtain ⟨wave, _, _, h⟩ := bind_eq_ok.mp h
  obtain ⟨_, _, _, h⟩ := bind_eq_ok.mp h
  obtain ⟨_, _, _, h⟩ := bind_eq_ok.mp h
  obtain ⟨_, _, _, h⟩ := bind_eq_ok.mp h
  cases h
  exact ⟨waveOffset, rfl⟩

end Scene

/-- The scenes of a stream stand one after another. -/
theorem SceneStream.chained_collect {b : Buffer} (maxDistance : Int) (fuel index : Nat) {pos : Nat}
    (hpos : pos ≤ b.size) :
    Scene.Chained b.size index pos (collect b maxDistance fuel index pos).1 := by
  induction fuel generalizing index pos with
  | zero => exact .nil hpos
  | succ fuel ih =>
      have hskip := EventGroup.skipPadding_bounds b b.size pos
      dsimp only [collect]
      split
      · exact .nil hpos
      · split
        · exact .nil hpos
        · next s after hdecode =>
            obtain ⟨hindex, hoffset, hsound, -, hsize⟩ := Scene.decode_eq_ok hdecode (hskip.2 hpos)
            exact .cons hindex (by omega) hsound (ih (index + 1) hsize)

theorem SceneStream.chained_read (b : Buffer) (maxDistance : Int) {start : Nat}
    (hstart : start ≤ b.size) :
    Scene.Chained b.size 0 start (read b maxDistance start).scenes := by
  unfold read
  split
  · exact .nil hstart
  · exact (chained_collect maxDistance _ 0 (by omega)).mono (Nat.le_add_right _ _)

/-- Each scene of a stream was decoded somewhere. -/
theorem SceneStream.exists_decode_of_mem_collect {b : Buffer} {maxDistance : Int}
    {fuel index pos : Nat} {s : Scene} (h : s ∈ (collect b maxDistance fuel index pos).1) :
    ∃ index pos after, Scene.decode maxDistance index b pos = .ok (s, after) := by
  induction fuel generalizing index pos with
  | zero => nomatch h
  | succ fuel ih =>
      dsimp only [collect] at h
      split at h
      · nomatch h
      · split at h
        · nomatch h
        · next first after hdecode =>
            rcases List.mem_cons.mp h with rfl | hrest
            · exact ⟨_, _, _, hdecode⟩
            · exact ih hrest

theorem SceneStream.exists_decode_of_mem_read {b : Buffer} {maxDistance : Int} {start : Nat}
    {s : Scene} (h : s ∈ (read b maxDistance start).scenes) :
    ∃ index pos after, Scene.decode maxDistance index b pos = .ok (s, after) := by
  unfold read at h
  split at h
  · nomatch h
  · exact exists_decode_of_mem_collect h

/-! ## Tables -/

/-- Descriptors that stand one after another between a position and the end of a buffer, and whose
indices count up. -/
inductive Descriptor.Chained (size : Nat) : Nat → Nat → List Descriptor → Prop
  | nil {index low : Nat} (hlow : low ≤ size) : Chained size index low []
  | cons {index low : Nat} {d : Descriptor} {rest : List Descriptor} (hindex : d.index = index)
      (hlow : low ≤ d.offset) (hstop : d.offset < d.stop)
      (hrest : Chained size (index + 1) d.stop rest) : Chained size index low (d :: rest)

theorem Descriptor.search_bounds {b : Buffer} {count pos q : Nat}
    (h : search b count pos = some q) : pos ≤ q ∧ q ≤ b.size := by
  induction count generalizing pos with
  | zero => cases h
  | succ count ih =>
      rw [search_succ] at h
      split at h
      · next hlooks =>
          cases h
          have hsize := le_size_of_looksLike hlooks
          omega
      · have hbounds := ih h
        omega

/-- Where the next descriptor is looked for. -/
theorem Descriptor.start_bounds {b : Buffer} {index pos start : Nat} (hpos : pos ≤ b.size)
    (h : (if index = 0 then some pos else next? b pos) = some start) :
    pos ≤ start ∧ start ≤ b.size := by
  split at h
  · cases h
    exact ⟨Nat.le_refl _, hpos⟩
  · exact search_bounds h

/-- The descriptors of a table stand one after another. -/
theorem Descriptor.chained_collect {b : Buffer} (fuel count index : Nat) {pos : Nat}
    (hpos : pos ≤ b.size) : Chained b.size index pos (collect b fuel count index pos) := by
  induction fuel generalizing count index pos with
  | zero => exact .nil hpos
  | succ fuel ih =>
      cases count with
      | zero => exact .nil hpos
      | succ count =>
          rw [collect]
          split
          · exact .nil hpos
          · next start hstart =>
              have hbounds := start_bounds hpos hstart
              split
              · exact .nil hpos
              · next d after hdecode =>
                  obtain ⟨hindex, hoffset, rfl⟩ := decode_eq_ok hdecode
                  have htakes := takes_decode index b start d _ hdecode
                  exact .cons hindex (by omega) (by omega)
                    (ih count (index + 1) (htakes.2 hbounds.2))

/-- Records of a region that are added one after another. -/
theorem Record.sound_collect {b : Buffer} {limit : Nat} (maxDistance : Int) (fuel : Nat)
    {pos low : Nat} {a : Assembler} (h : a.Sound low pos) (hlow : low ≤ pos) (hpos : pos ≤ limit) :
    ((collect b limit maxDistance fuel pos).1.foldl Assembler.add a).Sound low limit := by
  induction fuel generalizing pos a with
  | zero => exact h.mono hpos
  | succ fuel ih =>
      rw [collect]
      split
      · exact h.mono hpos
      · next r after hnext =>
          have hbounds := search_bounds hnext
          have hskip : a.Sound low after := h.mono (by omega)
          dsimp only
          split
          · next hkept =>
              have hadd := h.add hkept hlow hbounds.1
              exact ih (hadd.mono (by omega)) (by omega) hbounds.2.2
          -- a record that is dropped only moves the position on
          · exact ih hskip (by omega) hbounds.2.2

/-- The scene of a descriptor takes the bytes up to the next one. -/
theorem SceneTable.sound_sceneOf {b : Buffer} (maxDistance : Int) {d : Descriptor} {stop : Nat}
    (hstop : d.offset < d.stop) (hle : d.stop ≤ stop) (hsize : stop ≤ b.size) :
    (sceneOf b maxDistance d stop).Sound stop := by
  have hlimit : Record.limit b (some stop) = stop := Nat.min_eq_left hsize
  have hsound : Assembler.Sound _ d.stop stop :=
    Record.sound_collect maxDistance b.size (b := b)
      (Assembler.sound_empty true d.stop d.stop) (Nat.le_refl _) hle
  refine Scene.Sound.of_assembler hsound hstop hle ?_ [] (fun _ hr => nomatch hr) List.nodup_nil ?_
  · rw [sceneOf, Record.all, hlimit]
  · rw [Scene.records_finish, List.nil_append, sceneOf, Record.all, hlimit, Scene.records]
    simp only [List.append_nil]
    exact List.Sublist.refl _

theorem Descriptor.Chained.le_size {size index low : Nat} {ds : List Descriptor}
    (h : Chained size index low ds) : low ≤ size := by
  induction h with
  | nil hlow => exact hlow
  | cons hindex hlow hstop hrest ih => omega

/-- The scenes of a table stand one after another, from the first descriptor on. -/
theorem SceneTable.chained_scenesOf {b : Buffer} (maxDistance : Int) {index low : Nat}
    {d : Descriptor} {ds : List Descriptor} (h : Descriptor.Chained b.size index low (d :: ds)) :
    Scene.Chained b.size index d.offset (scenesOf b maxDistance (d :: ds)) := by
  induction ds generalizing index low d with
  | nil =>
      obtain _ | ⟨hindex, -, hstop, hrest⟩ := h
      exact .cons hindex (Nat.le_refl _)
        (sound_sceneOf maxDistance hstop hrest.le_size (Nat.le_refl _)) (.nil (Nat.le_refl _))
  | cons e ds ih =>
      obtain _ | ⟨hindex, -, hstop, hrest⟩ := h
      -- the records of the first scene end where the next descriptor starts
      have hnext := ih hrest
      obtain _ | ⟨-, hlow, hstop', hrest'⟩ := hrest
      have hsize := hrest'.le_size
      exact .cons hindex (Nat.le_refl _) (sound_sceneOf maxDistance hstop hlow (by omega)) hnext

theorem SceneTable.chained_decode {b : Buffer} {maxDistance : Int} {pos after : Nat}
    {table : SceneTable} (h : decode maxDistance b pos = .ok (table, after)) (hpos : pos ≤ b.size) :
    Scene.Chained b.size 0 pos table.scenes := by
  obtain ⟨count, start, hcount, hrest⟩ := bind_eq_ok.mp h
  cases hrest
  obtain ⟨hlow, hsize⟩ := takes_fixed 4 _ b pos count start hcount
  have hdescriptors : Descriptor.Chained b.size 0 start (Descriptor.all b count start) :=
    Descriptor.chained_collect _ count 0 (hsize hpos)
  dsimp only
  -- the chain starts at the first descriptor, if there is one
  cases hall : Descriptor.all b count start with
  | nil => exact .nil hpos
  | cons d ds =>
      rw [hall] at hdescriptors
      have hscenes := chained_scenesOf maxDistance hdescriptors
      obtain _ | ⟨-, hstart, -, -⟩ := hdescriptors
      exact hscenes.mono (by omega)

end PointAndClick
