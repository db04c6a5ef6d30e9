import PointAndClick.Export.HotspotMap
import PointAndClick.Play.Session

/-!
# The map of a scene and the pointer

The map draws the hotspots of a scene from the lowest to the highest, each over those before it,
while the pointer looks through them in their order and remembers the highest so far. Both choose
the same hotspot at every pixel, `Hotspot.IsTopmost`: the highest of those that are hit, and of
those as high the last one. For the search this holds after each hotspot it looks at; for the map
it goes by induction on the hotspots, since the sort is stable.
-/

set_option autoImplicit false

namespace PointAndClick

/-- Of the hotspots `before`, `h` and `after`, in this order, `h` is the topmost that is hit. -/
structure Hotspot.IsTopmost (hit : Hotspot → Bool) (before : List Hotspot) (h : Hotspot)
    (after : List Hotspot) : Prop where
  found : hit h = true
  le : ∀ b ∈ before, hit b = true → b.z ≤ h.z
  lt : ∀ b ∈ after, hit b = true → b.z < h.z

namespace Hotspot.IsTopmost

variable {hit : Hotspot → Bool} {before after : List Hotspot} {h g : Hotspot}

/-- One that is not hit, or is lower, changes nothing. -/
theorem append (ht : IsTopmost hit before h after) (hg : hit g = true → g.z < h.z) :
    IsTopmost hit before h (after ++ [g]) where
  found := ht.found
  le := ht.le
  lt := by
    intro b hb
    rcases List.mem_append.mp hb with hb | hb
    · exact ht.lt b hb
    · rw [List.mem_singleton.mp hb]
      exact hg

/-- One behind all others that is hit, and is as high as the topmost, takes its place. -/
theorem last (ht : IsTopmost hit before h after) (hg : hit g = true) (hle : h.z ≤ g.z) :
    IsTopmost hit (before ++ h :: after) g [] where
  found := hg
  le := by
    intro b hb hhit
    rcases List.mem_append.mp hb with hb | hb
    · exact Int.le_trans (ht.le b hb hhit) hle
    · rcases List.mem_cons.mp hb with rfl | hb
      · exact hle
      · exact Int.le_trans (Int.le_of_lt (ht.lt b hb hhit)) hle
  lt := fun _ hb => absurd hb List.not_mem_nil

/-- Where no other is hit, the last one is topmost. -/
theorem only (hnone : ∀ b ∈ before, hit b = false) (hg : hit g = true) :
    IsTopmost hit before g [] where
  found := hg
  le := fun b hb hhit => absurd hhit (by simp [hnone b hb])
  lt := fun _ hb => absurd hb List.not_mem_nil

/-- Leaving out hotspots that are not hit changes nothing. -/
theorem filter {keep : Hotspot → Bool} (ht : IsTopmost hit before h after) :
    IsTopmost hit (before.filter keep) h (after.filter keep) where
  found := ht.found
  le := fun b hb => ht.le b (List.mem_filter.mp hb).1
  lt := fun b hb => ht.lt b (List.mem_filter.mp hb).1

end Hotspot.IsTopmost

/-! ## What the pointer finds -/

namespace Session

open Hotspot (IsTopmost)

/-- The hotspot can be clicked, is switched on, and lies at the point. -/
def isHit (n : Navigation) (scene : Nat) (p : Point) (h : Hotspot) : Bool :=
  !h.isDangling && n.isEnabled scene h.id && h.contains p

/-- What is remembered after some hotspots: the place and the height of the topmost of them, or
nothing if none is hit. -/
def Remembers (hit : Hotspot → Bool) (seen : List Hotspot) : Option (Nat × Int) → Prop
  | none => ∀ h ∈ seen, hit h = false
  | some best => ∃ before h after, seen = before ++ h :: after ∧ IsTopmost hit before h after ∧
      best = (before.length, h.z)

variable {n : Navigation} {scene : Nat} {p : Point}

/-- One more hotspot takes the place of the topmost if it is hit and is not lower. -/
theorem Remembers.step {seen : List Hotspot} {best : Option (Nat × Int)} (g : Hotspot)
    (hbest : Remembers (isHit n scene p) seen best) :
    Remembers (isHit n scene p) (seen ++ [g])
      (if (isHit n scene p g && best.all fun b => b.2 ≤ g.z) = true
        then some (seen.length, g.z) else best) := by
  split
  case isTrue htakes =>
    obtain ⟨hg, hall⟩ := Bool.and_eq_true_iff.mp htakes
    refine ⟨seen, g, [], rfl, ?_, rfl⟩
    cases best with
    | none => exact .only hbest hg
    | some best =>
        obtain ⟨before, h, after, rfl, ht, rfl⟩ := hbest
        exact ht.last hg (by simpa using hall)
  case isFalse hstays =>
    cases best with
    | none =>
        have hg : isHit n scene p g = false := by simpa using hstays
        intro h hh
        rcases List.mem_append.mp hh with hh | hh
        · exact hbest h hh
        · rw [List.mem_singleton.mp hh]
          exact hg
    | some best =>
        obtain ⟨before, h, after, rfl, ht, rfl⟩ := hbest
        refine ⟨before, h, after ++ [g], by simp, ht.append fun hg => ?_, rfl⟩
        simpa [hg] using hstays

/-- The search remembers the topmost of all hotspots. -/
theorem remembers_topmost (rest : List Hotspot) {seen : List Hotspot}
    {best : Option (Nat × Int)} (hbest : Remembers (isHit n scene p) seen best) :
    Remembers (isHit n scene p) (seen ++ rest) (topmost n scene p seen.length best rest) := by
  induction rest generalizing seen best with
  | nil => simpa [topmost] using hbest
  | cons g rest ih =>
      have hrest := ih (hbest.step g)
      rw [List.length_append, List.append_assoc] at hrest
      exact hrest

/-- The hit test finds the topmost hotspot of the scene that is hit, and nothing where none is. -/
theorem hitTest_eq_none_or_some {s : Session} {sc : Scene}
    (hscene : s.navigation.currentScene? = some sc) (p : Point) :
    (s.hitTest p = none ∧ ∀ h ∈ sc.hotspots, isHit s.navigation sc.index p h = false) ∨
      ∃ before h after, sc.hotspots = before ++ h :: after ∧
        IsTopmost (isHit s.navigation sc.index p) before h after ∧
        s.hitTest p = some ⟨sc.index, before.length⟩ := by
  have hnothing : Remembers (isHit s.navigation sc.index p) [] none :=
    fun _ hh => absurd hh List.not_mem_nil
  have hfound : Remembers (isHit s.navigation sc.index p) sc.hotspots
      (topmost s.navigation sc.index p 0 none sc.hotspots) :=
    remembers_topmost sc.hotspots hnothing
  simp only [hitTest, hscene]
  cases hbest : topmost s.navigation sc.index p 0 none sc.hotspots with
  | none =>
      rw [hbest] at hfound
      exact .inl ⟨rfl, hfound⟩
  | some best =>
      rw [hbest] at hfound
      obtain ⟨before, h, after, hsplit, ht, rfl⟩ := hfound
      exact .inr ⟨before, h, after, hsplit, ht, rfl⟩

end Session

/-! ## What the map shows -/

namespace HotspotMap

open Hotspot (IsTopmost)

/-- One hotspot is drawn before another. -/
abbrev drawnBefore (a b : Hotspot) : Bool := decide (a.z ≤ b.z)

theorem drawnBefore_trans (a b c : Hotspot) (hab : drawnBefore a b = true)
    (hbc : drawnBefore b c = true) : drawnBefore a c = true :=
  decide_eq_true (Int.le_trans (of_decide_eq_true hab) (of_decide_eq_true hbc))

theorem drawnBefore_total (a b : Hotspot) : (drawnBefore a b || drawnBefore b a) = true := by
  rcases Int.le_total a.z b.z with h | h <;> simp [drawnBefore, h]

/-- A hotspot stands in the order of drawing behind the lower ones of those that follow it in the
scene, and before the others. -/
theorem mergeSort_cons_eq (h : Hotspot) (hs : List Hotspot) :
    ∃ lower others, (h :: hs).mergeSort drawnBefore = lower ++ h :: others ∧
      hs.mergeSort drawnBefore = lower ++ others ∧
      (∀ b ∈ lower, b.z < h.z) ∧ ∀ b ∈ others, h.z ≤ b.z := by
  obtain ⟨lower, others, hcons, htail, hlower⟩ :=
    List.mergeSort_cons drawnBefore_trans drawnBefore_total h hs
  have hsorted := List.pairwise_mergeSort drawnBefore_trans drawnBefore_total (h :: hs)
  rw [hcons] at hsorted
  refine ⟨lower, others, hcons, htail, fun b hb => by simpa using hlower b hb, fun b hb => ?_⟩
  have hothers := (List.pairwise_cons.mp (List.pairwise_append.mp hsorted).2.1).1 b hb
  exact of_decide_eq_true hothers

/-- Of the hotspots that are hit the topmost is drawn last. -/
theorem getLast?_filter_mergeSort {hit : Hotspot → Bool} {before after : List Hotspot}
    {h : Hotspot} (ht : IsTopmost hit before h after) :
    (((before ++ h :: after).mergeSort drawnBefore).filter hit).getLast? = some h := by
  induction before with
  | nil =>
      obtain ⟨lower, others, hcons, htail, -, hothers⟩ := mergeSort_cons_eq h after
      -- what is drawn behind `h` is as high, so it is not hit
      have hmissed : others.filter hit = [] := by
        refine List.filter_eq_nil_iff.mpr fun b hb hhit => ?_
        have hmem : b ∈ after.mergeSort drawnBefore := by
          rw [htail]
          exact List.mem_append_right lower hb
        exact absurd (ht.lt b (List.mem_mergeSort.mp hmem) hhit) (Int.not_lt.mpr (hothers b hb))
      rw [List.nil_append, hcons, List.filter_append, List.filter_cons_of_pos ht.found, hmissed]
      exact List.getLast?_concat
  | cons a before ih =>
      have hrest := ih ⟨ht.found, fun b hb => ht.le b (List.mem_cons_of_mem a hb), ht.lt⟩
      obtain ⟨lower, others, hcons, htail, hlower, -⟩ :=
        mergeSort_cons_eq a (before ++ h :: after)
      rw [htail, List.filter_append] at hrest
      rw [List.cons_append, hcons, List.filter_append]
      by_cases ha : hit a = true
      · -- `a` is not above `h`, and so `h` is not among the lower ones that are drawn before `a`
        have hnot : h ∉ lower := fun hmem =>
          absurd (ht.le a List.mem_cons_self ha) (Int.not_le.mpr (hlower h hmem))
        have hothers : (others.filter hit).getLast? = some h := by
          rw [List.getLast?_append] at hrest
          cases hlast : (others.filter hit).getLast? with
          | some b => simpa [hlast] using hrest
          | none =>
              rw [hlast, Option.none_or] at hrest
              exact absurd (List.mem_filter.mp (List.mem_of_getLast? hrest)).1 hnot
        rw [List.filter_cons_of_pos ha, List.getLast?_append, List.getLast?_cons, hothers]
        rfl
      · rw [List.filter_cons_of_neg ha]
        exact hrest

/-- A pixel has the value of the last hotspot that covers it. -/
theorem valueOf_eq (fill : Filling) (hs : List Hotspot) (p : Point) :
    valueOf fill hs p = (hs.filter (covers fill · p)).getLast?.elim 0 (·.id + 1) := by
  have hfold (value : Nat) :
      hs.foldl (fun value h => if covers fill h p then h.id + 1 else value) value =
        (hs.filter (covers fill · p)).getLast?.elim value (·.id + 1) := by
    induction hs generalizing value with
    | nil => rfl
    | cons h hs ih =>
        rw [List.foldl_cons, ih]
        by_cases hcov : covers fill h p = true
        · rw [List.filter_cons, if_pos hcov, if_pos hcov, List.getLast?_cons]
          cases (hs.filter (covers fill · p)).getLast? <;> rfl
        · rw [List.filter_cons, if_neg hcov, if_neg hcov]
  exact hfold 0

/-- Rows of one width, one after another. -/
theorem getElem?_flatMap_range {α : Type} {width x y height : Nat} {row : Nat → List α}
    (hrow : ∀ j, (row j).length = width) (hx : x < width) (hy : y < height) :
    ((List.range height).flatMap row)[y * width + x]? = (row y)[x]? := by
  have hlength (j : Nat) : ((List.range j).flatMap row).length = j * width := by
    simp [List.length_flatMap, hrow, List.map_const']
  induction height with
  | zero => exact absurd hy (Nat.not_lt_zero y)
  | succ height ih =>
      rw [List.range_succ, List.flatMap_append, List.flatMap_singleton]
      rcases Nat.lt_succ_iff_lt_or_eq.mp hy with hlt | rfl
      · have hin : y * width + x < height * width :=
          calc y * width + x < y * width + width := Nat.add_lt_add_left hx _
            _ = (y + 1) * width := (Nat.succ_mul y width).symm
            _ ≤ height * width := Nat.mul_le_mul_right width hlt
        rw [List.getElem?_append_left (by rw [hlength]; exact hin), ih hlt]
      · rw [List.getElem?_append_right (by rw [hlength]; exact Nat.le_add_right _ _), hlength,
          Nat.add_sub_cancel_left]

/-- The value of a pixel stands at its place, row by row. -/
theorem getElem?_pixels (m : HotspotMap) (fill : Filling) {x y : Nat} (hx : x < m.width)
    (hy : y < m.height) : (m.pixels fill)[y * m.width + x]? = some (m.pixel x y fill) := by
  rw [pixels, getElem?_flatMap_range (fun j => by simp [row]) hx hy]
  simp [row, pixel, hx]

/-! ## Agreement -/

/-- The hotspots of a scene have different identifiers, each with a colour, and those that can be
clicked are rectangles. -/
structure Drawable (sc : Scene) : Prop where
  distinct : (sc.hotspots.map (·.id)).Nodup
  lt_maxHotspots : ∀ h ∈ sc.hotspots, h.id < maxHotspots
  rectangle : ∀ h ∈ sc.clickable, ∃ l t r b, h.shape = some (.rectangle l t r b)

namespace Drawable

variable {sc : Scene} {n : Navigation} {p : Point} {fill : Filling}

/-- All hotspots that can be clicked are drawn. -/
theorem drawn_eq (hd : Drawable sc) : drawn sc = sc.clickable.mergeSort drawnBefore := by
  refine List.filter_eq_self.mpr fun h hh => decide_eq_true (hd.lt_maxHotspots h ?_)
  exact (List.mem_filter.mp (List.mem_mergeSort.mp hh)).1

/-- Where all hotspots are switched on, those that cover a pixel are those that are hit there. -/
theorem covers_eq_isHit (hd : Drawable sc)
    (hon : ∀ h ∈ sc.hotspots, n.isEnabled sc.index h.id = true) {h : Hotspot}
    (hh : h ∈ sc.hotspots) : covers fill h p = Session.isHit n sc.index p h := by
  cases hdangling : h.isDangling with
  | true =>
      rw [covers, Option.isNone_iff_eq_none.mp hdangling]
      simp [Session.isHit, hdangling]
  | false =>
      obtain ⟨l, t, r, b, hshape⟩ :=
        hd.rectangle h (List.mem_filter.mpr ⟨hh, by simp [hdangling]⟩)
      simp [covers, Session.isHit, hdangling, hon h hh, Hotspot.contains, hshape, takesUp]

/-- The hotspots that are drawn and cover a pixel are those that are drawn and hit there. -/
theorem filter_covers_drawn (hd : Drawable sc)
    (hon : ∀ h ∈ sc.hotspots, n.isEnabled sc.index h.id = true) :
    (drawn sc).filter (covers fill · p) =
      (sc.clickable.mergeSort drawnBefore).filter (Session.isHit n sc.index p) := by
  rw [hd.drawn_eq]
  refine List.filter_congr fun b hb => hd.covers_eq_isHit hon ?_
  exact (List.mem_filter.mp (List.mem_mergeSort.mp hb)).1

/-- A pixel where nothing is hit shows no hotspot. -/
theorem valueOf_drawn_eq_zero (hd : Drawable sc)
    (hon : ∀ h ∈ sc.hotspots, n.isEnabled sc.index h.id = true)
    (hnone : ∀ h ∈ sc.hotspots, Session.isHit n sc.index p h = false) :
    valueOf fill (drawn sc) p = 0 := by
  have hempty :
      (sc.clickable.mergeSort drawnBefore).filter (Session.isHit n sc.index p) = [] := by
    refine List.filter_eq_nil_iff.mpr fun h hh => ?_
    simp [hnone h (List.mem_filter.mp (List.mem_mergeSort.mp hh)).1]
  rw [valueOf_eq, hd.filter_covers_drawn hon, hempty]
  rfl

/-- A pixel shows the topmost of the hotspots that are hit there. -/
theorem valueOf_drawn_eq (hd : Drawable sc)
    (hon : ∀ h ∈ sc.hotspots, n.isEnabled sc.index h.id = true) {before after : List Hotspot}
    {h : Hotspot} (hsplit : sc.hotspots = before ++ h :: after)
    (ht : IsTopmost (Session.isHit n sc.index p) before h after) :
    valueOf fill (drawn sc) p = h.id + 1 := by
  have hclick : (!h.isDangling) = true :=
    (Bool.and_eq_true_iff.mp (Bool.and_eq_true_iff.mp ht.found).1).1
  have hclickable : sc.clickable =
      before.filter (!·.isDangling) ++ h :: after.filter (!·.isDangling) := by
    rw [Scene.clickable, hsplit, List.filter_append, List.filter_cons, if_pos hclick]
  rw [valueOf_eq, hd.filter_covers_drawn hon, hclickable, getLast?_filter_mergeSort ht.filter]
  rfl

/-- Two places of hotspots with one identifier are one place. -/
theorem place_unique (hd : Drawable sc) {i j : Nat} {g h : Hotspot}
    (hg : sc.hotspots[i]? = some g) (hh : sc.hotspots[j]? = some h) (hid : g.id = h.id) :
    i = j := by
  have hi : (sc.hotspots.map (·.id))[i]? = some g.id := by rw [List.getElem?_map, hg]; rfl
  have hj : (sc.hotspots.map (·.id))[j]? = some g.id := by rw [List.getElem?_map, hh, hid]; rfl
  have hlt : i < (sc.hotspots.map (·.id)).length := (List.getElem?_eq_some_iff.mp hi).1
  exact (List.getElem?_inj hlt hd.distinct).mp (hi.trans hj.symm)

end Drawable

/-- The map agrees with the pointer, however polygons are filled. At every pixel of the map of a
scene that is shown, with all hotspots switched on, stands one more than the identifier of the
hotspot that the hit test finds there, and 0 exactly where it finds none. Since the identifiers are
different, the value tells which hotspot it finds. -/
theorem pixels_agree_hitTest {m : HotspotMap} {s : Session} {x y : Nat} (fill : Filling)
    (hscene : s.navigation.currentScene? = some m.scene) (hd : Drawable m.scene)
    (hon : ∀ h ∈ m.scene.hotspots, s.navigation.isEnabled m.scene.index h.id = true)
    (hx : x < m.width) (hy : y < m.height) :
    ∃ value, (m.pixels fill)[y * m.width + x]? = some value ∧
      value = ((s.hitTest ⟨x, y⟩).bind fun r => m.scene.hotspots[r.place]?).elim 0 (·.id + 1) ∧
      (value = 0 ↔ s.hitTest ⟨x, y⟩ = none) ∧
      ∀ place h, m.scene.hotspots[place]? = some h →
        (value = h.id + 1 ↔ s.hitTest ⟨x, y⟩ = some ⟨m.scene.index, place⟩) := by
  refine ⟨_, m.getElem?_pixels fill hx hy, ?_⟩
  rcases Session.hitTest_eq_none_or_some hscene ⟨x, y⟩ with
    ⟨htest, hnone⟩ | ⟨before, h, after, hsplit, ht, htest⟩
  · have hvalue : m.pixel x y fill = 0 := hd.valueOf_drawn_eq_zero hon hnone
    rw [hvalue, htest]
    exact ⟨rfl, by simp, fun place h _ => by simp⟩
  · have hvalue : m.pixel x y fill = h.id + 1 := hd.valueOf_drawn_eq hon hsplit ht
    have hplace : m.scene.hotspots[before.length]? = some h := by
      rw [hsplit, List.getElem?_append_right (Nat.le_refl _), Nat.sub_self, List.getElem?_cons_zero]
    rw [hvalue, htest]
    refine ⟨by simp [hplace], by simp, fun place g hg => ?_⟩
    constructor
    · intro hid
      rw [hd.place_unique hplace hg (Nat.succ.inj hid)]
    · intro hfound
      obtain rfl : before.length = place := by simpa using hfound
      rw [hplace] at hg
      rw [Option.some.inj hg]

/-- A map of three hotspots: the second lies on a part of the first and is as high, and the third
lies below both. -/
def overlapping : HotspotMap where
  width := 4
  height := 3
  scene := {
    index := 0
    hotspots := [
      { id := 7, z := 5, shape := some (.rectangle 0 0 2 2) },
      { id := 3, z := 5, shape := some (.rectangle 1 (-4) 9 1) },
      { id := 9, z := -1, shape := some (.rectangle 0 0 2 9) },
      { id := 4 }] }

/-- A session in which the scene of the map is shown. -/
def overOverlapping : Session where
  navigation := { scenes := [overlapping.scene], current := some 0 }

theorem pixels_agree_hitTest_overlapping :
    overlapping.pixels[1 * 4 + 2]? = some 4 ∧ overlapping.pixels[2 * 4 + 2]? = some 8 ∧
      overlapping.pixels[2 * 4 + 3]? = some 0 := by
  have hd : Drawable overlapping.scene := by
    refine ⟨by decide, by decide, ?_⟩
    simp [overlapping, Scene.clickable, Hotspot.isDangling]
  have hagree (x y : Nat) (hx : x < 4) (hy : y < 3) :=
    pixels_agree_hitTest (m := overlapping) (s := overOverlapping) fillBounds rfl hd (by decide) hx
      hy
  refine ⟨?_, ?_, ?_⟩
  · obtain ⟨value, hpixel, hvalue, -⟩ := hagree 2 1 (by decide) (by decide)
    rw [show value = 4 from hvalue] at hpixel
    exact hpixel
  · obtain ⟨value, hpixel, hvalue, -⟩ := hagree 2 2 (by decide) (by decide)
    rw [show value = 8 from hvalue] at hpixel
    exact hpixel
  · obtain ⟨value, hpixel, hvalue, -⟩ := hagree 3 2 (by decide) (by decide)
    rw [show value = 0 from hvalue] at hpixel
    exact hpixel

end HotspotMap

end PointAndClick
