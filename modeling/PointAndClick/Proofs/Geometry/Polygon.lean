import PointAndClick.Geometry.Shape
import PointAndClick.Proofs.Encoding.Bytes
import PointAndClick.Proofs.Number.Rounding

/-!
# Polygons and the boxes around them

A closed polygon goes over a horizontal line as often as it comes back, so that every such line
meets an even number of its edges (`foldl_turns`). Where the line crosses an edge is rounded twice,
but stays between the two ends of the edge (`le_crossing`, `crossing_le`). So a point to the left of
all corners has all of these edges to its right, and one to the right of them has none: a polygon is
only hit inside the box around its corners (`inBox_of_contains`).
-/

set_option autoImplicit false

namespace PointAndClick.Shape

variable {points : List Point} {a b p : Point} {y : Int}

/-! ## Edges -/

/-- One end of an edge lies below a horizontal line, and the other does not. -/
def straddles (y : Int) (a b : Point) : Bool :=
  decide (y < a.y) != decide (y < b.y)

theorem straddles_iff : straddles y a b = true ↔ a.y ≤ y ∧ y < b.y ∨ b.y ≤ y ∧ y < a.y := by
  unfold straddles
  by_cases ha : y < a.y <;> by_cases hb : y < b.y <;> simp [ha, hb] <;> omega

theorem crosses_eq (p a b : Point) :
    crosses p a b = (straddles p.y a b && decide ((p.x : Rat) < crossing a b p.y)) := rfl

/-- The ends of an edge are corners. -/
theorem mem_of_mem_edges (h : (a, b) ∈ edges points) : a ∈ points ∧ b ∈ points := by
  unfold edges at h
  cases hlast : points.getLast? with
  | none =>
      rw [hlast] at h
      nomatch h
  | some last =>
      rw [hlast] at h
      obtain ⟨ha, hb⟩ := List.of_mem_zip h
      refine ⟨ha, ?_⟩
      rcases List.mem_cons.mp hb with rfl | hb
      · exact List.mem_of_getLast? hlast
      · exact hb

/-- Along a row of corners, an odd number of edges lead from one side to the other just if the last
corner is not on the side of the first. -/
theorem foldl_turns_zip (side : Point → Bool) (points : List Point) (before : Point)
    (inside : Bool) :
    (points.zip (before :: points)).foldl (fun inside e => inside != (side e.1 != side e.2))
        inside =
      (inside != (side ((before :: points).getLast (List.cons_ne_nil _ _)) != side before)) := by
  induction points generalizing before inside with
  | nil => simp
  | cons a points ih =>
      rw [List.zip_cons_cons, List.foldl_cons, ih, List.getLast_cons_cons]
      -- the side of the corner in the middle counts twice, so it does not count
      generalize side ((a :: points).getLast _) = last
      cases inside <;> cases side a <;> cases side before <;> cases last <;> rfl

/-- Around a closed polygon, an even number of edges lead from one side to the other. -/
theorem foldl_turns (side : Point → Bool) (points : List Point) :
    (edges points).foldl (fun inside e => inside != (side e.1 != side e.2)) false = false := by
  unfold edges
  cases hlast : points.getLast? with
  | none => rfl
  | some last =>
      obtain ⟨before, rfl⟩ := List.getLast?_eq_some_iff.mp hlast
      simp [foldl_turns_zip]

/-! ## Crossings -/

/-- How far a line between the heights of two points is on the way from the one to the other. -/
theorem part_bounds (h : straddles y a b = true) :
    0 ≤ ((y - a.y : Int) : Rat) / (b.y - a.y : Int) ∧
      ((y - a.y : Int) : Rat) / (b.y - a.y : Int) ≤ 1 := by
  rcases straddles_iff.mp h with ⟨hfrom, hto⟩ | ⟨hfrom, hto⟩
  · have hpos : (0 : Rat) < (b.y - a.y : Int) := by exact_mod_cast (by omega : 0 < b.y - a.y)
    have hnonneg : (0 : Rat) ≤ (y - a.y : Int) := by exact_mod_cast (by omega : 0 ≤ y - a.y)
    have hle : ((y - a.y : Int) : Rat) ≤ (b.y - a.y : Int) := by
      exact_mod_cast (by omega : y - a.y ≤ b.y - a.y)
    exact ⟨div_nonneg hnonneg hpos.le, (div_le_one hpos).mpr hle⟩
  · have hneg : ((b.y - a.y : Int) : Rat) < 0 := by exact_mod_cast (by omega : b.y - a.y < 0)
    have hnonpos : ((y - a.y : Int) : Rat) ≤ 0 := by exact_mod_cast (by omega : y - a.y ≤ 0)
    have hge : ((b.y - a.y : Int) : Rat) ≤ (y - a.y : Int) := by
      exact_mod_cast (by omega : b.y - a.y ≤ y - a.y)
    exact ⟨div_nonneg_of_nonpos hnonpos hneg.le, (div_le_one_of_neg hneg).mpr hge⟩

/-- Before rounding, an edge is crossed between its two ends, counted from one of them. -/
theorem le_offset {left : Int} (hla : left ≤ a.x) (hlb : left ≤ b.x)
    (h : straddles y a b = true) :
    ((left - a.x : Int) : Rat) ≤ (((b.x - a.x) * (y - a.y) : Int) : Rat) / (b.y - a.y : Int) := by
  obtain ⟨hnonneg, hle⟩ := part_bounds h
  have hnonpos : ((left - a.x : Int) : Rat) ≤ 0 := by exact_mod_cast Int.sub_nonpos_of_le hla
  have hless : ((left - a.x : Int) : Rat) ≤ (b.x - a.x : Int) := by
    exact_mod_cast Int.sub_le_sub_right hlb a.x
  rw [Int.cast_mul, mul_div_assoc]
  calc ((left - a.x : Int) : Rat)
      ≤ (left - a.x : Int) * (((y - a.y : Int) : Rat) / (b.y - a.y : Int)) :=
        le_mul_of_le_one_right hnonpos hle
    _ ≤ (b.x - a.x : Int) * (((y - a.y : Int) : Rat) / (b.y - a.y : Int)) :=
        mul_le_mul_of_nonneg_right hless hnonneg

theorem offset_le {right : Int} (har : a.x ≤ right) (hbr : b.x ≤ right)
    (h : straddles y a b = true) :
    (((b.x - a.x) * (y - a.y) : Int) : Rat) / (b.y - a.y : Int) ≤ (right - a.x : Int) := by
  obtain ⟨hnonneg, hle⟩ := part_bounds h
  have hright : (0 : Rat) ≤ (right - a.x : Int) := by exact_mod_cast Int.sub_nonneg_of_le har
  have hless : ((b.x - a.x : Int) : Rat) ≤ (right - a.x : Int) := by
    exact_mod_cast Int.sub_le_sub_right hbr a.x
  rw [Int.cast_mul, mul_div_assoc]
  calc ((b.x - a.x : Int) : Rat) * (((y - a.y : Int) : Rat) / (b.y - a.y : Int))
      ≤ (right - a.x : Int) * (((y - a.y : Int) : Rat) / (b.y - a.y : Int)) :=
        mul_le_mul_of_nonneg_right hless hnonneg
    _ ≤ (right - a.x : Int) := mul_le_of_le_one_right hright hle

/-- Signed words have at most 32 bits, and their differences at most 33. -/
theorem natAbs_lt_of_isSignedWord {i : Int} (h : IsSignedWord i) : i.natAbs < 2 ^ 53 := by
  unfold IsSignedWord at h
  omega

theorem natAbs_sub_lt_of_isSignedWord {i j : Int} (hi : IsSignedWord i) (hj : IsSignedWord j) :
    (i - j).natAbs < 2 ^ 53 := by
  unfold IsSignedWord at hi hj
  omega

/-- No rounding takes the crossing of an edge over an integer that both of its ends are behind. -/
theorem le_crossing {left : Int} (hleft : IsSignedWord left) (ha : IsSignedWord a.x)
    (hla : left ≤ a.x) (hlb : left ≤ b.x) (h : straddles y a b = true) :
    (left : Rat) ≤ crossing a b y := by
  have hslope := Binary64.le_nearest (natAbs_sub_lt_of_isSignedWord hleft ha) (le_offset hla hlb h)
  rw [Int.cast_sub left, sub_le_iff_le_add] at hslope
  refine Binary64.le_nearest (natAbs_lt_of_isSignedWord hleft) ?_
  rwa [Binary64.nearest_intCast (natAbs_lt_of_isSignedWord ha)]

theorem crossing_le {right : Int} (hright : IsSignedWord right) (ha : IsSignedWord a.x)
    (har : a.x ≤ right) (hbr : b.x ≤ right) (h : straddles y a b = true) :
    crossing a b y ≤ right := by
  have hslope :=
    Binary64.nearest_le (natAbs_sub_lt_of_isSignedWord hright ha) (offset_le har hbr h)
  rw [Int.cast_sub right, le_sub_iff_add_le] at hslope
  refine Binary64.nearest_le (natAbs_lt_of_isSignedWord hright) ?_
  rwa [Binary64.nearest_intCast (natAbs_lt_of_isSignedWord ha)]

/-! ## Boxes -/

/-- A point lies in the smallest box around some points, but not on its right or its lower edge. -/
structure InBox (points : List Point) (p : Point) : Prop where
  left : ∃ left, (points.map (·.x)).min? = some left ∧ left ≤ p.x
  right : ∃ right, (points.map (·.x)).max? = some right ∧ p.x < right
  top : ∃ top, (points.map (·.y)).min? = some top ∧ top ≤ p.y
  bottom : ∃ bottom, (points.map (·.y)).max? = some bottom ∧ p.y < bottom

theorem exists_min?_le {values : List Int} {i j : Int} (hmem : i ∈ values) (h : i ≤ j) :
    ∃ least, values.min? = some least ∧ least ≤ j := by
  obtain ⟨least, hleast⟩ := Option.isSome_iff_exists.mp (List.isSome_min?_of_mem hmem)
  exact ⟨least, hleast, Int.le_trans ((List.min?_eq_some_iff.mp hleast).2 i hmem) h⟩

theorem exists_lt_max? {values : List Int} {i j : Int} (hmem : i ∈ values) (h : j < i) :
    ∃ greatest, values.max? = some greatest ∧ j < greatest := by
  obtain ⟨greatest, hgreatest⟩ := Option.isSome_iff_exists.mp (List.isSome_max?_of_mem hmem)
  exact ⟨greatest, hgreatest, Int.lt_of_lt_of_le h ((List.max?_eq_some_iff.mp hgreatest).2 i hmem)⟩

/-! ## Hits -/

theorem contains_polygon (points : List Point) (p : Point) :
    (polygon points).contains p =
      (decide (3 ≤ points.length) &&
        (edges points).foldl (fun inside e => inside != crosses p e.1 e.2) false) := rfl

/-- Edges that are crossed where they lead from one side to the other make no point an inner one. -/
theorem contains_eq_false_of_turns (side : Point → Bool)
    (h : ∀ a b, (a, b) ∈ edges points → crosses p a b = (side a != side b)) :
    (polygon points).contains p = false := by
  have hturns : (edges points).foldl (fun inside e => inside != crosses p e.1 e.2) false =
      (edges points).foldl (fun inside e => inside != (side e.1 != side e.2)) false :=
    List.foldl_ext _ _ _ fun inside e he => congrArg (inside != ·) (h e.1 e.2 he)
  rw [contains_polygon, hturns, foldl_turns, Bool.and_false]

theorem exists_crosses_of_contains (h : (polygon points).contains p = true) :
    ∃ a b, (a, b) ∈ edges points ∧ crosses p a b = true := by
  by_contra hnone
  have hfalse : (polygon points).contains p = false :=
    contains_eq_false_of_turns (fun _ => false) fun a b hmem =>
      eq_false_of_ne_true fun hcrosses => hnone ⟨a, b, hmem, hcrosses⟩
  rw [h] at hfalse
  nomatch hfalse

/-- To the left of all corners every edge is crossed that the line of the point meets. -/
theorem crosses_eq_straddles (ha : IsSignedWord a.x) (hb : IsSignedWord b.x) (hpa : p.x < a.x)
    (hpb : p.x < b.x) : crosses p a b = straddles p.y a b := by
  rw [crosses_eq]
  cases hstraddles : straddles p.y a b with
  | false => rfl
  | true =>
      have hleft : IsSignedWord (min a.x b.x) := by
        rcases min_choice a.x b.x with h | h <;> rw [h] <;> assumption
      have hcrossing := le_crossing hleft ha (min_le_left _ _) (min_le_right _ _) hstraddles
      have hless : (p.x : Rat) < (min a.x b.x : Int) := by exact_mod_cast lt_min hpa hpb
      rw [decide_eq_true (hless.trans_le hcrossing)]
      rfl

theorem exists_le_of_contains (hwords : ∀ a ∈ points, IsSignedWord a.x)
    (h : (polygon points).contains p = true) : ∃ a ∈ points, a.x ≤ p.x := by
  by_contra hnone
  have hright : ∀ a ∈ points, p.x < a.x := fun a ha =>
    not_le.mp fun hle => hnone ⟨a, ha, hle⟩
  have hfalse : (polygon points).contains p = false :=
    contains_eq_false_of_turns (fun a => decide (p.y < a.y)) fun a b hmem => by
      obtain ⟨ha, hb⟩ := mem_of_mem_edges hmem
      exact crosses_eq_straddles (hwords a ha) (hwords b hb) (hright a ha) (hright b hb)
  rw [h] at hfalse
  nomatch hfalse

/-- An edge that is crossed to the right of a point has an end there. -/
theorem exists_lt_of_crosses (ha : IsSignedWord a.x) (hb : IsSignedWord b.x)
    (h : crosses p a b = true) : p.x < a.x ∨ p.x < b.x := by
  rw [crosses_eq, Bool.and_eq_true, decide_eq_true_eq] at h
  have hright : IsSignedWord (max a.x b.x) := by
    rcases max_choice a.x b.x with h | h <;> rw [h] <;> assumption
  have hcrossing := crossing_le hright ha (le_max_left _ _) (le_max_right _ _) h.1
  exact lt_max_iff.mp (by exact_mod_cast h.2.trans_le hcrossing)

/-- A polygon is hit only if it has three corners, and only inside the box around them. Its corners
may be anywhere as far to the left and to the right as signed words reach; how high they are makes
no difference, nor does where the point is. -/
theorem inBox_of_contains (points : List Point) (p : Point)
    (hwords : ∀ a ∈ points, IsSignedWord a.x) (h : (polygon points).contains p = true) :
    3 ≤ points.length ∧ InBox points p := by
  obtain ⟨a, b, hmem, hcrosses⟩ := exists_crosses_of_contains h
  obtain ⟨ha, hb⟩ := mem_of_mem_edges hmem
  have hstraddles : straddles p.y a b = true := by
    rw [crosses_eq, Bool.and_eq_true] at hcrosses
    exact hcrosses.1
  refine ⟨?_, ?_, ?_, ?_, ?_⟩
  · rw [contains_polygon, Bool.and_eq_true, decide_eq_true_eq] at h
    exact h.1
  · obtain ⟨c, hc, hle⟩ := exists_le_of_contains hwords h
    exact exists_min?_le (List.mem_map_of_mem hc) hle
  · rcases exists_lt_of_crosses (hwords a ha) (hwords b hb) hcrosses with hlt | hlt
    · exact exists_lt_max? (List.mem_map_of_mem ha) hlt
    · exact exists_lt_max? (List.mem_map_of_mem hb) hlt
  · rcases straddles_iff.mp hstraddles with ⟨hle, -⟩ | ⟨hle, -⟩
    · exact exists_min?_le (List.mem_map_of_mem ha) hle
    · exact exists_min?_le (List.mem_map_of_mem hb) hle
  · rcases straddles_iff.mp hstraddles with ⟨-, hlt⟩ | ⟨-, hlt⟩
    · exact exists_lt_max? (List.mem_map_of_mem hb) hlt
    · exact exists_lt_max? (List.mem_map_of_mem ha) hlt

/-- A bow tie: two of its edges cross each other. -/
def bowTie : List Point := [⟨0, 0⟩, ⟨7, 3⟩, ⟨7, 0⟩, ⟨0, 3⟩]

theorem inBox_of_contains_bowTie :
    (∀ a ∈ bowTie, IsSignedWord a.x) ∧ (polygon bowTie).contains ⟨6, 1⟩ = true ∧
      3 ≤ bowTie.length ∧ InBox bowTie ⟨6, 1⟩ := by
  have hwords : ∀ a ∈ bowTie, IsSignedWord a.x := by decide
  have hcontains : (polygon bowTie).contains ⟨6, 1⟩ = true := by decide +kernel
  exact ⟨hwords, hcontains, inBox_of_contains bowTie ⟨6, 1⟩ hwords hcontains⟩

end PointAndClick.Shape
