import PointAndClick.Proofs.Decoding.Scenes

/-!
# Loops that end by themselves

The loops of decoding are given a number of steps that the size of the buffer bounds. It never cuts
one of them short: each round takes some bytes, and more steps would give the same.
-/

set_option autoImplicit false

namespace PointAndClick

variable {b : Buffer}

/-! ## Words and records -/

theorem EventGroup.paddingEnd_add (limit extra : Nat) {fuel pos : Nat}
    (h : b.size ≤ pos + 4 * fuel) :
    paddingEnd b limit (fuel + extra) pos = paddingEnd b limit fuel pos := by
  induction fuel generalizing pos with
  | zero =>
      rw [Nat.zero_add]
      cases extra with
      | zero => rfl
      | succ extra =>
          -- the next word is not inside the buffer
          have hend : decide (pos + 4 ≤ b.size) = false := decide_eq_false (by omega)
          simp only [paddingEnd, hend, Bool.and_false, Bool.false_and, Bool.false_eq_true, if_false]
  | succ fuel ih =>
      rw [Nat.add_right_comm, paddingEnd, paddingEnd, ih (by omega)]

theorem EventGroup.paddingEnd_eq_skipPadding (limit extra pos : Nat) :
    paddingEnd b limit (b.size / 4 + 1 + extra) pos = (skipPadding b limit pos).1 := by
  rw [paddingEnd_add limit extra (by omega), skipPadding]
  split <;> rfl

theorem Record.search_eq_none {limit pos : Nat} (h : limit < pos + 4) (tries : Nat) :
    search b limit tries pos = none := by
  cases tries with
  | zero => rfl
  | succ tries => rw [search, if_pos h]

theorem Record.collect_add (maxDistance : Int) (extra : Nat) {limit fuel pos : Nat}
    (h : limit ≤ pos + fuel) :
    collect b limit maxDistance (fuel + extra) pos = collect b limit maxDistance fuel pos := by
  induction fuel generalizing pos with
  | zero =>
      rw [Nat.zero_add]
      cases extra with
      | zero => rfl
      | succ extra =>
          -- not even a tag is left before the limit
          have hlimit : limit < pos + 4 := by omega
          simp only [collect, search_eq_none hlimit]
  | succ fuel ih =>
      rw [Nat.add_right_comm, collect, collect]
      split
      · rfl
      · next r after hsearch =>
          have hbounds := search_bounds hsearch
          rw [ih (by omega)]

theorem Record.limit_le_size (b : Buffer) (stop : Option Int) : limit b stop ≤ b.size := by
  unfold limit
  split
  · exact Nat.le_refl _
  · exact Nat.min_le_right _ _

theorem Record.collect_eq_all (stop : Option Int) (maxDistance : Int) (extra pos : Nat) :
    collect b (limit b stop) maxDistance (b.size + extra) pos = all b pos stop maxDistance := by
  have hlimit := limit_le_size b stop
  exact collect_add maxDistance extra (by omega)

/-! ## Variables and descriptors -/

theorem Variable.collect_add (extra : Nat) {fuel count pos : Nat}
    (hpos : pos ≤ b.size) (h : b.size < pos + 8 * fuel) :
    collect b (fuel + extra) count pos = collect b fuel count pos := by
  induction fuel generalizing count pos with
  | zero => omega
  | succ fuel ih =>
      rw [Nat.add_right_comm]
      cases count with
      | zero => rfl
      | succ count =>
          rw [collect, collect]
          split
          · rfl
          · next v after hat =>
              have hbounds := at?_bounds hat
              rw [ih hbounds.2 (by omega)]

theorem Variable.collect_eq_table (extra count : Nat) {pos : Nat} (hpos : pos ≤ b.size) :
    collect b (b.size / 8 + 1 + extra) count pos = table b count pos :=
  collect_add extra hpos (by omega)

theorem Descriptor.collect_add (extra : Nat) {fuel count index pos : Nat}
    (hpos : pos ≤ b.size) (h : b.size < pos + 87 * fuel) :
    collect b (fuel + extra) count index pos = collect b fuel count index pos := by
  induction fuel generalizing count index pos with
  | zero => omega
  | succ fuel ih =>
      rw [Nat.add_right_comm]
      cases count with
      | zero => rfl
      | succ count =>
          rw [collect, collect]
          split
          · rfl
          · next start hstart =>
              have hbounds := start_bounds hpos hstart
              split
              · rfl
              · next d after hdecode =>
                  have htakes := takes_decode index b start d after hdecode
                  rw [ih (htakes.2 hbounds.2) (by omega)]

theorem Descriptor.collect_eq_all (extra count : Nat) {pos : Nat} (hpos : pos ≤ b.size) :
    collect b (b.size / 87 + 1 + extra) count 0 pos = all b count pos :=
  collect_add extra hpos (by omega)

/-! ## Scenes -/

theorem SceneStream.collect_add (maxDistance : Int) (extra : Nat) {fuel index pos : Nat}
    (hpos : pos ≤ b.size) (h : b.size < pos + 40 * fuel) :
    collect b maxDistance (fuel + extra) index pos = collect b maxDistance fuel index pos := by
  induction fuel generalizing index pos with
  | zero => omega
  | succ fuel ih =>
      have hskip := EventGroup.skipPadding_bounds b b.size pos
      rw [Nat.add_right_comm]
      dsimp only [collect]
      split
      · rfl
      · split
        · rfl
        · next s after hdecode =>
            obtain ⟨-, -, -, htakes, hsize⟩ := Scene.decode_eq_ok hdecode (hskip.2 hpos)
            rw [ih hsize (by omega)]

theorem SceneStream.collect_eq_read (maxDistance : Int) (extra : Nat) {start : Nat}
    (h : start + reservedWidth ≤ b.size) :
    (collect b maxDistance (b.size / 40 + 1 + extra) 0 (start + reservedWidth)).1 =
      (read b maxDistance start).scenes := by
  rw [collect_add maxDistance extra h (by omega), read, if_neg (Nat.not_lt.mpr h)]

end PointAndClick
