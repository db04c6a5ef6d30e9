import Mathlib.Algebra.Order.BigOperators.Group.List
import Mathlib.Algebra.Order.Ring.Nat
import Mathlib.Data.List.Nodup
import Mathlib.Data.List.Pairwise
import PointAndClick.Play.Timer

/-!
# The table of timers

Commands and users start timers, stop, pause and resume them, and put saved ones in place of all.
`TimerTable.Later` says what this may come to: a timer that is still there is as it was but for its
pause, and any other is new, with its first wait still to begin. The waits and ticks of a timer
change that one timer only (`TimerTable.mem_update`).

Whatever happens, the timers are told apart by their identifiers and by their serial numbers, and no
interval is too short (`TimerTable.Apart`).
-/

set_option autoImplicit false

namespace PointAndClick

/-- The timer is as it was, but that it may have been paused or resumed. -/
structure Timer.Stays (x y : Timer) : Prop where
  serial : y.serial = x.serial
  id : y.id = x.id
  interval : y.interval = x.interval
  tickCount : y.tickCount = x.tickCount
  phase : y.phase = x.phase ∨ x.phase = .awaiting ∧ y.phase = .woken

namespace Timer

theorem Stays.refl (x : Timer) : Stays x x := ⟨rfl, rfl, rfl, rfl, .inl rfl⟩

theorem Stays.trans {x y z : Timer} (h : Stays x y) (h' : Stays y z) : Stays x z := by
  refine ⟨h'.serial.trans h.serial, h'.id.trans h.id, h'.interval.trans h.interval,
    h'.tickCount.trans h.tickCount, ?_⟩
  rcases h'.phase with hsame | ⟨hawaiting, hwoken⟩
  · rw [hsame]
    exact h.phase
  · -- what awaits now was not woken before
    rcases h.phase with hsame | ⟨-, hwoken'⟩
    · exact .inr ⟨hsame.symm.trans hawaiting, hwoken⟩
    · rw [hwoken'] at hawaiting
      nomatch hawaiting

theorem stays_pause (x : Timer) : Stays x x.pause := ⟨rfl, rfl, rfl, rfl, .inl rfl⟩

theorem stays_resume (x : Timer) : Stays x x.resume := by
  refine ⟨rfl, rfl, rfl, rfl, ?_⟩
  unfold resume isAwaiting
  by_cases hawaiting : x.phase = .awaiting
  · exact .inr ⟨hawaiting, if_pos (decide_eq_true hawaiting)⟩
  · exact .inl (if_neg (by simpa using hawaiting))

end Timer

namespace TimerTable

variable {t t' : TimerTable}

/-- The timers are told apart by their identifiers and by their serial numbers, which go up, and no
interval is too short. -/
structure Apart (t : TimerTable) : Prop where
  serials : (t.timers.map (·.serial)).Pairwise (· < ·)
  below : ∀ x ∈ t.timers, x.serial < t.nextSerial
  ids : (t.timers.map (·.id)).Nodup
  clamped : ∀ x ∈ t.timers, t.minInterval ≤ x.interval

theorem apart_of_nil (h : t.timers = []) : t.Apart where
  serials := by rw [h]; exact .nil
  below _ hx := by rw [h] at hx; nomatch hx
  ids := by rw [h]; exact .nil
  clamped _ hx := by rw [h] at hx; nomatch hx

theorem Apart.eq_of_serial (h : t.Apart) {x y : Timer} (hx : x ∈ t.timers) (hy : y ∈ t.timers)
    (heq : x.serial = y.serial) : x = y :=
  List.inj_on_of_nodup_map (h.serials.imp Nat.ne_of_lt) hx hy heq

theorem Apart.eq_of_id (h : t.Apart) {x y : Timer} (hx : x ∈ t.timers) (hy : y ∈ t.timers)
    (heq : x.id = y.id) : x = y :=
  List.inj_on_of_nodup_map h.ids hx hy heq

theorem Apart.get?_eq_some (h : t.Apart) {x : Timer} (hx : x ∈ t.timers) :
    t.get? x.id = some x := by
  unfold get?
  cases hfound : t.timers.find? (·.id = x.id) with
  | none => exact absurd (List.find?_eq_none.mp hfound x hx) (by simp)
  | some y =>
      have hid : y.id = x.id := by simpa using List.find?_some hfound
      rw [h.eq_of_id (List.mem_of_find?_eq_some hfound) hx hid]

theorem Apart.bySerial?_eq_some (h : t.Apart) {x : Timer} (hx : x ∈ t.timers) :
    t.bySerial? x.serial = some x := by
  unfold bySerial?
  cases hfound : t.timers.find? (·.serial = x.serial) with
  | none => exact absurd (List.find?_eq_none.mp hfound x hx) (by simp)
  | some y =>
      have hserial : y.serial = x.serial := by simpa using List.find?_some hfound
      rw [h.eq_of_serial (List.mem_of_find?_eq_some hfound) hx hserial]

theorem mem_of_get? {id : String} {x : Timer} (h : t.get? id = some x) :
    x ∈ t.timers ∧ x.id = id :=
  ⟨List.mem_of_find?_eq_some h, by simpa using List.find?_some h⟩

theorem mem_of_bySerial? {serial : Nat} {x : Timer} (h : t.bySerial? serial = some x) :
    x ∈ t.timers ∧ x.serial = serial :=
  ⟨List.mem_of_find?_eq_some h, by simpa using List.find?_some h⟩

theorem bySerial?_eq_none_iff {serial : Nat} :
    t.bySerial? serial = none ↔ ∀ x ∈ t.timers, x.serial ≠ serial := by
  simp [bySerial?, List.find?_eq_none]

/-- The waits are those of the timers that sleep. -/
theorem mem_dues {time order serial : Nat} : (time, order, serial) ∈ t.dues ↔
    ∃ x ∈ t.timers, x.serial = serial ∧ x.phase = .asleep time order := by
  refine List.mem_filterMap.trans (exists_congr fun x => and_congr_right fun _ => ?_)
  unfold dueOf?
  cases x.phase <;> simp [and_comm, and_assoc]

/-! ## What commands and users do -/

/-- The timers that are still there are as they were but for their pauses, and others are new. -/
structure Later (t t' : TimerTable) : Prop where
  minInterval : t'.minInterval = t.minInterval
  nextSerial : t.nextSerial ≤ t'.nextSerial
  timers : ∀ y ∈ t'.timers,
    (∃ x ∈ t.timers, x.Stays y) ∨ t.nextSerial ≤ y.serial ∧ y.phase = .fresh
  apart : t.Apart → t'.Apart

theorem Later.refl (t : TimerTable) : Later t t :=
  ⟨rfl, Nat.le_refl _, fun y hy => .inl ⟨y, hy, .refl y⟩, id⟩

theorem Later.trans {t₁ t₂ t₃ : TimerTable} (h : Later t₁ t₂) (h' : Later t₂ t₃) :
    Later t₁ t₃ := by
  refine ⟨h'.minInterval.trans h.minInterval, Nat.le_trans h.nextSerial h'.nextSerial,
    fun z hz => ?_, fun hapart => h'.apart (h.apart hapart)⟩
  rcases h'.timers z hz with ⟨y, hy, hyz⟩ | ⟨hserial, hfresh⟩
  · rcases h.timers y hy with ⟨x, hx, hxy⟩ | ⟨hserial, hfresh⟩
    · exact .inl ⟨x, hx, hxy.trans hyz⟩
    · refine .inr ⟨hyz.serial ▸ hserial, ?_⟩
      rcases hyz.phase with hsame | ⟨hawaiting, -⟩
      · exact hsame.trans hfresh
      · rw [hfresh] at hawaiting
        nomatch hawaiting
  · exact .inr ⟨Nat.le_trans h.nextSerial hserial, hfresh⟩

theorem later_filter (p : Timer → Bool) : Later t { t with timers := t.timers.filter p } where
  minInterval := rfl
  nextSerial := Nat.le_refl _
  timers y hy := .inl ⟨y, List.mem_of_mem_filter hy, .refl y⟩
  apart h :=
    { serials := h.serials.sublist (List.filter_sublist.map _)
      below := fun x hx => h.below x (List.mem_of_mem_filter hx)
      ids := h.ids.sublist (List.filter_sublist.map _)
      clamped := fun x hx => h.clamped x (List.mem_of_mem_filter hx) }

/-- A change that leaves a timer its identifier, its serial number and its interval leaves the
timers apart. -/
theorem Apart.map {f : Timer → Timer} (h : t.Apart) (hserial : ∀ x, (f x).serial = x.serial)
    (hid : ∀ x, (f x).id = x.id) (hinterval : ∀ x, (f x).interval = x.interval) (paused : Bool) :
    Apart { t with paused, timers := t.timers.map f } where
  serials := by
    have hsame : (t.timers.map f).map (·.serial) = t.timers.map (·.serial) := by
      rw [List.map_map]
      exact List.map_congr_left fun x _ => hserial x
    exact hsame ▸ h.serials
  below y hy := by
    obtain ⟨x, hx, rfl⟩ := List.mem_map.mp hy
    rw [hserial]
    exact h.below x hx
  ids := by
    have hsame : (t.timers.map f).map (·.id) = t.timers.map (·.id) := by
      rw [List.map_map]
      exact List.map_congr_left fun x _ => hid x
    exact hsame ▸ h.ids
  clamped y hy := by
    obtain ⟨x, hx, rfl⟩ := List.mem_map.mp hy
    rw [hinterval]
    exact h.clamped x hx

theorem later_map {f : Timer → Timer} (hf : ∀ x, Timer.Stays x (f x)) (paused : Bool) :
    Later t { t with paused, timers := t.timers.map f } where
  minInterval := rfl
  nextSerial := Nat.le_refl _
  timers y hy := by
    obtain ⟨x, hx, rfl⟩ := List.mem_map.mp hy
    exact .inl ⟨x, hx, hf x⟩
  apart h := h.map (fun x => (hf x).serial) (fun x => (hf x).id) (fun x => (hf x).interval) paused

theorem later_stop (id : String) : Later t (t.stop id) := later_filter _

theorem later_stopAll : Later t t.stopAll where
  minInterval := rfl
  nextSerial := Nat.le_refl _
  timers _ hy := nomatch hy
  apart _ := apart_of_nil rfl

/-- Of those that a table may have, a timer with the next serial number and a new identifier is told
apart. -/
theorem Apart.append {x : Timer} (h : t.Apart) (hserial : x.serial = t.nextSerial)
    (hid : ∀ y ∈ t.timers, y.id ≠ x.id) (hinterval : t.minInterval ≤ x.interval) :
    Apart { t with timers := t.timers ++ [x], nextSerial := t.nextSerial + 1 } where
  serials := by
    rw [List.map_append]
    refine List.pairwise_append.mpr ⟨h.serials, List.pairwise_singleton _ _, ?_⟩
    intro serial hmem serial' hmem'
    obtain ⟨y, hy, rfl⟩ := List.mem_map.mp hmem
    rw [List.map_singleton, List.mem_singleton] at hmem'
    rw [hmem', hserial]
    exact h.below y hy
  below y hy := by
    rcases List.mem_append.mp hy with hold | hnew
    · exact Nat.lt_succ_of_lt (h.below y hold)
    · rw [List.mem_singleton.mp hnew, hserial]
      exact Nat.lt_succ_self _
  ids := by
    rw [List.map_append]
    refine List.nodup_append.mpr ⟨h.ids, List.nodup_singleton _, ?_⟩
    intro id hmem id' hmem'
    obtain ⟨y, hy, rfl⟩ := List.mem_map.mp hmem
    rw [List.map_singleton, List.mem_singleton] at hmem'
    rw [hmem']
    exact hid y hy
  clamped y hy := by
    rcases List.mem_append.mp hy with hold | hnew
    · exact h.clamped y hold
    · rw [List.mem_singleton.mp hnew]
      exact hinterval

theorem later_start (id : String) (interval : Int) (commands : List Instruction)
    (tickCount : Int) : Later t (t.start id interval commands tickCount).1 where
  minInterval := rfl
  nextSerial := Nat.le_succ _
  timers y hy := by
    rcases List.mem_append.mp hy with hold | hnew
    · exact .inl ⟨y, List.mem_of_mem_filter hold, .refl y⟩
    · rw [List.mem_singleton.mp hnew]
      exact .inr ⟨Nat.le_refl _, rfl⟩
  apart h := by
    refine ((later_stop id).apart h).append rfl (fun y hy => ?_) ?_
    · simpa using (List.mem_filter.mp hy).2
    · exact Int.le_trans (Int.le_max_left _ _) (Int.self_le_toNat _)

theorem later_pause (id : Option String) : Later t (t.pause id) := by
  cases id with
  | none => exact later_map Timer.stays_pause true
  | some id =>
      refine later_map (fun x => ?_) t.paused
      split
      · exact x.stays_pause
      · exact .refl x

theorem later_resume (id : Option String) : Later t (t.resume id).1 := by
  cases id with
  | none => exact later_map Timer.stays_resume false
  | some id =>
      refine later_map (fun x => ?_) t.paused
      split
      · exact x.stays_resume
      · exact .refl x

theorem later_startSaved {entry : Json} {timer : Timer}
    (h : t.startSaved entry = .ok (t', timer)) : Later t t' := by
  simp only [startSaved, bind, Except.bind] at h
  repeat' split at h
  all_goals cases h
  · exact (later_start _ _ _ _).trans (later_pause _)
  · exact later_start _ _ _ _

theorem later_startAllSaved (entries : List Json) : Later t (t.startAllSaved entries).1 := by
  induction entries generalizing t with
  | nil => exact .refl t
  | cons entry entries ih =>
      unfold startAllSaved
      split
      · exact .refl t
      · rename_i hstart
        exact (later_startSaved hstart).trans ih

theorem later_restore (state : Json) : Later t (t.restore state).1 := by
  unfold restore
  split
  · exact later_stopAll
  · exact later_stopAll.trans (later_startAllSaved _)

/-! ## What a timer does -/

theorem mem_update {serial : Nat} {change : Timer → Timer} {y : Timer}
    (h : y ∈ (t.update serial change).timers) :
    ∃ x ∈ t.timers, (x.serial ≠ serial ∧ y = x) ∨ (x.serial = serial ∧ y = change x) := by
  obtain ⟨x, hx, rfl⟩ := List.mem_map.mp h
  refine ⟨x, hx, ?_⟩
  split
  · rename_i hserial
    exact .inr ⟨hserial, rfl⟩
  · rename_i hserial
    exact .inl ⟨hserial, rfl⟩

/-- The timer of a serial number is the one that is changed. -/
theorem bySerial?_update {serial : Nat} (change : Timer → Timer)
    (hchange : ∀ x, (change x).serial = x.serial) :
    (t.update serial change).bySerial? serial = (t.bySerial? serial).map change := by
  have hsame : (fun x : Timer => decide (x.serial = serial)) ∘
      (fun x => if x.serial = serial then change x else x) =
      fun x => decide (x.serial = serial) := by
    funext x
    dsimp only [Function.comp]
    split
    · rw [hchange]
    · rfl
  unfold bySerial? update
  dsimp only
  rw [List.find?_map, hsame]
  cases hfound : t.timers.find? fun x => decide (x.serial = serial) with
  | none => rfl
  | some x =>
      have hserial : x.serial = serial := by simpa using List.find?_some hfound
      exact congrArg some (if_pos hserial)

theorem Apart.update {change : Timer → Timer} (h : t.Apart) (serial : Nat)
    (hchange : ∀ x, ∃ phase tickCount, change x = { x with phase, tickCount }) :
    (t.update serial change).Apart := by
  have hkeeps (x : Timer) : ∃ phase tickCount,
      (if x.serial = serial then change x else x) = { x with phase, tickCount } := by
    split
    · exact hchange x
    · exact ⟨x.phase, x.tickCount, rfl⟩
  refine h.map (fun x => ?_) (fun x => ?_) (fun x => ?_) t.paused
  all_goals
    obtain ⟨phase, tickCount, heq⟩ := hkeeps x
    rw [heq]

/-! ## Weights -/

/-- What the timers weigh together. -/
def weight (w : Timer → Nat) (t : TimerTable) : Nat := (t.timers.map w).sum

variable {w : Timer → Nat}

theorem weight_stop_le (id : String) : weight w (t.stop id) ≤ weight w t :=
  (List.filter_sublist.map w).sum_le_sum fun _ _ => Nat.zero_le _

/-- A timer that starts weighs nothing as long as its first wait has not begun. -/
theorem weight_start_le (hfresh : ∀ x, x.phase = .fresh → w x = 0) (id : String) (interval : Int)
    (commands : List Instruction) (tickCount : Int) :
    weight w (t.start id interval commands tickCount).1 ≤ weight w t := by
  have hnew := hfresh (t.start id interval commands tickCount).2 rfl
  have hstop := weight_stop_le (t := t) (w := w) id
  unfold weight at hstop ⊢
  show (((t.stop id).timers ++ [(t.start id interval commands tickCount).2]).map w).sum ≤ _
  rw [List.map_append, List.sum_append, List.map_singleton, hnew]
  exact hstop

theorem weight_map_le {f : Timer → Timer} (hf : ∀ x, w (f x) ≤ w x) (paused : Bool) :
    weight w { t with paused, timers := t.timers.map f } ≤ weight w t := by
  unfold weight
  rw [List.map_map]
  exact List.sum_le_sum fun x _ => hf x

theorem weight_pause_le (hstays : ∀ x y, Timer.Stays x y → w y ≤ w x) (id : Option String) :
    weight w (t.pause id) ≤ weight w t := by
  cases id with
  | none => exact weight_map_le (fun x => hstays x _ x.stays_pause) true
  | some id =>
      refine weight_map_le (fun x => hstays x _ ?_) t.paused
      split
      · exact x.stays_pause
      · exact .refl x

theorem weight_resume_le (hstays : ∀ x y, Timer.Stays x y → w y ≤ w x) (id : Option String) :
    weight w (t.resume id).1 ≤ weight w t := by
  cases id with
  | none => exact weight_map_le (fun x => hstays x _ x.stays_resume) false
  | some id =>
      refine weight_map_le (fun x => hstays x _ ?_) t.paused
      split
      · exact x.stays_resume
      · exact .refl x

/-- Saved timers that start in place of all others weigh nothing. -/
theorem weight_restore_le (hstays : ∀ x y, Timer.Stays x y → w y ≤ w x)
    (hfresh : ∀ x, x.phase = .fresh → w x = 0) (state : Json) :
    weight w (t.restore state).1 ≤ weight w t := by
  have hsaved {t t' : TimerTable} {entry : Json} {timer : Timer}
      (h : t.startSaved entry = .ok (t', timer)) : weight w t' ≤ weight w t := by
    simp only [startSaved, bind, Except.bind] at h
    repeat' split at h
    all_goals cases h
    · exact Nat.le_trans (weight_pause_le hstays _) (weight_start_le hfresh _ _ _ _)
    · exact weight_start_le hfresh _ _ _ _
  have hall (entries : List Json) (t : TimerTable) :
      weight w (t.startAllSaved entries).1 ≤ weight w t := by
    induction entries generalizing t with
    | nil => exact Nat.le_refl _
    | cons entry entries ih =>
        unfold startAllSaved
        split
        · exact Nat.le_refl _
        · rename_i hstart
          exact Nat.le_trans (ih _) (hsaved hstart)
  have hnone : weight w t.stopAll ≤ weight w t := Nat.zero_le _
  unfold restore
  split
  · exact hnone
  · exact Nat.le_trans (hall _ _) hnone

theorem weight_update_le {serial : Nat} {change : Timer → Timer} (h : ∀ x, w (change x) ≤ w x) :
    weight w (t.update serial change) ≤ weight w t := by
  refine weight_map_le (fun x => ?_) t.paused
  split
  · exact h x
  · exact Nat.le_refl _

/-- A timer that no longer weighs anything makes the table as much lighter. -/
theorem weight_update_add_le {serial : Nat} {change : Timer → Timer} {x : Timer}
    (hx : x ∈ t.timers) (hserial : x.serial = serial) (h : ∀ y, w (change y) = 0) :
    weight w (t.update serial change) + w x ≤ weight w t := by
  obtain ⟨before, after, htimers⟩ := List.append_of_mem hx
  have hle (ys : List Timer) :
      ((ys.map fun y => if y.serial = serial then change y else y).map w).sum ≤ (ys.map w).sum := by
    rw [List.map_map]
    refine List.sum_le_sum fun y _ => ?_
    show w (if y.serial = serial then change y else y) ≤ w y
    split
    · exact h y ▸ Nat.zero_le _
    · exact Nat.le_refl _
  have hbefore := hle before
  have hafter := hle after
  unfold weight update
  rw [htimers]
  simp only [List.map_append, List.map_cons, List.sum_append, List.sum_cons, if_pos hserial, h]
  omega

end TimerTable

end PointAndClick
