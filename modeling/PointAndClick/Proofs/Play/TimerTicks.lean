import PointAndClick.Proofs.Play.TimerRuns

/-!
# The ticks of timers on their own

A timer that is neither stopped nor replaced has yet to wait its interval out since its last tick,
or it has, or the tick goes on (`TimerRun.Dial.Stands`). Every beat keeps this, and a timer that
comes due has the next count and has waited its interval out (`TimerRun.keeps_beat`). So the ticks
of a timer count on one by one, with at least its interval before each, in any run
(`TimerRun.keeps_time`).
-/

set_option autoImplicit false

namespace PointAndClick

namespace TimerRun

variable {r : TimerRun} {c c' : Dial}

/-! ## How a timer stands -/

/-- What is told of a tick. -/
def told (tick : Tick) : TimerEvent := .tick tick.time tick.timer.id tick.timer.tickCount

/-- How a timer stands that started, or ticked last, with a count at a time, as long as it is
neither stopped nor replaced. -/
structure Dial.Stands (c : Dial) (x : Timer) (count : Int) (last : Nat) : Prop where
  past : last ≤ c.now
  known : x.serial < c.timers.nextSerial
  timer : ∀ y ∈ c.timers.timers, y.serial = x.serial →
    y.id = x.id ∧ y.interval = x.interval ∧ y.tickCount = count ∧
      (y.phase = .ticking ∨ y.HasRested last c.now)

/-- Between two dials, the ticks of each timer that stands somehow count on one by one, and at least
its interval passes before each. -/
def Keeps (c c' : Dial) : Prop :=
  ∃ ticks : List Tick, c'.told = c.told ++ ticks.map told ∧
    ∀ x count last, c.Stands x count last → x.Ticked count last (Tick.ofSerial x.serial ticks) ∧
      c'.Stands x (count + (Tick.ofSerial x.serial ticks).length)
        (Tick.last last (Tick.ofSerial x.serial ticks))

variable {x : Timer} {count : Int} {last : Nat}

/-- Without a tick a timer stands as before. -/
theorem keeps_silent (htold : c'.told = c.told)
    (hstands : ∀ x count last, c.Stands x count last → c'.Stands x count last) : Keeps c c' := by
  refine ⟨[], by rw [htold, List.map_nil, List.append_nil], fun x count last h => ⟨trivial, ?_⟩⟩
  show c'.Stands x (count + 0) last
  rw [Int.add_zero]
  exact hstands x count last h

theorem Keeps.refl (c : Dial) : Keeps c c := keeps_silent rfl fun _ _ _ h => h

theorem Keeps.trans {c₁ c₂ c₃ : Dial} (h : Keeps c₁ c₂) (h' : Keeps c₂ c₃) : Keeps c₁ c₃ := by
  obtain ⟨ticks, htold, hkeeps⟩ := h
  obtain ⟨ticks', htold', hkeeps'⟩ := h'
  refine ⟨ticks ++ ticks', by rw [htold', htold, List.map_append, List.append_assoc],
    fun x count last hstands => ?_⟩
  obtain ⟨hticked, hstands⟩ := hkeeps x count last hstands
  obtain ⟨hticked', hstands⟩ := hkeeps' x _ _ hstands
  rw [Tick.ofSerial_append]
  refine ⟨Timer.ticked_append hticked hticked', ?_⟩
  rw [List.length_append, Int.natCast_add, ← Int.add_assoc, Tick.last, List.foldl_append]
  exact hstands

/-- One timer is changed, and stands as before if it is the one. -/
theorem Dial.Stands.update (h : c.Stands x count last) {serial : Nat} {change : Timer → Timer}
    (hchange : ∀ y, ∃ phase tickCount, change y = { y with phase, tickCount })
    (hown : ∀ y ∈ c.timers.timers, y.serial = serial → y.serial = x.serial →
      (y.phase = .ticking ∨ y.HasRested last c.now) → (change y).tickCount = y.tickCount ∧
        ((change y).phase = .ticking ∨ (change y).HasRested last c.now)) :
    Dial.Stands { c with timers := c.timers.update serial change } x count last := by
  refine ⟨h.past, h.known, fun y hy hserial => ?_⟩
  obtain ⟨z, hz, ⟨-, rfl⟩ | ⟨hsame, rfl⟩⟩ := TimerTable.mem_update hy
  · exact h.timer y hz hserial
  · obtain ⟨phase, tickCount, heq⟩ := hchange z
    have hz' : z.serial = x.serial := by
      rw [heq] at hserial
      exact hserial
    obtain ⟨hid, hinterval, hcount, hstage⟩ := h.timer z hz hz'
    obtain ⟨hcount', hstage'⟩ := hown z hz hsame hz' hstage
    refine ⟨?_, ?_, hcount'.trans hcount, hstage'⟩
    · rw [heq]
      exact hid
    · rw [heq]
      exact hinterval

/-- A timer that comes due has waited its interval out. -/
theorem keeps_tick {y : Timer} (hapart : c.timers.Apart) (hy : y ∈ c.timers.timers)
    (hready : y.IsReady c.now) : Keeps c (c.ticked y) := by
  refine ⟨[⟨y.comeDue, c.now⟩], rfl, fun x count last h => ?_⟩
  by_cases hserial : y.serial = x.serial
  · obtain ⟨hid, hinterval, hcount, hstage⟩ := h.timer y hy hserial
    have hrests : x.Rests last c.now := by
      have hrested := (hstage.resolve_left hready.phase_ne_ticking).rests hready
      unfold Timer.Rests at hrested ⊢
      rw [← hinterval]
      exact hrested
    have hcount' : y.tickCount + 1 = count + 1 := by rw [hcount]
    have hown : Tick.ofSerial x.serial [⟨y.comeDue, c.now⟩] = [⟨y.comeDue, c.now⟩] :=
      List.filter_cons_of_pos (decide_eq_true hserial)
    rw [hown]
    refine ⟨⟨hid, hcount', hrests, trivial⟩, Nat.le_refl _, h.known, fun z hz hz' => ?_⟩
    obtain ⟨w, hw, ⟨hother, rfl⟩ | ⟨hsame, rfl⟩⟩ := TimerTable.mem_update hz
    · exact absurd (hz'.trans hserial.symm) hother
    · obtain rfl := hapart.eq_of_serial hw hy hsame
      exact ⟨hid, hinterval, hcount', .inl rfl⟩
  · have hother : Tick.ofSerial x.serial [⟨y.comeDue, c.now⟩] = [] :=
      List.filter_cons_of_neg fun hsame => hserial (of_decide_eq_true hsame)
    rw [hother]
    have hstands : Dial.Stands { c with timers := c.timers.beginTick y.serial } x count last :=
      h.update (fun _ => ⟨_, _, rfl⟩) fun z hz hsame hz' => absurd (hsame.symm.trans hz') hserial
    refine ⟨trivial, hstands.past, hstands.known, fun z hz hz' => ?_⟩
    obtain ⟨hid, hinterval, hcount, hstage⟩ := hstands.timer z hz hz'
    exact ⟨hid, hinterval, hcount.trans (Int.add_zero count).symm, hstage⟩

theorem keeps_beat (hapart : c.timers.Apart) (hbeat : Beat c c') : Keeps c c' := by
  cases hbeat with
  | change hlater =>
      refine keeps_silent rfl fun x count last h => ?_
      refine ⟨h.past, Nat.lt_of_lt_of_le h.known hlater.nextSerial, fun y hy hserial => ?_⟩
      rcases hlater.timers y hy with ⟨z, hz, hstays⟩ | ⟨hnew, -⟩
      · obtain ⟨hid, hinterval, hcount, hstage⟩ := h.timer z hz (hstays.serial ▸ hserial)
        refine ⟨hstays.id.trans hid, hstays.interval.trans hinterval,
          hstays.tickCount.trans hcount, ?_⟩
        refine hstage.imp (fun hticking => ?_) (·.stays hstays)
        rcases hstays.phase with hsame | ⟨hawaiting, -⟩
        · exact hsame.trans hticking
        · rw [hticking] at hawaiting
          nomatch hawaiting
      -- a timer that is new has another serial number
      · rw [hserial] at hnew
        exact absurd h.known (Nat.not_lt.mpr hnew)
  | beginWait serial order =>
      refine keeps_silent rfl fun x count last h => ?_
      refine h.update (fun _ => ⟨_, _, rfl⟩) fun y _ _ _ _ => ⟨rfl, .inr ?_⟩
      exact Timer.hasRested_wait h.past order
  | sleep hlater => exact keeps_silent rfl fun x count last h => ⟨h.past, h.known, h.timer⟩
  | @await y due order hy hphase hdue =>
      refine keeps_silent rfl fun x count last h => ?_
      refine h.update (fun _ => ⟨_, _, rfl⟩) fun z hz hsame _ hstage => ⟨rfl, .inr ?_⟩
      obtain rfl := hapart.eq_of_serial hz hy hsame
      have hready : z.IsReady c.now := .inr ⟨due, order, hphase, hdue⟩
      exact (hstage.resolve_left hready.phase_ne_ticking).rests hready
  | tick hy hready => exact keeps_tick hapart hy hready

theorem Keeps.pass (h : Keeps c c') {now : Nat} (hnow : c'.now ≤ now) :
    Keeps c { c' with now } := by
  refine h.trans (keeps_silent rfl fun x count last h => ?_)
  refine ⟨Nat.le_trans h.past hnow, h.known, fun y hy hserial => ?_⟩
  obtain ⟨hid, hinterval, hcount, hstage⟩ := h.timer y hy hserial
  exact ⟨hid, hinterval, hcount, hstage.imp id (·.later hnow)⟩

theorem keeps_beats (hapart : c.timers.Apart) (hbeats : Beats c c') :
    c'.timers.Apart ∧ Keeps c c' := by
  induction hbeats with
  | refl => exact ⟨hapart, .refl c⟩
  | tail _ hbeat ih =>
      obtain ⟨hapart', hkeeps⟩ := ih
      exact ⟨hbeat.apart hapart', hkeeps.trans (keeps_beat hapart' hbeat)⟩

theorem keeps_wake (hapart : r.timers.Apart) {d : Due} (hd : d ∈ r.dues) :
    (r.wake d).timers.Apart ∧ Keeps r.dial (r.wake d).dial := by
  obtain ⟨c, hends, hbeats⟩ := ends_wake hapart hd
  let r₁ : TimerRun := { r with now := max r.now d.time }
  have hpassed : Keeps r.dial r₁.dial := (Keeps.refl r.dial).pass (Nat.le_max_left _ _)
  have hended : c.timers.Apart ∧ Keeps r₁.dial c := by
    cases hends with
    | tick => exact ⟨hapart, keeps_silent rfl fun _ _ _ h => ⟨h.past, h.known, h.timer⟩⟩
    | timer hwaiter hbeat => exact ⟨hbeat.apart hapart, keeps_beat hapart hbeat⟩
  obtain ⟨hapart', hkeeps⟩ := keeps_beats hended.1 hbeats
  exact ⟨hapart', (hpassed.trans hended.2).trans hkeeps⟩

theorem keeps_advance (hapart : r.timers.Apart) (duration : Nat) :
    (r.advance duration).timers.Apart ∧ Keeps r.dial (r.advance duration).dial := by
  let P (r' : TimerRun) : Prop :=
    r'.timers.Apart ∧ Keeps r.dial r'.dial ∧ r'.now ≤ r.now + duration
  have hpassed : P (schedule.passUntil (r.now + duration) r) := by
    refine rounds_keeps (P := P) ?_ _ ⟨hapart, .refl _, Nat.le_add_right _ _⟩
    rintro r' ⟨hapart', hkeeps, hnow⟩
    unfold Schedule.wakeNext
    split
    · exact ⟨hapart', hkeeps, hnow⟩
    · rename_i d hnext
      obtain ⟨hfirst, htime⟩ := Schedule.next?_eq_some hnext
      have hd : d ∈ r'.dues := Due.mem_of_first hfirst
      have hsettles := beats_settle (r'.wake d)
      obtain ⟨hwoken, hkeeps'⟩ := keeps_wake hapart' hd
      obtain ⟨hsettled, hkeeps''⟩ := keeps_beats hwoken hsettles
      refine ⟨hsettled, (hkeeps.trans hkeeps').trans hkeeps'', ?_⟩
      have hsame : (schedule.settle (r'.wake d)).now = max r'.now d.time :=
        hsettles.now_eq.trans (now_wake hapart' hd)
      exact Nat.le_trans (Nat.le_of_eq hsame) (Nat.max_le.mpr ⟨hnow, htime⟩)
  exact ⟨hpassed.1, hpassed.2.1.pass hpassed.2.2⟩

theorem keeps_after (hapart : r.timers.Apart) (moves : List TimerMove) :
    (r.after moves).timers.Apart ∧ Keeps r.dial (r.after moves).dial := by
  induction moves generalizing r with
  | nil => exact ⟨hapart, .refl _⟩
  | cons move moves ih =>
      have hmove : (r.move move).timers.Apart ∧ Keeps r.dial (r.move move).dial := by
        cases move with
        | perform request =>
            exact keeps_beats hapart ((beats_ask request).trans (beats_settle _))
        | advance duration => exact keeps_advance hapart duration
      obtain ⟨hapart', hkeeps⟩ := ih hmove.1
      exact ⟨hapart', hmove.2.trans hkeeps⟩

/-- A timer that starts is in the table, and has not yet begun to wait. -/
theorem stands_ask {id : String} {interval : Json} {lines : List String}
    (hapart : r.timers.Apart)
    (h : (r.ask (.start id interval lines count)).2 = .ok (.timer x)) :
    (r.ask (.start id interval lines count)).1.dial.Stands x count r.now := by
  obtain ⟨n, commands, htimers, hx⟩ : ∃ n commands,
      (r.ask (.start id interval lines count)).1.timers =
        (r.timers.start id n commands count).1 ∧
      x = (r.timers.start id n commands count).2 := by
    unfold ask start at h ⊢
    dsimp only at h ⊢
    split at h
    · nomatch h
    · split at h
      · nomatch h
      · cases h
        exact ⟨_, _, rfl, rfl⟩
  have hapart' := (TimerTable.later_start id n commands count).apart hapart
  have hthere : x ∈ (r.timers.start id n commands count).1.timers :=
    hx ▸ List.mem_append_right _ List.mem_cons_self
  rw [dial_ask, htimers]
  refine ⟨Nat.le_refl _, hx ▸ Nat.lt_succ_self _, fun y hy hserial => ?_⟩
  rw [hapart'.eq_of_serial hy hthere hserial, hx]
  exact ⟨rfl, rfl, rfl, .inr trivial⟩

/-- **No tick is early or counted twice.** From its start on, the ticks of a timer count on one by
one, and at least its interval passes before each, whatever is done meanwhile: by the user, by the
ticks of other timers that overlap its own, or by its own ticks. -/
theorem keeps_time (minInterval : Int) (scripts : List (String × List TimerAction))
    (before after : List TimerMove) {id : String} {interval : Json} {lines : List String}
    (h : (((idle minInterval scripts).after before).perform
      (.start id interval lines count)).2 = .ok (.timer x)) :
    let start := (idle minInterval scripts).after before
    let r := (start.perform (.start id interval lines count)).1.after after
    ∃ ticks : List Tick, r.dial.told = start.dial.told ++ ticks.map told ∧
      x.Ticked count start.now (Tick.ofSerial x.serial ticks) ∧
        ∀ y ∈ r.timers.timers, y.serial = x.serial →
          y.tickCount = count + (Tick.ofSerial x.serial ticks).length := by
  intro start r
  have hstart : start.timers.Apart :=
    (keeps_after (TimerTable.apart_of_nil rfl) before).1
  let asked := (start.ask (.start id interval lines count)).1
  have hasked : asked.timers.Apart := (later_ask _).apart hstart
  have hsettled : (schedule.settle asked).timers.Apart ∧
      Keeps asked.dial (schedule.settle asked).dial := keeps_beats hasked (beats_settle asked)
  have hkeeps : Keeps asked.dial r.dial :=
    hsettled.2.trans (keeps_after hsettled.1 after).2
  obtain ⟨ticks, htold, hall⟩ := hkeeps
  obtain ⟨hticked, hstands⟩ := hall x count start.now (stands_ask hstart h)
  have hdial : asked.dial = { start.dial with timers := asked.timers } := dial_ask _
  rw [hdial] at htold
  exact ⟨ticks, htold, hticked, fun y hy hserial => (hstands.timer y hy hserial).2.2.1⟩

end TimerRun

end PointAndClick
