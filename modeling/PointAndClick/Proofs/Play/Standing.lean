import PointAndClick.Proofs.Play.Clockwork

/-!
# How a timer stands

What holds of the clockwork of every machine is `Clockwork.Sound`: the timers are told apart, and
those that ask for the lock started before the present move. How one timer stands, between the tick
that began last and the next, is `Clockwork.Stands`: by its phase, it has yet to wait its interval
out, or it has and the call for its next tick waits for the lock, or its tick goes on. Either is
kept by every beat, and a tick that begins has the next count and comes an interval after the last
(`Clockwork.Stands.beat`).
-/

set_option autoImplicit false

namespace PointAndClick

/-- At least the interval of a timer passes from one time to another, as the clock counts it. -/
def Timer.Rests (x : Timer) (time later : Nat) : Prop :=
  ∃ duration, Duration.onClock x.interval = .ok duration ∧ time + duration ≤ later

/-- Ticks of a timer that come after one with a count and a time: each counts one more than the one
before, and comes at least the timer's interval after it. -/
def Timer.Ticked (x : Timer) (count : Int) (time : Nat) : List Tick → Prop
  | [] => True
  | tick :: ticks =>
      tick.timer.id = x.id ∧ tick.timer.tickCount = count + 1 ∧ x.Rests time tick.time ∧
        x.Ticked (count + 1) tick.time ticks

/-- The time of the last of some ticks, or else the time before them. -/
def Tick.last (time : Nat) (ticks : List Tick) : Nat := ticks.foldl (fun _ tick => tick.time) time

theorem Timer.ticked_append {x : Timer} {count : Int} {time : Nat} {ticks ticks' : List Tick}
    (h : x.Ticked count time ticks)
    (h' : x.Ticked (count + ticks.length) (Tick.last time ticks) ticks') :
    x.Ticked count time (ticks ++ ticks') := by
  induction ticks generalizing count time with
  | nil => simpa [Tick.last] using h'
  | cons tick ticks ih =>
      obtain ⟨hid, hcount, hrests, hticks⟩ := h
      refine ⟨hid, hcount, hrests, ih hticks ?_⟩
      have hlength : count + ((tick :: ticks).length : Int) = count + 1 + ticks.length := by
        rw [List.length_cons]
        omega
      rw [hlength] at h'
      exact h'

namespace Clockwork

variable {base : Nat} {c c' : Clockwork} {ticks : List Tick}

/-! ## What always holds -/

/-- What holds of every clockwork since timers from `base` on started. -/
structure Sound (base : Nat) (c : Clockwork) : Prop where
  apart : c.timers.Apart
  base_le : base ≤ c.timers.nextSerial
  fresh : ∀ x ∈ c.timers.timers, base ≤ x.serial → x.phase = .fresh
  callers : ∀ r ∈ c.queue, ∀ serial, r.owner = .timer serial → serial < base
  holder : ∀ serial, c.holder = some (.timer serial) → serial < base
  works : ∀ r ∈ c.queue, ∀ timer, r.work = .tick timer → r.owner = .timer timer.serial

/-- Only timers that started before may wait or tick. -/
theorem Sound.update (h : c.Sound base) {serial : Nat} (hserial : serial < base)
    {change : Timer → Timer}
    (hchange : ∀ x, ∃ phase tickCount, change x = { x with phase, tickCount }) :
    Sound base { c with timers := c.timers.update serial change } where
  apart := h.apart.update serial hchange
  base_le := h.base_le
  fresh y hy hbase := by
    obtain ⟨x, hx, ⟨-, rfl⟩ | ⟨hsame, rfl⟩⟩ := TimerTable.mem_update hy
    · exact h.fresh y hx hbase
    · obtain ⟨phase, tickCount, heq⟩ := hchange x
      rw [heq] at hbase
      exact absurd (hsame ▸ hserial) (Nat.not_lt.mpr hbase)
  callers := h.callers
  holder := h.holder
  works := h.works

theorem Sound.beginWait (h : c.Sound base) {serial : Nat} (hserial : serial < base)
    (now order : Nat) : Sound base { c with timers := c.timers.beginWait serial now order } :=
  h.update hserial fun _ => ⟨_, _, rfl⟩

theorem Sound.release (h : c.Sound base) : Sound base { c with holder := none } :=
  ⟨h.apart, h.base_le, h.fresh, h.callers, fun _ hnone => (nomatch hnone), h.works⟩

theorem Sound.enqueue (h : c.Sound base) {r : Request}
    (howner : ∀ serial, r.owner = .timer serial → serial < base)
    (hwork : ∀ timer, r.work = .tick timer → r.owner = .timer timer.serial) :
    Sound base { c with queue := c.queue ++ [r] } := by
  refine ⟨h.apart, h.base_le, h.fresh, fun r' hr' => ?_, h.holder, fun r' hr' => ?_⟩
  · rcases List.mem_append.mp hr' with hold | hnew
    · exact h.callers r' hold
    · rw [List.mem_singleton.mp hnew]
      exact howner
  · rcases List.mem_append.mp hr' with hold | hnew
    · exact h.works r' hold
    · rw [List.mem_singleton.mp hnew]
      exact hwork

/-- The first that waits gets the lock. -/
theorem Sound.dequeue (h : c.Sound base) {r : Request} {rest : List Request}
    (hqueue : c.queue = r :: rest) (told : List LogEntry) :
    Sound base { c with queue := rest, holder := some r.owner, told } := by
  have hmem {r' : Request} (hr' : r' ∈ rest) : r' ∈ c.queue := by
    rw [hqueue]
    exact List.mem_cons_of_mem r hr'
  refine ⟨h.apart, h.base_le, h.fresh, fun r' hr' => h.callers r' (hmem hr'),
    fun serial howner => ?_, fun r' hr' => h.works r' (hmem hr')⟩
  exact h.callers r (hqueue ▸ List.mem_cons_self) serial (Option.some.inj howner)

theorem Sound.beat (h : c.Sound base) (hbeat : Beat base c ticks c') : c'.Sound base := by
  cases hbeat with
  | change hlater =>
      refine ⟨hlater.apart h.apart, Nat.le_trans h.base_le hlater.nextSerial, fun y hy hbase => ?_,
        h.callers, h.holder, h.works⟩
      rcases hlater.timers y hy with ⟨x, hx, hstays⟩ | ⟨-, hfresh⟩
      · have hfresh : x.phase = .fresh := h.fresh x hx (hstays.serial ▸ hbase)
        rcases hstays.phase with hsame | ⟨hawaiting, -⟩
        · exact hsame.trans hfresh
        · rw [hfresh] at hawaiting
          nomatch hawaiting
      · exact hfresh
  | pass => exact ⟨h.apart, h.base_le, h.fresh, h.callers, h.holder, h.works⟩
  | beginWait hx hbase hphase => exact h.beginWait hbase _ _
  | await hx hbase hphase hdue => exact h.update hbase fun y => ⟨_, _, rfl⟩
  | comeDue hx hbase hready =>
      refine (h.update hbase fun y => ⟨_, _, rfl⟩).enqueue
        (fun serial howner => ?_) fun timer htick => ?_
      · cases howner
        exact hbase
      · cases htick
        rfl
  | call howner hwork =>
      refine h.enqueue (fun serial htimer => ?_) fun timer htick => absurd htick (hwork timer)
      rw [howner] at htimer
      nomatch htimer
  | grant hqueue hfree hnone => exact h.dequeue hqueue c.told
  | tick hqueue hfree hwork hthere => exact h.dequeue hqueue _
  | finishCall hholder => exact h.release
  | finishTick hholder => exact (h.beginWait (h.holder _ hholder) _ _).release

theorem Sound.beats (h : c.Sound base) (hbeats : Beats base c ticks c') : c'.Sound base := by
  induction hbeats with
  | refl => exact h
  | cons hbeat _ ih => exact ih (h.beat hbeat)

/-- From now on the timers that are there have started before. -/
theorem Sound.rebase (h : c.Sound base) : c.Sound c.timers.nextSerial where
  apart := h.apart
  base_le := Nat.le_refl _
  fresh x hx hbase := absurd (h.apart.below x hx) (Nat.not_lt.mpr hbase)
  callers r hr serial howner := Nat.lt_of_lt_of_le (h.callers r hr serial howner) h.base_le
  holder serial howner := Nat.lt_of_lt_of_le (h.holder serial howner) h.base_le
  works := h.works

end Clockwork

/-! ## How one timer stands -/

/-- A timer that does not tick has yet to wait its interval out since a time, or it has. -/
def Timer.HasRested (y : Timer) (last now : Nat) : Prop :=
  match y.phase with
  | .fresh | .endless => True
  | .asleep due _ => y.Rests last due
  | .awaiting | .woken => y.Rests last now
  | .ticking => False

/-- How a timer stands since its last tick, or its start, by the calls of it that wait for the lock,
by who has the lock, and by the time. -/
inductive Timer.Stage (y : Timer) (count : Int) (last : Nat) (calls : List Request)
    (holder : Option Owner) (now : Nat) : Prop
  /-- It has no call. -/
  | waits (hcalls : calls = []) (hholder : holder ≠ some (.timer y.serial))
      (hcount : y.tickCount = count) (hrested : y.HasRested last now)
  /-- The call for its next tick waits for the lock. -/
  | due {timer : Timer} (hcalls : calls = [{ owner := .timer y.serial, work := .tick timer }])
      (hholder : holder ≠ some (.timer y.serial)) (hserial : timer.serial = y.serial)
      (hid : timer.id = y.id) (hcount : y.tickCount = count + 1)
      (hsame : timer.tickCount = count + 1) (hphase : y.phase = .ticking)
      (hrests : y.Rests last now)
  /-- Its last tick goes on. -/
  | ticks (hcalls : calls = []) (hholder : holder = some (.timer y.serial))
      (hcount : y.tickCount = count) (hphase : y.phase = .ticking)

namespace Timer

variable {x y z : Timer} {count : Int} {last now now' due order : Nat} {calls : List Request}
  {holder holder' : Option Owner}

theorem Rests.later (h : y.Rests last now) (hnow : now ≤ now') : y.Rests last now' := by
  obtain ⟨duration, hclock, hrests⟩ := h
  exact ⟨duration, hclock, Nat.le_trans hrests hnow⟩

theorem HasRested.later (h : y.HasRested last now) (hnow : now ≤ now') : y.HasRested last now' := by
  unfold HasRested at *
  cases hphase : y.phase with
  | fresh | endless => trivial
  | asleep due order => simpa only [hphase] using h
  | awaiting | woken =>
      simp only [hphase] at h ⊢
      exact Rests.later h hnow
  | ticking => simp only [hphase] at h

/-- Pauses make no difference. -/
theorem HasRested.stays (h : z.HasRested last now) (hstays : z.Stays y) :
    y.HasRested last now := by
  unfold HasRested Rests at *
  rw [hstays.interval]
  rcases hstays.phase with hphase | ⟨hawaiting, hwoken⟩
  · rw [hphase]
    exact h
  · rw [hwoken]
    rw [hawaiting] at h
    exact h

/-- A timer that is ready has waited its interval out. -/
theorem HasRested.rests (h : y.HasRested last now) (hready : y.IsReady now) :
    y.Rests last now := by
  unfold HasRested at h
  rcases hready with hwoken | ⟨due, order, hasleep, hdue⟩
  · rw [hwoken] at h
    exact h
  · rw [hasleep] at h
    exact Rests.later h hdue

theorem IsReady.phase_ne_ticking (h : y.IsReady now) : y.phase ≠ .ticking := by
  rintro hphase
  rcases h with hwoken | ⟨due, order, hasleep, -⟩
  · rw [hphase] at hwoken
    nomatch hwoken
  · rw [hphase] at hasleep
    nomatch hasleep

/-- The timer as its wait begins. -/
def wait (y : Timer) (now order : Nat) : Timer :=
  { y with
    phase := match Duration.onClock y.interval with
      | .ok duration => .asleep (now + duration) order
      | .error _ => .endless }

theorem hasRested_wait (hpast : last ≤ now) (order : Nat) :
    (y.wait now order).HasRested last now := by
  unfold HasRested wait Rests
  cases hclock : Duration.onClock y.interval with
  | error e => trivial
  | ok duration => exact ⟨duration, rfl, Nat.add_le_add_right hpast duration⟩

theorem Stage.later (h : y.Stage count last calls holder now) (hnow : now ≤ now') :
    y.Stage count last calls holder now' := by
  cases h with
  | waits hcalls hholder hcount hrested => exact .waits hcalls hholder hcount (hrested.later hnow)
  | due hcalls hholder hserial hid hcount hsame hphase hrests =>
      exact .due hcalls hholder hserial hid hcount hsame hphase (hrests.later hnow)
  | ticks hcalls hholder hcount hphase => exact .ticks hcalls hholder hcount hphase

theorem Stage.stays (h : z.Stage count last calls holder now) (hstays : z.Stays y) :
    y.Stage count last calls holder now := by
  have hticking (hphase : z.phase = .ticking) : y.phase = .ticking := by
    rcases hstays.phase with hsame | ⟨hawaiting, -⟩
    · exact hsame.trans hphase
    · rw [hphase] at hawaiting
      nomatch hawaiting
  cases h with
  | waits hcalls hholder hcount hrested =>
      exact .waits hcalls (hstays.serial ▸ hholder) (hstays.tickCount.trans hcount)
        (hrested.stays hstays)
  | due hcalls hholder hserial hid hcount hsame hphase hrests =>
      rw [← hstays.serial] at hcalls hholder hserial
      refine .due hcalls hholder hserial (hid.trans hstays.id.symm)
        (hstays.tickCount.trans hcount) hsame (hticking hphase) ?_
      unfold Rests
      rw [hstays.interval]
      exact hrests
  | ticks hcalls hholder hcount hphase =>
      exact .ticks hcalls (hstays.serial ▸ hholder) (hstays.tickCount.trans hcount)
        (hticking hphase)

/-- The lock passes between others. -/
theorem Stage.pass (h : y.Stage count last calls holder now)
    (hholder : holder ≠ some (.timer y.serial)) (hholder' : holder' ≠ some (.timer y.serial)) :
    y.Stage count last calls holder' now := by
  cases h with
  | waits hcalls _ hcount hrested => exact .waits hcalls hholder' hcount hrested
  | due hcalls _ hserial hid hcount hsame hphase hrests =>
      exact .due hcalls hholder' hserial hid hcount hsame hphase hrests
  | ticks _ hholds => exact absurd hholds hholder

end Timer

namespace Clockwork

variable {base : Nat} {c c' : Clockwork} {x : Timer} {count : Int} {last : Nat} {ticks : List Tick}

/-- The calls of a timer that wait for the lock. -/
def callsOf (c : Clockwork) (serial : Nat) : List Request :=
  c.queue.filter (·.owner = .timer serial)

/-- How a timer stands that started, or ticked last, with a count at a time, as long as it is
neither stopped nor replaced. -/
structure Stands (x : Timer) (count : Int) (last : Nat) (c : Clockwork) : Prop where
  past : last ≤ c.now
  known : x.serial < c.timers.nextSerial
  stage : ∀ y ∈ c.timers.timers, y.serial = x.serial →
    y.id = x.id ∧ y.interval = x.interval ∧
      y.Stage count last (c.callsOf x.serial) c.holder c.now

/-- A beat that changes one timer, and maybe the calls and the lock. -/
theorem Stands.update (h : Stands x count last c) {serial : Nat} {change : Timer → Timer}
    (hchange : ∀ y, ∃ phase tickCount, change y = { y with phase, tickCount })
    {queue : List Request} {holder : Option Owner}
    (hother : serial ≠ x.serial → ∀ y : Timer, y.serial = x.serial →
      y.Stage count last (c.callsOf x.serial) c.holder c.now →
      y.Stage count last (callsOf { c with queue } x.serial) holder c.now)
    (hown : serial = x.serial → ∀ y ∈ c.timers.timers, y.serial = x.serial →
      y.Stage count last (c.callsOf x.serial) c.holder c.now →
      (change y).Stage count last (callsOf { c with queue } x.serial) holder c.now) :
    Stands x count last { c with timers := c.timers.update serial change, queue, holder } where
  past := h.past
  known := h.known
  stage y hy hserial := by
    obtain ⟨z, hz, ⟨hne, rfl⟩ | ⟨hsame, rfl⟩⟩ := TimerTable.mem_update hy
    · obtain ⟨hid, hinterval, hstage⟩ := h.stage y hz hserial
      exact ⟨hid, hinterval, hother (fun heq => hne (hserial.trans heq.symm)) y hserial hstage⟩
    · obtain ⟨phase, tickCount, heq⟩ := hchange z
      have hz' : z.serial = x.serial := by
        rw [heq] at hserial
        exact hserial
      obtain ⟨hid, hinterval, hstage⟩ := h.stage z hz hz'
      have hstage' := hown (hsame.symm.trans hz') z hz hz' hstage
      rw [heq] at hstage' ⊢
      exact ⟨hid, hinterval, hstage'⟩

/-- A call of another leaves those of the timer as they are. -/
theorem callsOf_enqueue {r : Request} {serial : Nat} (howner : r.owner ≠ .timer serial) :
    callsOf { c with queue := c.queue ++ [r] } serial = c.callsOf serial := by
  unfold callsOf
  rw [List.filter_append, List.filter_cons_of_neg (by simpa using howner), List.filter_nil,
    List.append_nil]

theorem callsOf_enqueue_own {r : Request} {serial : Nat} (howner : r.owner = .timer serial) :
    callsOf { c with queue := c.queue ++ [r] } serial = c.callsOf serial ++ [r] := by
  unfold callsOf
  rw [List.filter_append, List.filter_cons_of_pos (by simpa using howner), List.filter_nil]

theorem callsOf_dequeue {r : Request} {rest : List Request} {serial : Nat}
    (hqueue : c.queue = r :: rest) (howner : r.owner ≠ .timer serial) :
    callsOf { c with queue := rest } serial = c.callsOf serial := by
  unfold callsOf
  rw [hqueue, List.filter_cons_of_neg (by simpa using howner)]

theorem callsOf_dequeue_own {r : Request} {rest : List Request} {serial : Nat}
    (hqueue : c.queue = r :: rest) (howner : r.owner = .timer serial) :
    c.callsOf serial = r :: callsOf { c with queue := rest } serial := by
  unfold callsOf
  rw [hqueue, List.filter_cons_of_pos (by simpa using howner)]

/-- A call of another that gets the lock changes nothing. -/
theorem Stands.dequeue (h : Stands x count last c) {r : Request} {rest : List Request}
    (hqueue : c.queue = r :: rest) (hfree : c.holder = none) (howner : r.owner ≠ .timer x.serial)
    (told : List LogEntry) :
    Stands x count last { c with queue := rest, holder := some r.owner, told } where
  past := h.past
  known := h.known
  stage y hy hserial := by
    obtain ⟨hid, hinterval, hstage⟩ := h.stage y hy hserial
    have hcalls : callsOf { c with queue := rest, holder := some r.owner, told } x.serial =
        c.callsOf x.serial := callsOf_dequeue hqueue howner
    rw [hcalls]
    refine ⟨hid, hinterval, hstage.pass ?_ ?_⟩
    · rw [hfree]
      nofun
    · rw [hserial]
      exact fun heq => howner (Option.some.inj heq)

/-- The call of a timer that is there, at the head of the queue, is for its next tick. -/
theorem Stands.first (h : Stands x count last c) {r : Request} {rest : List Request}
    (hqueue : c.queue = r :: rest) (howner : r.owner = .timer x.serial) {y : Timer}
    (hy : y ∈ c.timers.timers) (hserial : y.serial = x.serial) :
    ∃ timer, r.work = .tick timer ∧ timer.serial = y.serial ∧ timer.id = y.id ∧
      timer.tickCount = count + 1 ∧ y.tickCount = count + 1 ∧ y.phase = .ticking ∧
      y.Rests last c.now ∧ callsOf { c with queue := rest } x.serial = [] := by
  obtain ⟨-, -, hstage⟩ := h.stage y hy hserial
  rw [callsOf_dequeue_own hqueue howner] at hstage
  cases hstage with
  | waits hcalls => nomatch hcalls
  | ticks hcalls => nomatch hcalls
  | @due timer hcalls hholder htimer hid hcount hsame hphase hrests =>
      obtain ⟨rfl, hnil⟩ := List.cons.inj hcalls
      exact ⟨timer, rfl, htimer, hid, hsame, hcount, hphase, hrests, hnil⟩

/-- A beat in which no tick begins. -/
theorem Stands.beat_silent (h : Stands x count last c) (hsound : c.Sound base)
    (hbeat : Beat base c [] c') : Stands x count last c' := by
  have hunique {y z : Timer} (hy : y ∈ c.timers.timers) (hz : z ∈ c.timers.timers)
      (heq : y.serial = z.serial) : y = z := hsound.apart.eq_of_serial hy hz heq
  cases hbeat with
  | change hlater =>
      refine ⟨h.past, Nat.lt_of_lt_of_le h.known hlater.nextSerial, fun y hy hserial => ?_⟩
      rcases hlater.timers y hy with ⟨z, hz, hstays⟩ | ⟨hnew, -⟩
      · obtain ⟨hid, hinterval, hstage⟩ := h.stage z hz (hstays.serial ▸ hserial)
        exact ⟨hstays.id.trans hid, hstays.interval.trans hinterval, hstage.stays hstays⟩
      -- a timer that is new has another serial number
      · rw [hserial] at hnew
        exact absurd h.known (Nat.not_lt.mpr hnew)
  | pass hnow =>
      refine ⟨Nat.le_trans h.past hnow, h.known, fun y hy hserial => ?_⟩
      obtain ⟨hid, hinterval, hstage⟩ := h.stage y hy hserial
      exact ⟨hid, hinterval, hstage.later hnow⟩
  | @beginWait z order hz hbase hphase =>
      refine h.update (fun _ => ⟨_, _, rfl⟩) (fun _ _ _ hstage => hstage)
        fun hsame y hy hserial hstage => ?_
      obtain rfl := hunique hy hz (hserial.trans hsame.symm)
      cases hstage with
      | waits hcalls hholder hcount hrested =>
          exact .waits (y := y.wait c.now order) hcalls hholder hcount
            (Timer.hasRested_wait h.past order)
      | due _ _ _ _ _ _ hticking => rw [hphase] at hticking; nomatch hticking
      | ticks _ _ _ hticking => rw [hphase] at hticking; nomatch hticking
  | @await z due order hz hbase hphase hdue =>
      refine h.update (fun _ => ⟨_, _, rfl⟩) (fun _ _ _ hstage => hstage)
        fun hsame y hy hserial hstage => ?_
      obtain rfl := hunique hy hz (hserial.trans hsame.symm)
      cases hstage with
      | waits hcalls hholder hcount hrested =>
          exact .waits hcalls hholder hcount (hrested.rests (.inr ⟨due, order, hphase, hdue⟩))
      | due _ _ _ _ _ _ hticking => rw [hphase] at hticking; nomatch hticking
      | ticks _ _ _ hticking => rw [hphase] at hticking; nomatch hticking
  | @comeDue z hz hbase hready =>
      refine h.update (fun _ => ⟨_, _, rfl⟩) (fun hne y hserial hstage => ?_)
        fun hsame y hy hserial hstage => ?_
      · rw [callsOf_enqueue (r := z.call) fun heq => hne (Owner.timer.inj heq)]
        exact hstage
      · obtain rfl := hunique hy hz (hserial.trans hsame.symm)
        cases hstage with
        | waits hcalls hholder hcount hrested =>
            have hcalls' : callsOf { c with queue := c.queue ++ [y.call] } x.serial =
                [{ owner := .timer y.serial, work := .tick y.comeDue }] := by
              rw [callsOf_enqueue_own (congrArg Owner.timer hsame), hcalls]
              rfl
            have hcount' : y.tickCount + 1 = count + 1 := by rw [hcount]
            exact .due (y := y.comeDue) hcalls' hholder rfl rfl hcount' hcount' rfl
              (hrested.rests hready)
        | due _ _ _ _ _ _ hticking => exact absurd hticking hready.phase_ne_ticking
        | ticks _ _ _ hticking => exact absurd hticking hready.phase_ne_ticking
  | @call r job howner hwork =>
      refine ⟨h.past, h.known, fun y hy hserial => ?_⟩
      obtain ⟨hid, hinterval, hstage⟩ := h.stage y hy hserial
      have hcalls : callsOf { c with queue := c.queue ++ [r] } x.serial = c.callsOf x.serial :=
        callsOf_enqueue (by rw [howner]; nofun)
      exact ⟨hid, hinterval, hcalls ▸ hstage⟩
  | @grant r rest hqueue hfree hnone =>
      by_cases howner : r.owner = .timer x.serial
      -- a timer that is there would tick
      · refine ⟨h.past, h.known, fun y hy hserial => ?_⟩
        obtain ⟨timer, hwork, hsame, -⟩ := h.first hqueue howner hy hserial
        have hgone := TimerTable.bySerial?_eq_none_iff.mp (hnone timer hwork)
        exact absurd hsame.symm (hgone y hy)
      · exact h.dequeue hqueue hfree howner c.told
  | @finishCall job hholder =>
      refine ⟨h.past, h.known, fun y hy hserial => ?_⟩
      obtain ⟨hid, hinterval, hstage⟩ := h.stage y hy hserial
      refine ⟨hid, hinterval, hstage.pass ?_ nofun⟩
      rw [hholder]
      nofun
  | @finishTick serial order hholder =>
      refine h.update (fun _ => ⟨_, _, rfl⟩) (fun hne y hserial hstage => ?_)
        fun hsame y hy hserial hstage => ?_
      · refine hstage.pass ?_ nofun
        rw [hholder, hserial]
        exact fun heq => hne (Owner.timer.inj (Option.some.inj heq))
      · have hholds : c.holder = some (.timer y.serial) := by rw [hholder, hsame, hserial]
        cases hstage with
        | waits _ hother => exact absurd hholds hother
        | due _ hother => exact absurd hholds hother
        | ticks hcalls _ hcount hphase =>
            exact .waits (y := y.wait c.now order) hcalls nofun hcount
              (Timer.hasRested_wait h.past order)

/-- A beat in which a tick begins. -/
theorem Stands.beat_tick (h : Stands x count last c) (hsound : c.Sound base) {tick : Tick}
    (hbeat : Beat base c [tick] c') :
    (tick.timer.serial = x.serial ∧ x.Ticked count last [tick] ∧
        Stands x (count + 1) tick.time c') ∨
      tick.timer.serial ≠ x.serial ∧ Stands x count last c' := by
  cases hbeat with
  | @tick r rest timer hqueue hfree hwork hthere =>
      have howner : r.owner = .timer timer.serial :=
        hsound.works r (hqueue ▸ List.mem_cons_self) timer hwork
      by_cases hserial : timer.serial = x.serial
      · obtain ⟨y, hfound⟩ := Option.ne_none_iff_exists'.mp hthere
        obtain ⟨hy, hsame⟩ := TimerTable.mem_of_bySerial? hfound
        have hy' : y.serial = x.serial := hsame.trans hserial
        obtain ⟨hid, hinterval, -⟩ := h.stage y hy hy'
        obtain ⟨timer', hwork', -, hid', hcount, hcount', hphase, hrests, hcalls⟩ :=
          h.first hqueue (howner.trans (congrArg Owner.timer hserial)) hy hy'
        obtain rfl := Work.tick.inj (hwork.symm.trans hwork')
        have hrests' : x.Rests last c.now := by
          unfold Timer.Rests
          rw [← hinterval]
          exact hrests
        refine .inl ⟨hserial, ⟨hid'.trans hid, hcount, hrests', trivial⟩,
          Nat.le_refl _, h.known, ?_⟩
        intro z hz hz'
        obtain rfl := hsound.apart.eq_of_serial hy hz (hy'.trans hz'.symm)
        have hholder : some r.owner = some (.timer y.serial) := by rw [howner, hsame]
        exact ⟨hid, hinterval, .ticks hcalls hholder hcount' hphase⟩
      · refine .inr ⟨hserial, h.dequeue hqueue hfree ?_ _⟩
        rw [howner]
        exact fun heq => hserial (Owner.timer.inj heq)

end Clockwork

end PointAndClick
