import PointAndClick.Proofs.Play.PauseFlags
import PointAndClick.Proofs.Play.Traces

/-!
# Silence in pauses

While a project is paused no timer comes due: its wait may end, but then it waits on to be resumed
(`Machine.Hushed`). So the only ticks that begin in a pause are those that were under way when it
began: calls that waited for the lock, and timers that had been resumed and were about to tick
(`Machine.Pending`). Those are not kept from ticking (`Machine.pause_silences`,
`Machine.not_forall_silent`).
-/

set_option autoImplicit false

namespace PointAndClick

/-! ## Timers that are about to tick -/

namespace TimerTable

variable {t t' : TimerTable}

/-- The timers that were resumed and are to tick were so in another table, but for their pauses. -/
def WokenIn (t' t : TimerTable) : Prop :=
  ∀ x ∈ t'.timers, x.phase = .woken → ∃ y ∈ t.timers, y.phase = .woken ∧ x.pause = y.pause

/-- What is not as it was is new. -/
theorem wokenIn_of_fresh (h : ∀ x ∈ t'.timers, x ∈ t.timers ∨ x.phase = .fresh) :
    t'.WokenIn t := by
  intro x hx hwoken
  rcases h x hx with hold | hfresh
  · exact ⟨x, hold, hwoken, rfl⟩
  · rw [hfresh] at hwoken
    nomatch hwoken

theorem wokenIn_stopAll (t t' : TimerTable) : t'.stopAll.WokenIn t :=
  wokenIn_of_fresh fun _ hx => absurd hx List.not_mem_nil

theorem wokenIn_stop (id : String) : (t.stop id).WokenIn t :=
  wokenIn_of_fresh fun _ hx => .inl (List.mem_of_mem_filter hx)

theorem wokenIn_start (id : String) (interval : Int) (commands : List Instruction)
    (tickCount : Int) : (t.start id interval commands tickCount).1.WokenIn t := by
  refine wokenIn_of_fresh fun x hx => ?_
  rcases List.mem_append.mp hx with hold | hnew
  · exact .inl (List.mem_of_mem_filter hold)
  · rw [List.mem_singleton.mp hnew]
    exact .inr rfl

theorem wokenIn_pause (id : Option String) : (t.pause id).WokenIn t := by
  have hpause (x : Timer) (hwoken : x.pause.phase = .woken) (hx : x ∈ t.timers) :
      ∃ y ∈ t.timers, y.phase = .woken ∧ x.pause.pause = y.pause := ⟨x, hx, hwoken, rfl⟩
  intro y hy hwoken
  cases id with
  | none =>
      obtain ⟨x, hx, rfl⟩ := List.mem_map.mp hy
      exact hpause x hwoken hx
  | some id =>
      obtain ⟨x, hx, rfl⟩ := List.mem_map.mp hy
      split at hwoken
      · rename_i hid
        rw [if_pos hid]
        exact hpause x hwoken hx
      · rename_i hid
        rw [if_neg hid]
        exact ⟨x, hx, hwoken, rfl⟩

theorem wokenIn_update {change : Timer → Timer} (hchange : ∀ x, (change x).phase ≠ .woken)
    (serial : Nat) : (t.update serial change).WokenIn t := by
  intro y hy hwoken
  obtain ⟨x, hx, ⟨-, rfl⟩ | ⟨-, rfl⟩⟩ := mem_update hy
  · exact ⟨y, hx, hwoken, rfl⟩
  · exact absurd hwoken (hchange x)

/-- Timers of a saved state are new. -/
theorem wokenIn_restore (state : Json) : (t.restore state).1.WokenIn t := by
  refine wokenIn_of_fresh fun x hx => .inr ?_
  unfold restore at hx
  split at hx
  · nomatch hx
  · rename_i entries _
    rcases (later_startAllSaved (t := t.stopAll) entries).timers x hx with ⟨y, hy, -⟩ | ⟨-, hfresh⟩
    · nomatch hy
    · exact hfresh

end TimerTable

/-! ## Sessions -/

/-- The action resumes nothing. -/
def Machine.Action.KeepsPause : Machine.Action → Prop
  | .resume | .resumeTimers _ => False
  | _ => True

namespace Session

variable {s s' : Session}

/-- A session that is paused stays so, and no timer is resumed. -/
structure Dozes (s s' : Session) : Prop where
  paused : s.paused = true → s'.paused = true
  woken : s'.timers.WokenIn s.timers

theorem dozes_of_woken (hpaused : s'.paused = s.paused) (hwoken : s'.timers.WokenIn s.timers) :
    Dozes s s' := ⟨fun h => hpaused.trans h, hwoken⟩

theorem dozes_of_eq (hpaused : s'.paused = s.paused) (htimers : s'.timers = s.timers) :
    Dozes s s' := by
  refine dozes_of_woken hpaused (TimerTable.wokenIn_of_fresh fun x hx => .inl ?_)
  rwa [htimers] at hx

theorem Dozes.trans {s₁ s₂ s₃ : Session} (h : Dozes s₁ s₂) (h' : Dozes s₂ s₃) : Dozes s₁ s₃ := by
  refine ⟨fun hpaused => h'.paused (h.paused hpaused), fun z hz hwoken => ?_⟩
  obtain ⟨y, hy, hwoken, hzy⟩ := h'.woken z hz hwoken
  obtain ⟨x, hx, hwoken, hyx⟩ := h.woken y hy hwoken
  exact ⟨x, hx, hwoken, hzy.trans hyx⟩

theorem dozes_told (s : Session) (entry : LogEntry) : Dozes s (s.told entry) :=
  dozes_of_eq (paused_told entry) (timers_told s entry)

theorem points_dozes : Points Dozes where
  refl _ := dozes_of_eq rfl rfl
  trans := .trans
  told s _ _ := dozes_told s _
  hovered _ _ := dozes_of_eq rfl rfl

theorem dozes_restore (state : Json) (s : Session) : Dozes s (restore state s).2 := by
  have hcases := restoresTimers state s
  generalize restore state s = out at hcases
  cases hcases with
  | untouched hpaused htimers => exact dozes_of_eq hpaused htimers
  | stopped hset hpaused htimers =>
      refine dozes_of_woken hpaused ?_
      rw [htimers]
      exact TimerTable.wokenIn_stopAll _ _
  | started hset hpaused htimers =>
      refine dozes_of_woken hpaused ?_
      rw [htimers]
      exact TimerTable.wokenIn_restore _

theorem dozes_plan {a : Machine.Action} (ha : a.KeepsPause) (s : Session) :
    Dozes s (Machine.plan a s).2 := by
  have hplace (s : Session) (place : Option Nat) :
      Dozes s { s with navigation := { s.navigation with place } } := dozes_of_eq rfl rfl
  cases a with
  | back => exact (points_dozes.planHistory hplace back_eq s).related
  | forward => exact (points_dozes.planHistory hplace forward_eq s).related
  | resume | resumeTimers _ => exact ha.elim
  | pause =>
      rw [Machine.plan, snd_reply, pause_apply]
      split
      · exact points_dozes.refl s
      · have hpaused : Dozes s { s with paused := true, timers := s.timers.pause none } :=
          ⟨fun _ => rfl, TimerTable.wokenIn_pause none⟩
        exact hpaused.trans (points_dozes.call _).related
  | stop =>
      have hstopped : Dozes s { s with timers := s.timers.stopAll } :=
        dozes_of_woken rfl (TimerTable.wokenIn_stopAll _ _)
      rw [Machine.plan, snd_reply]
      exact hstopped.trans (points_dozes.call _).related
  | restore state =>
      rw [Machine.plan, snd_reply]
      exact dozes_restore state s
  | pauseTimers id => exact dozes_of_woken rfl (TimerTable.wokenIn_pause id)
  | stopTimer id => exact dozes_of_woken rfl (TimerTable.wokenIn_stop id)
  | _ =>
      refine (points_dozes.plan ?_ s).related
      trivial

theorem follows_dozes : Follows Dozes where
  toComposes := points_dozes.toComposes
  told s _ _ _ := dozes_told s _
  write :=
    points_dozes.toComposes.write (fun _ _ => dozes_of_eq rfl rfl) fun s _ _ => dozes_told s _
  font _ _ := dozes_of_eq rfl rfl
  quit _ := dozes_of_eq rfl rfl
  navigation _ _ := dozes_of_eq rfl rfl
  depth _ _ := dozes_of_eq rfl rfl
  startTimer _ _ _ _ := dozes_of_woken rfl (TimerTable.wokenIn_start _ _ _ _)
  stopTimer id _ := dozes_of_woken rfl (TimerTable.wokenIn_stop id)

theorem spans_dozes : Machine.Spans Machine.Action.KeepsPause Dozes where
  toComposes := points_dozes.toComposes
  run s frames := follows_dozes.run s .going frames
  changeScene := follows_dozes.changeScene
  tick _ _ s := dozes_told s _
  marks _ _ _ := dozes_of_eq rfl rfl
  clock _ serial _ hchange :=
    dozes_of_woken rfl (TimerTable.wokenIn_update (fun x => (hchange x).2) serial)
  plan s _ ha := dozes_plan ha s

end Session

/-! ## Machines -/

namespace Machine

variable {m : Machine} {r : Request} {timer : Timer}

/-- The project is paused, and with it all of its timers. -/
structure Hushed (m : Machine) : Prop where
  paused : m.session.paused = true
  aligned : m.session.Aligned (· ≤ ·) (· ≤ ·)

/-- The tick of a timer is under way: it waits for the lock, or the timer was resumed and is about
to ask for it. -/
def Pending (m : Machine) (timer : Timer) : Prop :=
  (∃ r ∈ m.queue, r.work = .tick timer) ∨
    ∃ x ∈ m.session.timers.timers, x.phase = .woken ∧ timer = x.comeDue

theorem Hushed.timers (h : m.Hushed) {x : Timer} (hx : x ∈ m.session.timers.timers) :
    x.paused = true := by
  have htable : m.session.paused ≤ m.session.timers.paused := h.aligned.table
  have hflag : m.session.timers.paused ≤ x.paused := h.aligned.flags x hx
  exact hflag (htable h.paused)

theorem Hushed.move (h : m.Hushed) {move : Move} (hmove : ∀ a, move = .act a → a.KeepsPause) :
    (m.move move).Hushed where
  paused := (Session.spans_dozes.move (Session.points_dozes.refl m.session) hmove).paused h.paused
  aligned := by
    have hspans := Session.spans_aligned (r := (· ≤ ·)) (q := (· ≤ ·)) Bool.le_refl Bool.le_refl
    refine hspans.move (s := m.session) id (fun a ha => Action.aligns_le ?_) h.aligned
    rintro id rfl
    exact hmove _ ha

/-! ### The queue -/

@[simp] theorem runFrames_queue {owner : Owner} (reply : Reply) (frames : List Frame) :
    (m.runFrames owner reply frames).queue = m.queue := by
  unfold runFrames
  split
  · exact finish_queue _
  · exact finish_queue _
  · split <;> rfl

@[simp] theorem start_queue (r : Request) : (m.start r).queue = m.queue := by
  unfold start
  split
  · exact runFrames_queue _ _
  · dsimp only
    split
    · exact finish_queue _
    · exact finish_queue _
    · exact runFrames_queue _ _
  · split
    · exact finish_queue _
    · dsimp only
      split
      · exact finish_queue _
      · exact runFrames_queue _ _

@[simp] theorem goOn_queue : m.goOn.queue = m.queue := by
  unfold goOn
  split
  · rfl
  · exact runFrames_queue _ _

theorem mem_queue_answer {step : Machine × Option Request} (h : r ∈ (answer step).queue) :
    r ∈ step.1.queue ∨ r ∈ step.2 := by
  unfold answer at h
  split at h
  · exact .inl h
  · rename_i r' hr'
    unfold request at h
    split at h
    · rw [start_queue] at h
      exact .inl h
    · rcases List.mem_append.mp h with hold | hnew
      · exact .inl hold
      · rw [List.mem_singleton.mp hnew]
        exact .inr hr'

/-! ### Ticks -/

theorem work_of_begins? (h : m.begins? r = some timer) : r.work = .tick timer := by
  unfold begins? at h
  split at h
  · rename_i hwork
    split at h
    · nomatch h
    · cases h
      exact hwork
  · nomatch h

theorem work_of_beginsNow? {step : Machine × Option Request} (h : beginsNow? step = some timer) :
    ∃ r ∈ step.2, r.work = .tick timer := by
  unfold beginsNow? at h
  split at h
  · obtain ⟨r, hr, hbegins⟩ := Option.bind_eq_some_iff.mp h
    exact ⟨r, hr, work_of_begins? hbegins⟩
  · nomatch h

/-- What a user asks for is no tick. -/
theorem work_enter_ne {a : Action} (hr : r ∈ (m.enter a).2) : r.work ≠ .tick timer := by
  have hresult := (Session.keeps_plan a m.session).result
  unfold enter at hr
  dsimp only at hr
  split at hr
  · nomatch hr
  · nomatch hr
  · rename_i work reply s hplan
    rw [hplan] at hresult
    cases hr
    rintro rfl
    exact hresult _ rfl

/-- A timer that was resumed and comes due asks for its tick. -/
theorem pending_of_tickCall (hapart : m.session.timers.Apart) {serial : Nat}
    (hwoken : m.isIn serial .woken = true) (hr : r ∈ (m.tickCall serial).2)
    (hwork : r.work = .tick timer) : m.Pending timer := by
  obtain ⟨x, hx, rfl, hphase⟩ := mem_of_isIn hwoken
  rw [tickCall_eq hapart hx] at hr
  cases hr
  exact .inr ⟨x, hx, hphase, (Work.tick.inj hwork).symm⟩

/-- No timer of a paused project comes due when its wait ends. -/
theorem Hushed.isPaused (h : m.Hushed) (hapart : m.session.timers.Apart) {d : Due}
    (hd : d ∈ m.dues) {serial : Nat} (hwaiter : d.waiter = .timer serial) :
    (m.session.timers.bySerial? serial).any (·.paused) = true := by
  rcases mem_dues_iff.mp hd with ⟨x, hx, htimer, -⟩ | ⟨-, -, -, hrunning⟩
  · rw [htimer] at hwaiter
    cases hwaiter
    rw [hapart.bySerial?_eq_some hx]
    exact h.timers hx
  · rw [hrunning] at hwaiter
    nomatch hwaiter

/-- A tick that begins in a pause was under way. -/
theorem Hushed.pending_of_tick? (h : m.Hushed) (hapart : m.session.timers.Apart) {move : Move}
    (hadmits : m.Admits move) (htick : m.tick? move = some timer) : m.Pending timer := by
  cases move with
  | act a =>
      obtain ⟨r, hr, hwork⟩ := work_of_beginsNow? htick
      exact absurd hwork (work_enter_ne hr)
  | ask r =>
      obtain ⟨r', hr, hwork⟩ := work_of_beginsNow? htick
      cases hr
      exact absurd hwork (hadmits.2 timer)
  | turn t =>
      simp only [tick?] at htick
      split at htick
      · cases t with
        | beginTimer serial | resume => cases htick
        | tickTimer serial =>
            simp only [tickOfTurn?] at htick
            split at htick
            · rename_i hwoken
              obtain ⟨r, hr, hwork⟩ := work_of_beginsNow? htick
              exact pending_of_tickCall hapart hwoken hr hwork
            · cases htick
        | grant =>
            obtain ⟨r, hr, hbegins⟩ := Option.bind_eq_some_iff.mp htick
            exact .inl ⟨r, List.mem_of_mem_head? hr, work_of_begins? hbegins⟩
      · cases htick
  | wake d =>
      cases hwaiter : d.waiter with
      | running => simp [tick?, tickOfWait?, hwaiter] at htick
      | timer serial =>
          have hpaused := h.isPaused hapart hadmits hwaiter
          simp [tick?, tickOfWait?, hwaiter, hpaused] at htick
  | pass time => cases htick

/-- A call for a tick that waits after a move in a pause was under way before. -/
theorem Hushed.pending_of_mem_queue (h : m.Hushed) (hapart : m.session.timers.Apart) {move : Move}
    (hadmits : m.Admits move) (hr : r ∈ (m.move move).queue) (hwork : r.work = .tick timer) :
    m.Pending timer := by
  have hold (hr : r ∈ m.queue) : m.Pending timer := .inl ⟨r, hr, hwork⟩
  cases move with
  | act a =>
      rcases mem_queue_answer hr with hqueue | hnew
      · rw [(Ledger.aside_enter m a).queue] at hqueue
        exact hold hqueue
      · exact absurd hwork (work_enter_ne hnew)
  | ask r' =>
      have hasked : r ∈ (answer (m, some r')).queue := hr
      rcases mem_queue_answer hasked with hqueue | hnew
      · exact hold hqueue
      · cases hnew
        exact absurd hwork (hadmits.2 timer)
  | turn t =>
      simp only [Machine.move] at hr
      split at hr
      · cases t with
        | beginTimer serial =>
            simp only [take] at hr
            split at hr <;> exact hold hr
        | tickTimer serial =>
            simp only [take] at hr
            split at hr
            · rename_i hwoken
              rw [tick_eq_answer] at hr
              rcases mem_queue_answer hr with hqueue | hnew
              · exact hold hqueue
              · exact pending_of_tickCall hapart hwoken hnew hwork
            · exact hold hr
        | grant =>
            simp only [take] at hr
            split at hr
            · exact hold hr
            · rename_i first rest hqueue
              rw [start_queue] at hr
              have hcons : m.queue = first :: rest := hqueue
              exact hold (hcons ▸ List.mem_cons_of_mem first hr)
        | resume =>
            simp only [take] at hr
            rw [goOn_queue] at hr
            exact hold hr
      · exact hold hr
  | wake d =>
      simp only [Machine.move, wake] at hr
      split at hr
      · rw [goOn_queue] at hr
        exact hold hr
      · rename_i serial hwaiter
        rw [if_pos (h.isPaused hapart hadmits hwaiter)] at hr
        exact hold hr
  | pass time => exact hold hr

/-- No tick comes under way in a pause. -/
theorem Hushed.pending_of_move (h : m.Hushed) (hapart : m.session.timers.Apart) {move : Move}
    (hadmits : m.Admits move) (hmove : ∀ a, move = .act a → a.KeepsPause)
    (hpending : (m.move move).Pending timer) : m.Pending timer := by
  rcases hpending with ⟨r, hr, hwork⟩ | ⟨x, hx, hwoken, rfl⟩
  · exact h.pending_of_mem_queue hapart hadmits hr hwork
  · have hdozes := Session.spans_dozes.move (Session.points_dozes.refl m.session) hmove
    obtain ⟨y, hy, hwoken', hpause⟩ := hdozes.woken x hx hwoken
    have hsame (z : Timer) (hz : z.paused = true) : z.pause = z := by
      unfold Timer.pause
      rw [← hz]
    -- both timers are paused, so that to pause them makes no difference
    rw [hsame x ((h.move hmove).timers hx), hsame y (h.timers hy)] at hpause
    exact .inr ⟨y, hy, hwoken', congrArg Timer.comeDue hpause⟩

/-- The ticks that begin in a pause were under way when it began. -/
theorem Hushed.pending_of_mem_ticks (h : m.Hushed) (hregular : m.Regular) {moves : List Move}
    (htimely : m.Timely moves) (hmoves : ∀ a, Move.act a ∈ moves → a.KeepsPause) :
    ∀ tick ∈ m.ticks moves, m.Pending tick.timer := by
  induction moves generalizing m with
  | nil => exact fun _ htick => nomatch htick
  | cons move moves ih =>
      intro tick htick
      have hapart := hregular.sound.apart
      have hmove : ∀ a, move = .act a → a.KeepsPause :=
        fun a ha => hmoves a (ha ▸ List.mem_cons_self)
      rcases List.mem_append.mp htick with hfirst | hrest
      · obtain ⟨timer, hfound, rfl⟩ := List.mem_map.mp hfirst
        exact h.pending_of_tick? hapart htimely.1 (Option.mem_toList.mp hfound)
      · have hnext : (m.move move).Pending tick.timer :=
          ih (h.move hmove) (hregular.move htimely.1) htimely.2
            (fun a ha => hmoves a (List.mem_cons_of_mem _ ha)) tick hrest
        exact h.pending_of_move hapart htimely.1 hmove hnext

theorem hushed_pause (h : m.session.Aligned (· ≤ ·) (· ≤ ·)) :
    (m.move (.act .pause)).Hushed := by
  have hsession : (m.move (.act .pause)).session = (Session.pause m.session).2 :=
    session_act_of_done rfl
  refine ⟨?_, ?_⟩
  · rw [hsession, Session.pause_apply]
    split
    · rename_i hpaused
      exact hpaused
    · rw [Session.call, Session.tell_apply, Session.paused_told]
  · rw [hsession]
    exact Session.aligned_pause Bool.le_refl Bool.le_refl h

/-- Once a project was paused, and until it is resumed, each tick that begins was under way
before. Of the calls for ticks that waited for the lock none is forgotten: its tick begins, or it
still waits, or its timer is there no more. What is told of ticks in the pause is told of these.
-/
theorem pause_silences (p : Project) (presentation : Presentation) (minInterval : Int)
    (before after : List Move)
    (htimely : (ofSession (Session.ofProject p presentation minInterval)).Timely
      (before ++ .act .pause :: after))
    (hbefore : ∀ id, Move.act (.resumeTimers id) ∉ before)
    (hafter : ∀ a, Move.act a ∈ after → a.KeepsPause) :
    let m := (ofSession (Session.ofProject p presentation minInterval)).after
      (before ++ [.act .pause])
    (∀ tick ∈ m.ticks after, m.Pending tick.timer) ∧
    (∀ r ∈ m.queue, ∀ timer, r.work = .tick timer →
      (∃ tick ∈ m.ticks after, tick.timer = timer) ∨ r ∈ (m.after after).queue ∨
        (m.after after).session.timers.bySerial? timer.serial = none) ∧
    (presentation.records = true →
      (m.after after).session.log.toList.filter (·.isTick) =
        m.session.log.toList.filter (·.isTick) ++ (m.ticks after).map Tick.entry) := by
  intro m
  let start : Machine := ofSession (Session.ofProject p presentation minInterval)
  have hstart : start.Regular := regular_ofProject p presentation minInterval
  have hsplit : before ++ .act .pause :: after = (before ++ [.act .pause]) ++ after :=
    List.append_cons before (.act .pause) after
  rw [hsplit, timely_append] at htimely
  obtain ⟨hrun, hpausing⟩ := htimely
  have hregular : m.Regular := hstart.after hrun
  have hhushed : m.Hushed := by
    have hm : m = (start.after before).move (.act .pause) := start.after_append before _
    have haligns : ∀ a, Move.act a ∈ before → a.Aligns (· ≤ ·) (· ≤ ·) := by
      refine fun a ha => Action.aligns_le ?_
      rintro id rfl
      exact hbefore id ha
    have hspans := Session.spans_aligned (r := (· ≤ ·)) (q := (· ≤ ·)) Bool.le_refl Bool.le_refl
    have hready := Session.aligned_ofProject (r := (· ≤ ·)) (q := (· ≤ ·)) Bool.le_refl p
      presentation minInterval
    rw [hm]
    exact hushed_pause (hspans.after (m := start) (s := start.session) id haligns hready)
  have htold := Clockwork.traces_told.run hstart hrun
  refine ⟨hhushed.pending_of_mem_ticks hregular hpausing hafter, ?_, fun hrecords => ?_⟩
  · intro r hr timer hwork
    rcases ((Clockwork.traces_delivers hwork).run hregular hpausing).2 hr with
      hticks | hwaits | hlacks
    · exact .inl hticks
    · exact .inr (.inl hwaits)
    · exact .inr (.inr (TimerTable.bySerial?_eq_none_iff.mpr hlacks.2))
  · exact (Clockwork.traces_told.run hregular hpausing).2 (htold.1.trans hrecords)

/-- A timer comes due while a list waits, and then the project is paused. -/
def overdue : List Move :=
  [.act (.execute [⟨"TIMERSTART", "a 20 rem"⟩]), .turn (.beginTimer 0),
    .act (.execute [⟨"PAUSE", "30"⟩]), .wake ⟨20, 0, .timer 0⟩]

/-- The list comes to its end, and the timer gets the lock. -/
def delivery : List Move := [.wake ⟨30, 1, .running⟩, .turn .grant]

theorem timely_overdue :
    (ofSession (Session.ofProject {} { pace := .timed } 16)).Timely
      (overdue ++ .act .pause :: delivery) := by
  refine ⟨trivial, trivial, trivial, ?_, trivial, ?_, trivial, trivial⟩
  · exact List.mem_of_elem_eq_true (by decide +kernel)
  · exact List.mem_of_elem_eq_true (by decide +kernel)

theorem pause_silences_overdue :
    let m := (ofSession (Session.ofProject {} { pace := .timed } 16)).after
      (overdue ++ [.act .pause])
    (∀ id, Move.act (.resumeTimers id) ∉ overdue) ∧
      (∀ a, Move.act a ∈ delivery → a.KeepsPause) ∧
      (m.ticks delivery).map (·.time) = [30] ∧ ∀ tick ∈ m.ticks delivery, m.Pending tick.timer := by
  intro m
  have hbefore : ∀ id, Move.act (.resumeTimers id) ∉ overdue := by simp [overdue]
  have hafter : ∀ a, Move.act a ∈ delivery → a.KeepsPause := by simp [delivery]
  refine ⟨hbefore, hafter, by decide +kernel, ?_⟩
  exact (pause_silences {} _ 16 overdue delivery timely_overdue hbefore hafter).1

/-- A tick that waits for the lock begins in a pause. -/
theorem not_forall_silent :
    ¬∀ (p : Project) (presentation : Presentation) (minInterval : Int) (before after : List Move),
      (ofSession (Session.ofProject p presentation minInterval)).Timely
        (before ++ .act .pause :: after) →
      (∀ id, Move.act (.resumeTimers id) ∉ before) → (∀ a, Move.act a ∈ after → a.KeepsPause) →
      ((ofSession (Session.ofProject p presentation minInterval)).after
        (before ++ [.act .pause])).ticks after = [] := by
  intro h
  have hnone := h {} { pace := .timed } 16 overdue delivery timely_overdue (by simp [overdue])
    (by simp [delivery])
  have hsome : ((ofSession (Session.ofProject {} { pace := .timed } 16)).after
      (overdue ++ [.act .pause])).ticks delivery ≠ [] := by decide +kernel
  exact hsome hnone

end Machine

end PointAndClick
