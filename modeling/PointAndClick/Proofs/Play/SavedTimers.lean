import PointAndClick.Proofs.Play.Tending
import PointAndClick.Proofs.Script.Line

/-!
# Saved timers

Timers are saved with their commands as lines of script, and these are read when the timers are
restored. Whatever happens to a table of timers, its commands were read once before
(`TimerTable.Savable.after`), so that nothing in it is refused when it is restored. It comes back
in its order, with the commands that its lines are read as (`TimerTable.Savable.restore_save`).
-/

set_option autoImplicit false

namespace PointAndClick

namespace TimerTable

variable {t t' : TimerTable} {x : Timer} {xs : List Timer}

/-! ## Operations -/

/-- What can happen to a table of timers. -/
inductive Operation
  /-- A command with these arguments starts a timer. -/
  | command (args : String)
  | stop (id : String)
  | stopAll
  | pause (id : Option String)
  | resume (id : Option String)
  | restore (saved : Json)
  | beginWait (serial now order : Nat)
  /-- A timer's wait is over, and the timer is paused. -/
  | await (serial : Nat)
  | beginTick (serial : Nat)

/-- Starts the timer that the arguments of a command ask for. -/
def startFrom (t : TimerTable) (args : String) : Except Fault TimerTable := do
  let timer ← TimerArguments.parse args
  let command ← Instruction.parse timer.command
  return (t.start timer.id timer.interval [command] 0).1

/-- The table after something happens to it. A command with wrong arguments changes nothing. -/
def operate (t : TimerTable) : Operation → TimerTable
  | .command args => (t.startFrom args).toOption.getD t
  | .stop id => t.stop id
  | .stopAll => t.stopAll
  | .pause id => t.pause id
  | .resume id => (t.resume id).1
  | .restore saved => (t.restore saved).1
  | .beginWait serial now order => t.beginWait serial now order
  | .await serial => t.update serial fun x => { x with phase := .awaiting }
  | .beginTick serial => t.beginTick serial

/-- The table after some things happen to it, one after another. -/
def after (t : TimerTable) (ops : List Operation) : TimerTable :=
  ops.foldl operate t

/-- A command that starts timers does what is said here, unless the presentation refuses to. -/
theorem timers_perform_startTimer (i : Instruction) (s : Session) :
    (Session.perform .startTimer i s).2.timers = s.timers ∨
      (Session.perform .startTimer i s).2.timers = s.timers.operate (.command i.args) := by
  simp only [Session.perform, Session.bind_apply, Session.given_apply]
  cases htimer : TimerArguments.parse i.args with
  | error e => exact .inl rfl
  | ok timer =>
      dsimp only
      cases hcommand : Instruction.parse timer.command with
      | error e => exact .inl rfl
      | ok command =>
          dsimp only
          rw [Session.call, Session.tell_apply]
          cases s.answer _ with
          | error e => exact .inl (Session.timers_told s _)
          | ok _ =>
              have hstart : s.timers.operate (.command i.args) =
                  (s.timers.start timer.id timer.interval [command] 0).1 := by
                simp [operate, startFrom, htimer, hcommand, bind, Except.bind, pure, Except.pure,
                  Except.toOption]
              refine .inr ?_
              rw [hstart, ← Session.timers_told s]
              rfl

/-! ## Commands -/

/-- The timers are told apart, and each of their commands is canonical. -/
structure Savable (t : TimerTable) : Prop extends Apart t where
  canonical : ∀ x ∈ t.timers, ∀ i ∈ x.commands, i.IsCanonical

theorem savable_of_nil (h : t.timers = []) : t.Savable where
  toApart := apart_of_nil h
  canonical x hx := by rw [h] at hx; nomatch hx

/-- A timer that is still there, or was changed, has the commands that it had. -/
theorem Savable.of_timers (h : t.Savable) (hapart : t'.Apart)
    (htimers : ∀ y ∈ t'.timers, ∃ x ∈ t.timers, y.commands = x.commands) : t'.Savable where
  toApart := hapart
  canonical y hy := by
    obtain ⟨x, hx, hsame⟩ := htimers y hy
    rw [hsame]
    exact h.canonical x hx

theorem Savable.map (h : t.Savable) {f : Timer → Timer} {paused : Bool}
    (hapart : Apart { t with paused, timers := t.timers.map f })
    (hf : ∀ x, (f x).commands = x.commands) :
    Savable { t with paused, timers := t.timers.map f } := by
  refine h.of_timers hapart fun y hy => ?_
  obtain ⟨x, hx, rfl⟩ := List.mem_map.mp hy
  exact ⟨x, hx, hf x⟩

theorem Savable.stop (h : t.Savable) (id : String) : (t.stop id).Savable :=
  h.of_timers ((later_stop id).apart h.toApart) fun y hy => ⟨y, List.mem_of_mem_filter hy, rfl⟩

theorem Savable.start (h : t.Savable) (id : String) (interval : Int)
    {commands : List Instruction} (hcommands : ∀ i ∈ commands, i.IsCanonical) (tickCount : Int) :
    (t.start id interval commands tickCount).1.Savable where
  toApart := (later_start id interval commands tickCount).apart h.toApart
  canonical y hy := by
    rcases List.mem_append.mp hy with hold | hnew
    · exact (h.stop id).canonical y hold
    · rw [List.mem_singleton.mp hnew]
      exact hcommands

theorem Savable.pause (h : t.Savable) (id : Option String) : (t.pause id).Savable := by
  have hapart := (later_pause id).apart h.toApart
  cases id with
  | none => exact h.map hapart fun _ => rfl
  | some id => exact h.map hapart fun x => by split <;> rfl

theorem Savable.resume (h : t.Savable) (id : Option String) : (t.resume id).1.Savable := by
  have hapart := (later_resume id).apart h.toApart
  cases id with
  | none => exact h.map hapart fun _ => rfl
  | some id => exact h.map hapart fun x => by split <;> rfl

theorem Savable.update (h : t.Savable) (serial : Nat) {change : Timer → Timer}
    (hchange : ∀ x, ∃ phase tickCount, change x = { x with phase, tickCount }) :
    (t.update serial change).Savable := by
  refine h.map (h.toApart.update serial hchange) fun x => ?_
  split
  · obtain ⟨phase, tickCount, heq⟩ := hchange x
    rw [heq]
  · rfl

/-- A command that starts a timer gives it one command, which was read. -/
theorem startFrom_eq_ok {args : String} (h : t.startFrom args = .ok t') :
    ∃ (id : String) (interval : Int) (i : Instruction), i.IsCanonical ∧
      t' = (t.start id interval [i] 0).1 := by
  simp only [startFrom, bind, Except.bind] at h
  split at h
  · nomatch h
  · split at h
    · nomatch h
    · rename_i timer _ i hread
      cases h
      exact ⟨_, _, i, Instruction.isCanonical_of_parse hread, rfl⟩

theorem Savable.startFrom (h : t.Savable) {args : String} (hstart : t.startFrom args = .ok t') :
    t'.Savable := by
  obtain ⟨id, interval, i, hi, rfl⟩ := startFrom_eq_ok hstart
  exact h.start id interval (by simpa using hi) 0

/-- Reads a saved line. -/
def readLine (line : Json) : Except Fault Instruction := do
  Instruction.parse (← line.savedText)

theorem isCanonical_of_readLine {line : Json} {i : Instruction} (h : readLine line = .ok i) :
    i.IsCanonical := by
  simp only [readLine, bind, Except.bind] at h
  split at h
  · nomatch h
  · exact Instruction.isCanonical_of_parse h

theorem readLine_line {i : Instruction} (h : i.IsCanonical) :
    readLine (.text i.line) = .ok i.readBack := by
  simp only [readLine, Json.savedText, bind, Except.bind]
  exact Instruction.parse_line h

theorem isCanonical_of_mapM_readLine {lines : List Json} {commands : List Instruction}
    (h : lines.mapM readLine = .ok commands) : ∀ i ∈ commands, i.IsCanonical := by
  induction lines generalizing commands with
  | nil =>
      cases h
      nofun
  | cons line lines ih =>
      rw [List.mapM_cons] at h
      simp only [bind, Except.bind] at h
      split at h
      · nomatch h
      · rename_i i hline
        split at h
        · nomatch h
        · rename_i hlines
          cases h
          exact List.forall_mem_cons.mpr ⟨isCanonical_of_readLine hline, ih hlines⟩

/-- The commands of a saved timer that is started were read from its lines. -/
theorem startSaved_commands {entry : Json} {timer : Timer}
    (h : t.startSaved entry = .ok (t', timer)) :
    ∃ (lines : List Json) (commands : List Instruction) (id : String) (interval tickCount : Int),
      let started := (t.start id interval commands tickCount).1
      lines.mapM readLine = .ok commands ∧ (t' = started.pause (some id) ∨ t' = started) := by
  simp only [startSaved, bind, Except.bind] at h
  repeat' split at h
  all_goals cases h
  · exact ⟨_, _, _, _, _, ‹_›, .inl rfl⟩
  · exact ⟨_, _, _, _, _, ‹_›, .inr rfl⟩

theorem Savable.startSaved (h : t.Savable) {entry : Json} {timer : Timer}
    (hstart : t.startSaved entry = .ok (t', timer)) : t'.Savable := by
  obtain ⟨lines, commands, id, interval, tickCount, hlines, heq⟩ := startSaved_commands hstart
  have hstarted := h.start id interval (isCanonical_of_mapM_readLine hlines) tickCount
  rcases heq with rfl | rfl
  · exact hstarted.pause _
  · exact hstarted

theorem Savable.startAllSaved (h : t.Savable) (entries : List Json) :
    (t.startAllSaved entries).1.Savable := by
  induction entries generalizing t with
  | nil => exact h
  | cons entry entries ih =>
      unfold TimerTable.startAllSaved
      split
      · exact h
      · rename_i hstart
        exact ih (h.startSaved hstart)

theorem Savable.operate (h : t.Savable) (op : Operation) : (t.operate op).Savable := by
  cases op with
  | command args =>
      show ((t.startFrom args).toOption.getD t).Savable
      cases hstart : t.startFrom args with
      | error e => exact h
      | ok t' => exact h.startFrom hstart
  | stop id => exact h.stop id
  | stopAll => exact savable_of_nil rfl
  | pause id => exact h.pause id
  | resume id => exact h.resume id
  | restore saved =>
      have hnone : t.stopAll.Savable := savable_of_nil rfl
      unfold TimerTable.operate restore
      dsimp only
      split
      · exact hnone
      · exact hnone.startAllSaved _
  | beginWait serial now order => exact h.update serial fun x => ⟨_, x.tickCount, rfl⟩
  | await serial => exact h.update serial fun x => ⟨_, x.tickCount, rfl⟩
  | beginTick serial => exact h.update serial fun x => ⟨_, _, rfl⟩

theorem minInterval_operate (t : TimerTable) (op : Operation) :
    (t.operate op).minInterval = t.minInterval := by
  cases op with
  | command args =>
      show ((t.startFrom args).toOption.getD t).minInterval = _
      cases hstart : t.startFrom args with
      | error e => rfl
      | ok t' =>
          obtain ⟨id, interval, i, -, rfl⟩ := startFrom_eq_ok hstart
          rfl
  | pause id => exact (later_pause id).minInterval
  | resume id => exact (later_resume id).minInterval
  | restore saved => exact (later_restore saved).minInterval
  | _ => rfl

theorem minInterval_after (t : TimerTable) (ops : List Operation) :
    (t.after ops).minInterval = t.minInterval := by
  induction ops generalizing t with
  | nil => rfl
  | cons op ops ih => exact (ih _).trans (minInterval_operate t op)

theorem Savable.after (h : t.Savable) (ops : List Operation) : (t.after ops).Savable := by
  induction ops generalizing t with
  | nil => exact h
  | cons op ops ih => exact ih (h.operate op)

end TimerTable

/-! ## Restoring -/

/-- The timer as it is restored: its first wait is still to begin, and its commands are what their
lines are read as. -/
def Timer.readBack (x : Timer) (serial : Nat) : Timer :=
  { x with serial, commands := x.commands.map Instruction.readBack, phase := .fresh }

/-- The commands of a timer stay as they are just if none has arguments that begin with a colon. -/
theorem Timer.commands_readBack_iff (x : Timer) (serial : Nat) :
    (x.readBack serial).commands = x.commands ↔ ∀ i ∈ x.commands, ¬i.BeginsWithColon := by
  simp only [← Instruction.readBack_eq_self_iff]
  rw [← List.map_inj_left, List.map_id']
  rfl

namespace TimerTable

variable {t : TimerTable} {x : Timer} {xs : List Timer}

theorem mapM_readLine_line {commands : List Instruction}
    (h : ∀ i ∈ commands, i.IsCanonical) :
    (commands.map fun i => Json.text i.line).mapM readLine =
      .ok (commands.map Instruction.readBack) := by
  induction commands with
  | nil => rfl
  | cons i commands ih =>
      obtain ⟨hi, hcommands⟩ := List.forall_mem_cons.mp h
      rw [List.map_cons, List.mapM_cons, ih hcommands, readLine_line hi]
      rfl

/-- A timer with a new identifier and an interval that is long enough is started as it was. -/
theorem start_new (commands : List Instruction) (hnew : ∀ y ∈ t.timers, y.id ≠ x.id)
    (hinterval : t.minInterval ≤ x.interval) :
    (t.start x.id x.interval commands x.tickCount).1 =
      { t with
        timers := t.timers ++
          [{ x with serial := t.nextSerial, commands, paused := t.paused, phase := .fresh }]
        nextSerial := t.nextSerial + 1 } := by
  have hall : t.timers.filter (fun y => y.id ≠ x.id) = t.timers :=
    List.filter_eq_self.mpr fun y hy => by simpa using hnew y hy
  have hclamp : (max t.minInterval (x.interval : Int)).toNat = x.interval := by omega
  simp only [start, stop, hall, hclamp]

theorem startSaved_save (hcanonical : ∀ i ∈ x.commands, i.IsCanonical)
    (hnew : ∀ y ∈ t.timers, y.id ≠ x.id) (hinterval : t.minInterval ≤ x.interval)
    (hgoing : t.paused = false) :
    ∃ timer, timer.serial = t.nextSerial ∧ t.startSaved x.save =
      .ok ({ t with
        timers := t.timers ++ [x.readBack t.nextSerial], nextSerial := t.nextSerial + 1 },
          timer) := by
  let commands := x.commands.map Instruction.readBack
  let started := t.start x.id x.interval commands x.tickCount
  have hstart : t.startSaved x.save =
      .ok (if x.paused then started.1.pause (some x.id) else started.1, started.2) := by
    show (do
      let commands ← (x.commands.map fun (i : Instruction) => Json.text i.line).mapM readLine
      let started := t.start x.id x.interval commands x.tickCount
      if x.paused then return (started.1.pause (some x.id), started.2) else return started) = _
    rw [mapM_readLine_line hcanonical]
    cases x.paused <;> rfl
  refine ⟨started.2, rfl, ?_⟩
  rw [hstart, start_new commands hnew hinterval, hgoing]
  cases hpaused : x.paused with
  | false => simp [Timer.readBack, commands, hpaused]
  | true =>
      -- of all timers, the pause is for the one that was started
      have hothers : (t.timers.map fun y => if y.id = x.id then y.pause else y) = t.timers := by
        rw [List.map_congr_left fun y hy => if_neg (hnew y hy), List.map_id']
      simp only [pause, List.map_append, hothers]
      simp [Timer.pause, Timer.readBack, commands, hpaused]

/-- Saved timers whose identifiers are new are started behind the others. -/
theorem startAllSaved_save (hgoing : t.paused = false)
    (hcanonical : ∀ x ∈ xs, ∀ i ∈ x.commands, i.IsCanonical)
    (hinterval : ∀ x ∈ xs, t.minInterval ≤ x.interval)
    (hnew : ((t.timers ++ xs).map (·.id)).Nodup) :
    t.startAllSaved (xs.map Timer.save) =
      ({ t with
          timers := t.timers ++ xs.mapIdx fun k x => x.readBack (t.nextSerial + k)
          nextSerial := t.nextSerial + xs.length },
        List.range' t.nextSerial xs.length, .ok ()) := by
  induction xs generalizing t with
  | nil => simp [startAllSaved]
  | cons x xs ih =>
      obtain ⟨hx, hxs⟩ := List.forall_mem_cons.mp hcanonical
      obtain ⟨hlong, hlongs⟩ := List.forall_mem_cons.mp hinterval
      have hids : (t.timers.map (·.id) ++ x.id :: xs.map (·.id)).Nodup := by
        simpa only [List.map_append, List.map_cons] using hnew
      have hfirst : ∀ y ∈ t.timers, y.id ≠ x.id := fun y hy =>
        (List.nodup_append.mp hids).2.2 _ (List.mem_map_of_mem hy) _ List.mem_cons_self
      obtain ⟨timer, hserial, hstart⟩ := startSaved_save hx hfirst hlong hgoing
      let started : TimerTable := { t with
        timers := t.timers ++ [x.readBack t.nextSerial], nextSerial := t.nextSerial + 1 }
      have hrest := @ih started hgoing hxs hlongs (by simpa [started, Timer.readBack] using hnew)
      rw [List.map_cons, startAllSaved, hstart]
      dsimp only
      rw [hrest, hserial]
      simp [started, List.mapIdx_cons, List.range'_succ, Nat.add_assoc, Nat.add_comm 1]

/-- A table that is restored where there are no timers comes back as it was, but for what its
commands are read as. -/
theorem Savable.restore_save (h : t.Savable) :
    TimerTable.restore { minInterval := t.minInterval } t.save =
      ({ minInterval := t.minInterval
         timers := t.timers.mapIdx fun k x => x.readBack k
         nextSerial := t.timers.length },
        List.range t.timers.length, .ok ()) := by
  let fresh : TimerTable := { minInterval := t.minInterval }
  have hall : fresh.startAllSaved (t.timers.map Timer.save) = _ :=
    startAllSaved_save rfl h.canonical h.clamped h.ids
  show fresh.startAllSaved (t.timers.map Timer.save) = _
  rw [hall]
  simp [fresh, List.range_eq_range']

/-- A line that was read is written as one that is read with the same verb. The arguments are the
same just if they do not begin with a colon. So whatever happens to a table of timers whose commands
were read, it can be restored where there are no timers: all come back in their order, and the
commands of one are the same just if none of them has arguments that begin with a colon. -/
theorem restored_commands (minInterval : Int) (ops : List Operation) :
    (∀ (text : String) (i : Instruction), Instruction.parse text = .ok i →
      Instruction.parse i.line = .ok i.readBack ∧ i.readBack.verb = i.verb ∧
        (i.readBack = i ↔ ¬i.BeginsWithColon)) ∧
    let t : TimerTable := TimerTable.after { minInterval } ops
    TimerTable.restore { minInterval } t.save =
      ({ minInterval
         timers := t.timers.mapIdx fun k x => x.readBack k
         nextSerial := t.timers.length },
        List.range t.timers.length, .ok ()) ∧
    ∀ x ∈ t.timers, ∀ serial,
      (x.readBack serial).commands = x.commands ↔ ∀ i ∈ x.commands, ¬i.BeginsWithColon := by
  refine ⟨fun text i hparse => ?_, ?_, ?_⟩
  · exact ⟨Instruction.parse_line (Instruction.isCanonical_of_parse hparse), i.verb_readBack,
      i.readBack_eq_self_iff⟩
  · have hsavable : (TimerTable.after { minInterval } ops).Savable :=
      (savable_of_nil rfl).after ops
    have hrestored := hsavable.restore_save
    rwa [minInterval_after] at hrestored
  · exact fun x _ serial => x.commands_readBack_iff serial

/-- A line with arguments is read back, and a timer that was started is restored. -/
theorem restored_commands_greeting :
    let t : TimerTable := TimerTable.after { minInterval := 16 } [.command "T 100 msgbox hello"]
    Instruction.parse "msgbox hello" = .ok ⟨"MSGBOX", "hello"⟩ ∧
      Instruction.parse (Instruction.line ⟨"MSGBOX", "hello"⟩) = .ok ⟨"MSGBOX", "hello"⟩ ∧
      (TimerTable.restore { minInterval := 16 } t.save).1.timers.map (·.commands) =
        [[⟨"MSGBOX", "hello"⟩]] := by
  have hparse : Instruction.parse "msgbox hello" = .ok ⟨"MSGBOX", "hello"⟩ := by decide +kernel
  obtain ⟨hlines, hrestored, -⟩ := restored_commands 16 [.command "T 100 msgbox hello"]
  obtain ⟨hline, -, hsame⟩ := hlines _ _ hparse
  rw [hsame.mpr (by decide +kernel)] at hline
  refine ⟨hparse, hline, ?_⟩
  rw [hrestored]
  decide +kernel

/-- Arguments that begin with a colon come back without it, also those of a timer's command. -/
theorem not_forall_restored_commands :
    (¬∀ (text : String) (i : Instruction), Instruction.parse text = .ok i →
      Instruction.parse i.line = .ok i) ∧
    ¬∀ (minInterval : Int) (ops : List Operation),
      let t : TimerTable := TimerTable.after { minInterval } ops
      (TimerTable.restore { minInterval } t.save).1.timers.map (·.commands) =
        t.timers.map (·.commands) := by
  constructor
  · intro h
    have hread := h "msgbox::x" ⟨"MSGBOX", ":x"⟩ (by decide +kernel)
    revert hread
    decide +kernel
  · intro h
    have hread := h 16 [.command "T 100 msgbox::x"]
    revert hread
    decide +kernel

end TimerTable

end PointAndClick
