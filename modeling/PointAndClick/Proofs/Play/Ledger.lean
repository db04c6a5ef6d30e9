import Mathlib.Data.List.Basic
import PointAndClick.Proofs.Play.Lock
import PointAndClick.Proofs.Play.Moves

/-!
# The order of calls

The ledger of a session has a lock of its own. It keeps the calls for commands, for changes of
scene and for ticks in the order in which they ask for the lock, gives the lock to the first that
waits whenever it is handed on, and marks whatever is told in the course of a call with the call's
place in that order. A machine does the same as its ledger (`Ledger.machine_after`).

What is told in the course of calls is then one block after another: the first call's, the second
call's, and so on.
-/

set_option autoImplicit false

namespace PointAndClick

/-! ## The ledger -/

/-- A machine with an account of its calls. -/
structure Ledger where
  machine : Machine
  /-- The calls that have asked for the lock, in that order. A call is known by its place. -/
  asked : List Request := []
  /-- The call that has the lock. -/
  holder : Option Nat := none
  /-- The calls that wait for the lock. -/
  waiting : List Nat := []
  /-- What was told, each with the call in whose course it was told. -/
  told : List (Option Nat × LogEntry) := []

namespace Ledger

/-- The machine has become another; what was told meanwhile belongs to a call, or to none. -/
def record (l : Ledger) (call : Option Nat) (m : Machine) : Ledger :=
  { l with
    machine := m
    told := l.told ++
      (m.session.log.toList.drop l.machine.session.log.size).map fun entry => (call, entry) }

/-- Something was done for no call. -/
def aside (l : Ledger) (m : Machine) : Ledger := l.record none m

/-- The machine has worked for the call that has the lock, which gives the lock back unless it is
paused. -/
def work (l : Ledger) (m : Machine) : Ledger :=
  { l.record l.holder m with holder := if m.running.isSome then l.holder else none }

/-- A call asks for the lock: it gets it at once if it is free and nobody waits. -/
def ask (l : Ledger) (r : Request) : Ledger :=
  let place := l.asked.length
  let asked := l.asked ++ [r]
  if l.holder.isNone && l.waiting.isEmpty then
    { l with asked, holder := some place }.work (l.machine.start r)
  else
    { l with
      asked
      waiting := l.waiting ++ [place]
      machine := { l.machine with queue := l.machine.queue ++ [r] } }

/-- Something was done at once, after which there may be a call. -/
def answer (l : Ledger) (step : Machine × Option Request) : Ledger :=
  match step.2 with
  | none => l.aside step.1
  | some r => (l.aside step.1).ask r

/-- The first that waits gets the lock. -/
def grant (l : Ledger) : Ledger :=
  match l.waiting with
  | [] => l
  | place :: rest =>
      match l.asked[place]? with
      | none => l
      | some r =>
          { l with holder := some place, waiting := rest }.work
            ({ l.machine with queue := l.machine.queue.tail }.start r)

/-- The call that has the lock goes on. -/
def goOn (l : Ledger) : Ledger :=
  match l.holder with
  | none => l
  | some _ => l.work l.machine.goOn

/-- A turn is taken. -/
def take (l : Ledger) : Turn → Ledger
  | .beginTimer serial => l.aside (l.machine.take (.beginTimer serial))
  | .tickTimer serial =>
      if l.machine.isIn serial .woken then l.answer (l.machine.tickCall serial) else l
  | .grant => l.grant
  | .resume => l.goOn

/-- A wait ends. -/
def wake (l : Ledger) (d : Machine.Due) : Ledger :=
  let m := { l.machine with now := max l.machine.now d.time }
  match d.waiter with
  | .running => (l.aside m).goOn
  | .timer serial =>
      if (m.session.timers.bySerial? serial).any (·.paused) then l.aside (l.machine.wake d)
      else l.answer (m.tickCall serial)

/-- The ledger makes a move. -/
def move (l : Ledger) : Move → Ledger
  | .act a => l.answer (l.machine.enter a)
  | .ask r => l.ask r
  | .turn t =>
      if t ∈ l.machine.session.turns then (l.aside (l.machine.dropTurn t)).take t else l
  | .wake d => l.wake d
  | .pass time => l.aside { l.machine with now := time }

/-- The ledger makes some moves. -/
def after (l : Ledger) (moves : List Move) : Ledger := moves.foldl move l

/-- The ledger of a session that starts. -/
def ofSession (s : Session) : Ledger := { machine := .ofSession s }

/-- What was told in the course of a call. -/
def block (l : Ledger) (place : Nat) : List (Option Nat × LogEntry) :=
  l.told.filter (·.1 = some place)

/-! ## What is told -/

/-- The calls in whose course something was told, in the order of what was told. -/
def begun (l : Ledger) : List Nat := l.told.filterMap Prod.fst ++ l.holder.toList

/-- The calls that will get the lock: those that wait, and the next to ask for it. -/
def toCome (l : Ledger) : List Nat := l.waiting ++ [l.asked.length]

/-- What was told is the log of the session, and the calls in whose course it was told come in
the order in which they asked for the lock, before all that wait. -/
structure InOrder (l : Ledger) : Prop where
  told : l.told.map Prod.snd = l.machine.session.log.toList
  outside : ∀ entry ∈ l.told, entry.1 = none → entry.2.IsOutside
  begun : l.begun.Pairwise (· ≤ ·)
  toCome : l.toCome.Pairwise (· < ·)
  before : ∀ place ∈ l.begun, ∀ place' ∈ l.toCome, place < place'

/-- The lock and the calls of the ledger are those of its machine. -/
structure Agrees (l : Ledger) : Prop extends l.InOrder where
  holds : l.holder.isSome = l.machine.running.isSome
  queue : l.waiting.map (l.asked[·]?) = l.machine.queue.map some

/-- Besides, the machine hands the lock on when it has to. -/
structure Fair (l : Ledger) : Prop extends l.Agrees where
  locks : l.machine.Locks

variable {l : Ledger} {m : Machine}

@[simp] theorem machine_aside : (l.aside m).machine = m := rfl

@[simp] theorem asked_aside : (l.aside m).asked = l.asked := rfl

@[simp] theorem waiting_aside : (l.aside m).waiting = l.waiting := rfl

theorem told_record (call : Option Nat) {entries : List LogEntry}
    (h : m.session.log.toList = l.machine.session.log.toList ++ entries) :
    (l.record call m).told = l.told ++ entries.map fun entry => (call, entry) := by
  have hsize : l.machine.session.log.size = l.machine.session.log.toList.length := rfl
  rw [record, h, hsize, List.drop_left]

theorem map_snd_told_record (call : Option Nat) (hl : l.InOrder) {entries : List LogEntry}
    (h : m.session.log.toList = l.machine.session.log.toList ++ entries) :
    (l.record call m).told.map Prod.snd = m.session.log.toList := by
  rw [told_record call h, List.map_append, hl.told, h, List.map_map]
  exact congrArg _ (List.map_id'' (fun _ => rfl) _)

theorem filterMap_fst_told_record (call : Option Nat) {entries : List LogEntry}
    (h : m.session.log.toList = l.machine.session.log.toList ++ entries) :
    (l.record call m).told.filterMap Prod.fst =
      l.told.filterMap Prod.fst ++ entries.filterMap fun _ => call := by
  rw [told_record call h, List.filterMap_append, List.filterMap_map]
  rfl

/-- What is done for no call adds no call. -/
theorem begun_aside {entries : List LogEntry}
    (h : m.session.log.toList = l.machine.session.log.toList ++ entries) :
    (l.aside m).begun = l.begun := by
  have hnone : entries.filterMap (fun _ => (none : Option Nat)) = [] :=
    List.filterMap_eq_nil_iff.mpr fun _ _ => rfl
  show (l.record none m).told.filterMap Prod.fst ++ l.holder.toList = l.begun
  rw [filterMap_fst_told_record none h, hnone, List.append_nil]
  rfl

theorem InOrder.aside (hl : l.InOrder)
    (h : ∃ entries, m.session.log.toList = l.machine.session.log.toList ++ entries ∧
      ∀ e ∈ entries, e.IsOutside) : (l.aside m).InOrder := by
  obtain ⟨entries, hlog, houtside⟩ := h
  have hbegun := begun_aside hlog
  refine ⟨map_snd_told_record none hl hlog, fun entry hentry hnone => ?_, ?_, hl.toCome, ?_⟩
  · have htold : (l.aside m).told = l.told ++ entries.map fun entry => (none, entry) :=
      told_record none hlog
    rw [htold] at hentry
    obtain hold | hnew := List.mem_append.mp hentry
    · exact hl.outside entry hold hnone
    · obtain ⟨e, he, rfl⟩ := List.mem_map.mp hnew
      exact houtside e he
  · rw [hbegun]
    exact hl.begun
  · rw [hbegun]
    exact hl.before

/-- All that is told by the work for a call belongs to that call. -/
theorem begun_work {place : Nat} (hholder : l.holder = some place) {entries : List LogEntry}
    (h : m.session.log.toList = l.machine.session.log.toList ++ entries) :
    ∃ places, (l.work m).begun = l.told.filterMap Prod.fst ++ places ∧
      ∀ place' ∈ places, place' = place := by
  refine ⟨(entries.filterMap fun _ => l.holder) ++ (l.work m).holder.toList, ?_, ?_⟩
  · show (l.record l.holder m).told.filterMap Prod.fst ++ (l.work m).holder.toList = _
    rw [filterMap_fst_told_record _ h, List.append_assoc]
  · intro place' hplace
    have hwork : (l.work m).holder = if m.running.isSome then some place else none := by
      rw [← hholder]
      rfl
    rw [hholder, hwork] at hplace
    obtain htold | hheld := List.mem_append.mp hplace
    · obtain ⟨-, -, heq⟩ := List.mem_filterMap.mp htold
      exact (Option.some.inj heq).symm
    · split at hheld
      · exact List.mem_singleton.mp hheld
      · nomatch hheld

theorem InOrder.work (hl : l.InOrder) {place : Nat} (hholder : l.holder = some place)
    {entries : List LogEntry}
    (h : m.session.log.toList = l.machine.session.log.toList ++ entries) :
    (l.work m).InOrder := by
  obtain ⟨places, hbegun, hplaces⟩ := begun_work hholder h
  -- the call was already the last one in whose course something was told
  have hheld : l.begun = l.told.filterMap Prod.fst ++ [place] := by
    rw [Ledger.begun, hholder]
    rfl
  have hle := hl.begun
  have hbefore := hl.before
  rw [hheld] at hle hbefore
  obtain ⟨htold, -, hlast⟩ := List.pairwise_append.mp hle
  refine ⟨map_snd_told_record _ hl h, fun entry hentry hnone => ?_, ?_, hl.toCome, ?_⟩
  · have hwork : (l.work m).told = l.told ++ entries.map fun entry => (l.holder, entry) :=
      told_record _ h
    rw [hwork] at hentry
    obtain hold | hnew := List.mem_append.mp hentry
    · exact hl.outside entry hold hnone
    · obtain ⟨e, -, rfl⟩ := List.mem_map.mp hnew
      rw [hholder] at hnone
      nomatch hnone
  · rw [hbegun]
    refine List.pairwise_append.mpr ⟨htold, ?_, fun place₁ h₁ place₂ h₂ => ?_⟩
    · exact List.pairwise_of_forall_mem_list fun place₁ h₁ place₂ h₂ =>
        Nat.le_of_eq ((hplaces place₁ h₁).trans (hplaces place₂ h₂).symm)
    · rw [hplaces place₂ h₂]
      exact hlast place₁ h₁ place (List.mem_singleton_self place)
  · rw [hbegun]
    intro place₁ h₁ place₂ h₂
    obtain hold | hnew := List.mem_append.mp h₁
    · exact hbefore place₁ (List.mem_append_left _ hold) place₂ h₂
    · rw [hplaces place₁ hnew]
      exact hbefore place (List.mem_append_right _ (List.mem_singleton_self place)) place₂ h₂

/-! ## Moves -/

theorem InOrder.lt_of_waiting (hl : l.InOrder) {place : Nat} (h : place ∈ l.waiting) :
    place < l.asked.length :=
  (List.pairwise_append.mp hl.toCome).2.2 place h _ (List.mem_singleton_self _)

theorem InOrder.lt_of_begun (hl : l.InOrder) {place : Nat} (h : place ∈ l.begun) :
    place < l.asked.length :=
  hl.before place h _ (List.mem_append_right _ (List.mem_singleton_self _))

theorem Agrees.aside (hl : l.Agrees) (hrunning : m.running = l.machine.running)
    (hqueue : m.queue = l.machine.queue)
    (htold : ∃ entries, m.session.log.toList = l.machine.session.log.toList ++ entries ∧
      ∀ e ∈ entries, e.IsOutside) : (l.aside m).Agrees where
  toInOrder := hl.toInOrder.aside htold
  holds := hl.holds.trans (congrArg _ hrunning.symm)
  queue := hl.queue.trans (congrArg _ hqueue.symm)

theorem Fair.aside (hl : l.Fair) (h : Machine.Aside l.machine m) : (l.aside m).Fair where
  toAgrees := hl.toAgrees.aside h.running h.queue h.told
  locks := hl.locks.aside h

/-- Work for the call that has the lock. -/
theorem InOrder.fair_work (hl : l.InOrder) {place : Nat} (hholder : l.holder = some place)
    {m₀ : Machine} (hwork : Machine.Works m₀ m)
    (hlog : m₀.session.log = l.machine.session.log)
    (hqueue : l.waiting.map (l.asked[·]?) = m₀.queue.map some) : (l.work m).Fair := by
  obtain ⟨entries, hentries⟩ := hwork.told
  rw [hlog] at hentries
  refine ⟨⟨hl.work hholder hentries, ?_, hqueue.trans (congrArg _ hwork.queue.symm)⟩, hwork.locks⟩
  show (if m.running.isSome then l.holder else none).isSome = m.running.isSome
  cases m.running with
  | none => rfl
  | some running =>
      rw [hholder]
      rfl

/-! ## Asking for the lock -/

/-- One of the calls to come gets the lock, before all that still wait. -/
theorem InOrder.hold (hl : l.InOrder) (hfree : l.holder = none) {place : Nat}
    (hplace : place ∈ l.toCome) {asked : List Request} {waiting : List Nat}
    (hfirst : ∀ place' ∈ waiting ++ [asked.length], place < place')
    (hwaiting : (waiting ++ [asked.length]).Pairwise (· < ·)) :
    InOrder { l with asked, waiting, holder := some place } := by
  have hbegun : l.begun = l.told.filterMap Prod.fst := by
    rw [Ledger.begun, hfree]
    exact List.append_nil _
  have hle := hl.begun
  have hbefore := hl.before
  rw [hbegun] at hle hbefore
  -- nothing was told yet in the course of the call; all that was told was in that of earlier ones
  refine ⟨hl.told, hl.outside, ?_, hwaiting, fun place₁ h₁ place₂ h₂ => ?_⟩
  · refine List.pairwise_append.mpr
      ⟨hle, List.pairwise_singleton _ _, fun place₁ h₁ place₂ h₂ => ?_⟩
    rw [List.mem_singleton.mp h₂]
    exact Nat.le_of_lt (hbefore place₁ h₁ place hplace)
  · rcases List.mem_append.mp h₁ with htold | hnow
    · exact Nat.lt_trans (hbefore place₁ htold place hplace) (hfirst place₂ h₂)
    · rw [List.mem_singleton.mp hnow]
      exact hfirst place₂ h₂

theorem Agrees.waiting_eq_nil_iff (hl : l.Agrees) : l.waiting = [] ↔ l.machine.queue = [] := by
  rw [← List.map_eq_nil_iff, hl.queue, List.map_eq_nil_iff]

theorem Agrees.holder_eq_none_iff (hl : l.Agrees) :
    l.holder = none ↔ l.machine.running = none := by
  rw [← Option.isNone_iff_eq_none, ← Option.not_isSome, hl.holds, Option.not_isSome,
    Option.isNone_iff_eq_none]

/-- The lock is free and nobody waits for it in the ledger just when this is so in the machine. -/
theorem Agrees.free_iff (hl : l.Agrees) :
    (l.holder.isNone && l.waiting.isEmpty) = true ↔
      (l.machine.running.isNone && l.machine.queue.isEmpty) = true := by
  simp only [Bool.and_eq_true, Option.isNone_iff_eq_none, List.isEmpty_iff]
  exact and_congr hl.holder_eq_none_iff hl.waiting_eq_nil_iff

/-- The next call leaves those that wait where they are. -/
theorem Agrees.queue_concat (hl : l.Agrees) (r : Request) :
    l.waiting.map ((l.asked ++ [r])[·]?) = l.machine.queue.map some := by
  rw [← hl.queue]
  exact List.map_congr_left fun place h => List.getElem?_append_left (hl.lt_of_waiting h)

/-- A call that asks while another runs or waits goes to the end of the queue. -/
theorem Fair.enqueue (hl : l.Fair) (r : Request)
    (hbusy : ¬(l.machine.running.isNone && l.machine.queue.isEmpty) = true) :
    Fair { l with
      asked := l.asked ++ [r]
      waiting := l.waiting ++ [l.asked.length]
      machine := { l.machine with queue := l.machine.queue ++ [r] } } := by
  have hlength : (l.asked ++ [r]).length = l.asked.length + 1 := List.length_append
  have hle {place : Nat} (h : place ∈ l.toCome) : place ≤ l.asked.length := by
    rcases List.mem_append.mp h with hwaits | hnext
    · exact Nat.le_of_lt (hl.lt_of_waiting hwaits)
    · exact Nat.le_of_eq (List.mem_singleton.mp hnext)
  refine ⟨⟨⟨hl.told, hl.outside, hl.begun, ?_, fun place h place' h' => ?_⟩, hl.holds, ?_⟩, ?_⟩
  · refine List.pairwise_append.mpr ⟨hl.toCome, List.pairwise_singleton _ _, ?_⟩
    intro place h place' h'
    rw [List.mem_singleton.mp h', hlength]
    exact Nat.lt_succ_of_le (hle h)
  · rcases List.mem_append.mp h' with hbefore | hlast
    · exact hl.before place h place' hbefore
    · rw [List.mem_singleton.mp hlast, hlength]
      exact Nat.lt_succ_of_lt (hl.lt_of_begun h)
  · rw [List.map_append, hl.queue_concat, List.map_append, List.map_singleton,
      List.getElem?_concat_length]
    rfl
  · cases hrunning : l.machine.running with
    | some running =>
        exact Machine.locks_of_running hrunning
          (hl.locks.grants_eq_zero (.inl (by rw [hrunning]; rfl)))
    | none =>
        -- the queue was not empty, so that the lock is being handed on already
        have hlocks := hl.locks
        cases hqueue : l.machine.queue with
        | nil => exact absurd (by rw [hrunning, hqueue]; rfl) hbusy
        | cons first rest =>
            rw [Machine.Locks, hrunning, hqueue] at hlocks
            rw [Machine.Locks, hrunning]
            exact hlocks

theorem Fair.ask (hl : l.Fair) (r : Request) : (l.ask r).Fair := by
  unfold Ledger.ask
  dsimp only
  split
  · rename_i hfree
    rw [Bool.and_eq_true, Option.isNone_iff_eq_none, List.isEmpty_iff] at hfree
    obtain ⟨hholder, hwaiting⟩ := hfree
    have hqueue : l.machine.queue = [] := hl.waiting_eq_nil_iff.mp hwaiting
    -- the newcomer is behind all that were ever called, so that it may hold the lock
    have hhold : InOrder { l with asked := l.asked ++ [r], holder := some l.asked.length } := by
      refine hl.hold hholder (List.mem_append_right _ (List.mem_singleton_self _)) ?_ ?_
      · rw [hwaiting, List.length_append]
        exact fun place h => (List.mem_singleton.mp h) ▸ Nat.lt_succ_self _
      · rw [hwaiting]
        exact List.pairwise_singleton _ _
    have hwork := Machine.works_start r (hl.locks.grants_eq_zero (.inr hqueue))
    exact hhold.fair_work rfl hwork rfl (hl.queue_concat r)
  · rename_i hbusy
    exact hl.enqueue r (mt hl.free_iff.mpr hbusy)

theorem Fair.answer (hl : l.Fair) {step : Machine × Option Request}
    (h : Machine.Aside l.machine step.1) : (l.answer step).Fair := by
  unfold Ledger.answer
  split
  · exact hl.aside h
  · exact (hl.aside h).ask _

theorem machine_ask (hl : l.Agrees) (r : Request) : (l.ask r).machine = l.machine.request r := by
  unfold ask Machine.request
  dsimp only
  by_cases hfree : (l.machine.running.isNone && l.machine.queue.isEmpty) = true
  · rw [if_pos hfree, if_pos (hl.free_iff.mpr hfree)]
    rfl
  · rw [if_neg hfree, if_neg (mt hl.free_iff.mp hfree)]

theorem machine_answer (hl : l.Fair) {step : Machine × Option Request}
    (h : Machine.Aside l.machine step.1) : (l.answer step).machine = Machine.answer step := by
  obtain ⟨m, call⟩ := step
  cases call with
  | none => rfl
  | some r => exact machine_ask (hl.aside h).toAgrees r

/-! ## Handing on the lock -/

/-- The first in the queue of the machine is the first that waits in the ledger. -/
theorem Agrees.waiting_eq (hl : l.Agrees) {first : Request} {others : List Request}
    (h : l.machine.queue = first :: others) :
    ∃ place rest, l.waiting = place :: rest ∧ l.asked[place]? = some first ∧
      rest.map (l.asked[·]?) = others.map some := by
  have hqueue := hl.queue
  cases hwaiting : l.waiting with
  | nil =>
      rw [hwaiting, h] at hqueue
      nomatch hqueue
  | cons place rest =>
      rw [hwaiting, h, List.map_cons, List.map_cons, List.cons.injEq] at hqueue
      exact ⟨place, rest, rfl, hqueue.1, hqueue.2⟩

theorem machine_grant (hl : l.Agrees) : l.grant.machine = l.machine.take .grant := by
  unfold grant
  cases hqueue : l.machine.queue with
  | nil =>
      have hwaiting : l.waiting = [] := hl.waiting_eq_nil_iff.mpr hqueue
      simp only [hwaiting, Machine.take, hqueue]
  | cons first others =>
      obtain ⟨place, rest, hwaiting, hasked, -⟩ := hl.waiting_eq hqueue
      simp only [hwaiting, hasked, Machine.take, hqueue]
      rfl

/-- The first that waits gets the lock. -/
theorem Fair.grant (hl : l.Fair) (hgrant : Turn.grant ∈ l.machine.session.turns) :
    (l.aside (l.machine.dropTurn .grant)).grant.Fair := by
  obtain ⟨hrunning, hqueue, hone⟩ := hl.locks.of_grant_mem hgrant
  -- it was the only turn that hands the lock on
  have hdrop : (l.machine.dropTurn .grant).grants = 0 := by
    show (l.machine.session.turns.erase Turn.grant).count .grant = 0
    rw [List.count_erase_self]
    exact congrArg (· - 1) hone
  have hholder : l.holder = none := hl.holder_eq_none_iff.mpr hrunning
  have horder : (l.aside (l.machine.dropTurn .grant)).InOrder :=
    hl.toInOrder.aside ⟨[], (List.append_nil _).symm, fun _ he => nomatch he⟩
  obtain ⟨first, others, hcons⟩ := List.exists_cons_of_ne_nil hqueue
  obtain ⟨place, rest, hwaiting, hasked, hrest⟩ := hl.waiting_eq hcons
  -- of the calls to come the first goes, which is the earliest of them
  have hto : l.toCome = place :: (rest ++ [l.asked.length]) := by
    rw [Ledger.toCome, hwaiting]
    rfl
  have hsorted := hl.toCome
  rw [hto, List.pairwise_cons] at hsorted
  have hhold : InOrder { l.aside (l.machine.dropTurn .grant) with
      holder := some place, waiting := rest } :=
    horder.hold hholder (hto ▸ List.mem_cons_self) hsorted.1 hsorted.2
  have hwork : Machine.Works { l.machine.dropTurn .grant with queue := others }
      ({ l.machine.dropTurn .grant with queue := others }.start first) :=
    Machine.works_start first hdrop
  have hstep : (l.aside (l.machine.dropTurn .grant)).grant =
      { l.aside (l.machine.dropTurn .grant) with holder := some place, waiting := rest }.work
        ({ l.machine.dropTurn .grant with queue := others }.start first) := by
    have htail : (l.machine.dropTurn .grant).queue.tail = others := congrArg List.tail hcons
    simp only [Ledger.grant, waiting_aside, asked_aside, machine_aside, hwaiting, hasked, htail]
  rw [hstep]
  exact hhold.fair_work rfl hwork rfl hrest

/-! ## Moves -/

theorem machine_goOn (hl : l.Agrees) : l.goOn.machine = l.machine.goOn := by
  unfold goOn
  split
  · rename_i hholder
    unfold Machine.goOn
    rw [hl.holder_eq_none_iff.mp hholder]
  · rfl

theorem Fair.goOn (hl : l.Fair) : l.goOn.Fair := by
  unfold Ledger.goOn
  split
  · exact hl
  · rename_i place hholder
    have hsome : l.machine.running.isSome = true := by rw [← hl.holds, hholder]; rfl
    obtain ⟨running, hrunning⟩ := Option.isSome_iff_exists.mp hsome
    have hwork := Machine.works_goOn hrunning (hl.locks.grants_eq_zero (.inl hsome))
    exact hl.toInOrder.fair_work hholder hwork rfl hl.queue

theorem Fair.take (hl : l.Fair) {t : Turn} (ht : t ≠ .grant) : (l.take t).Fair := by
  cases t with
  | beginTimer serial =>
      refine hl.aside ?_
      simp only [Machine.take]
      split
      · exact Machine.aside_of_eq rfl rfl rfl rfl
      · exact Machine.aside_of_eq rfl rfl rfl rfl
  | tickTimer serial =>
      simp only [Ledger.take]
      split
      · exact hl.answer (Machine.aside_of_eq rfl rfl rfl rfl)
      · exact hl
  | grant => exact absurd rfl ht
  | resume => exact hl.goOn

theorem Fair.wake (hl : l.Fair) (d : Machine.Due) : (l.wake d).Fair := by
  unfold Ledger.wake
  dsimp only
  split
  · exact Fair.goOn (hl.aside (Machine.aside_of_eq rfl rfl rfl rfl))
  · rename_i serial hwaiter
    split
    -- a timer that is paused goes on waiting, and calls nothing
    · rename_i hpaused
      refine hl.aside ?_
      unfold Machine.wake
      rw [hwaiter]
      dsimp only
      rw [if_pos hpaused]
      exact Machine.aside_of_eq rfl rfl rfl rfl
    · exact hl.answer (Machine.aside_of_eq rfl rfl rfl rfl)

theorem aside_enter (m : Machine) (a : Machine.Action) : Machine.Aside m (m.enter a).1 := by
  have hgrows := Machine.growsAt_plan a m.session
  unfold Session.GrowsAt at hgrows
  unfold Machine.enter
  dsimp only
  split <;> rename_i hplan <;> rw [hplan] at hgrows <;>
    exact Machine.aside_of_grows rfl rfl hgrows

theorem aside_dropTurn (m : Machine) {t : Turn} (ht : t ≠ .grant) :
    Machine.Aside m (m.dropTurn t) where
  running := rfl
  queue := rfl
  grants := List.count_erase_of_ne ht.symm
  told := ⟨[], (List.append_nil _).symm, fun _ he => nomatch he⟩

/-- Every move keeps the ledger in agreement with its machine. -/
theorem Fair.move (hl : l.Fair) (move : Move) : (l.move move).Fair := by
  cases move with
  | act a => exact hl.answer (aside_enter l.machine a)
  | ask r => exact hl.ask r
  | turn t =>
      unfold Ledger.move
      dsimp only
      split
      · rename_i hmem
        by_cases ht : t = .grant
        · subst ht
          exact hl.grant hmem
        · exact (hl.aside (aside_dropTurn l.machine ht)).take ht
      · exact hl
  | wake d => exact hl.wake d
  | pass time => exact hl.aside (Machine.aside_of_eq rfl rfl rfl rfl)

theorem machine_take (hl : l.Fair) {t : Turn} (ht : t ≠ .grant) :
    (l.take t).machine = l.machine.take t := by
  cases t with
  | beginTimer serial => rfl
  | tickTimer serial =>
      unfold take Machine.take
      dsimp only
      split
      · rw [machine_answer hl (Machine.aside_of_eq rfl rfl rfl rfl), Machine.tick_eq_answer]
      · rfl
  | grant => exact absurd rfl ht
  | resume => exact machine_goOn hl.toAgrees

theorem machine_wake (hl : l.Fair) (d : Machine.Due) :
    (l.wake d).machine = l.machine.wake d := by
  obtain ⟨time, order, waiter⟩ := d
  have hlater : Machine.Aside l.machine { l.machine with now := max l.machine.now time } :=
    Machine.aside_of_eq rfl rfl rfl rfl
  cases waiter with
  | running => exact machine_goOn (hl.aside hlater).toAgrees
  | timer serial =>
      have hcall : Machine.Aside l.machine
          (Machine.tickCall { l.machine with now := max l.machine.now time } serial).1 :=
        Machine.aside_of_eq rfl rfl rfl rfl
      unfold wake Machine.wake
      dsimp only
      split
      · rfl
      · rw [machine_answer hl hcall, Machine.tick_eq_answer]

/-- A machine moves as its ledger does. -/
theorem machine_move (hl : l.Fair) (move : Move) :
    (l.move move).machine = l.machine.move move := by
  cases move with
  | act a => exact machine_answer hl (aside_enter l.machine a)
  | ask r => exact machine_ask hl.toAgrees r
  | turn t =>
      unfold Ledger.move Machine.move
      dsimp only
      split
      · by_cases ht : t = .grant
        · subst ht
          refine machine_grant (hl.toAgrees.aside rfl rfl ?_)
          exact ⟨[], (List.append_nil _).symm, fun _ he => nomatch he⟩
        · exact machine_take (hl.aside (aside_dropTurn l.machine ht)) ht
      · rfl
  | wake d => exact machine_wake hl d
  | pass time => rfl

theorem Fair.after (hl : l.Fair) (moves : List Move) : (l.after moves).Fair := by
  induction moves generalizing l with
  | nil => exact hl
  | cons move moves ih => exact ih (hl.move move)

theorem machine_after (hl : l.Fair) (moves : List Move) :
    (l.after moves).machine = l.machine.after moves := by
  induction moves generalizing l with
  | nil => rfl
  | cons move moves ih =>
      exact (ih (hl.move move)).trans (congrArg (·.after moves) (machine_move hl move))

theorem fair_ofSession {s : Session} (hturns : s.turns = []) (hlog : s.log = #[]) :
    (ofSession s).Fair where
  told := by
    show [] = s.log.toList
    rw [hlog]
  outside _ hentry := nomatch hentry
  begun := List.Pairwise.nil
  toCome := List.pairwise_singleton _ _
  before _ hplace := nomatch hplace
  locks := by
    show s.turns.count .grant = 0
    rw [hturns]
    rfl
  holds := rfl
  queue := rfl

/-! ## Blocks -/

/-- Entries whose calls come in order are the blocks of the calls, one after another. -/
theorem filter_isSome_eq_flatMap {α : Type} (told : List (Option Nat × α)) (count : Nat)
    (hsorted : (told.filterMap Prod.fst).Pairwise (· ≤ ·))
    (hlt : ∀ place ∈ told.filterMap Prod.fst, place < count) :
    told.filter (·.1.isSome) =
      (List.range count).flatMap fun place => told.filter (·.1 = some place) := by
  induction told with
  | nil => exact (List.flatMap_eq_nil_iff.mpr fun _ _ => rfl).symm
  | cons entry told ih =>
      obtain ⟨call, what⟩ := entry
      cases call with
      | none =>
          rw [List.filter_cons_of_neg (by simp), ih hsorted hlt]
          exact List.flatMap_congr fun place _ => (List.filter_cons_of_neg (by simp)).symm
      | some first =>
          have hcalls : ((some first, what) :: told).filterMap Prod.fst =
              first :: told.filterMap Prod.fst := rfl
          rw [hcalls] at hsorted hlt
          obtain ⟨hfirst, hsorted⟩ := List.pairwise_cons.mp hsorted
          obtain ⟨hcount, hlt⟩ := List.forall_mem_cons.mp hlt
          -- the blocks before that of the first entry are empty, those after it do not have it
          obtain ⟨earlier, later, hrange⟩ := List.append_of_mem (List.mem_range.mpr hcount)
          have hpairs : (List.range count).Pairwise (· < ·) := List.pairwise_lt_range
          rw [hrange] at hpairs
          obtain ⟨-, hlater, hearlier⟩ := List.pairwise_append.mp hpairs
          have hempty : ∀ place ∈ earlier, told.filter (·.1 = some place) = [] := by
            intro place hplace
            have hlt := hearlier place hplace first List.mem_cons_self
            refine List.filter_eq_nil_iff.mpr fun entry hentry hcall => ?_
            have hmem := List.mem_filterMap.mpr ⟨entry, hentry, of_decide_eq_true hcall⟩
            exact absurd (hfirst place hmem) (Nat.not_le.mpr hlt)
          have hother {place : Nat} (hne : place ≠ first) :
              ((some first, what) :: told).filter (·.1 = some place) =
                told.filter (·.1 = some place) :=
            List.filter_cons_of_neg (by simpa using hne.symm)
          have hown : ((some first, what) :: told).filter (·.1 = some first) =
              (some first, what) :: told.filter (·.1 = some first) :=
            List.filter_cons_of_pos (by simp)
          have hearly : earlier.flatMap
              (fun place => ((some first, what) :: told).filter (·.1 = some place)) = [] :=
            List.flatMap_eq_nil_iff.mpr fun place hplace =>
              (hother (Nat.ne_of_lt (hearlier place hplace first List.mem_cons_self))).trans
                (hempty place hplace)
          have hlate : later.flatMap
              (fun place => ((some first, what) :: told).filter (·.1 = some place)) =
                later.flatMap fun place => told.filter (·.1 = some place) :=
            List.flatMap_congr fun place hplace =>
              hother (Nat.ne_of_gt ((List.pairwise_cons.mp hlater).1 place hplace))
          rw [List.filter_cons_of_pos (by simp), ih hsorted hlt, hrange, List.flatMap_append,
            List.flatMap_append, List.flatMap_cons, List.flatMap_cons, hown, hearly, hlate,
            List.flatMap_eq_nil_iff.mpr hempty]
          rfl

/-- **Calls run one after another.** Whatever moves a session makes, in whatever order: what is
told in the course of calls is one block for each call, in the order in which the calls asked for
the lock. Nothing else is told but what the pointer and the clicks of a user, and the pausing,
resuming and stopping of media, come to at once. -/
theorem told_eq_blocks (p : Project) (presentation : Presentation) (minInterval : Int)
    (moves : List Move) :
    let s := Session.ofProject p presentation minInterval
    let l := (ofSession s).after moves
    l.machine = (Machine.ofSession s).after moves ∧
      l.told.map Prod.snd = l.machine.session.log.toList ∧
      l.told.filter (·.1.isSome) = (List.range l.asked.length).flatMap l.block ∧
      ∀ entry ∈ l.told, entry.1 = none → entry.2.IsOutside := by
  intro s l
  have hfair : l.Fair := (fair_ofSession rfl rfl).after moves
  refine ⟨machine_after (fair_ofSession rfl rfl) moves, hfair.told, ?_, hfair.outside⟩
  -- calls are told of in the order in which they asked, and only those that asked
  refine filter_isSome_eq_flatMap l.told _ ?_ fun place h => ?_
  · exact (List.pairwise_append.mp hfair.begun).1
  · exact hfair.lt_of_begun (List.mem_append_left _ h)

end Ledger

end PointAndClick
