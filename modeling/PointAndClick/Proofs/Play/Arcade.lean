import PointAndClick.Proofs.Play.PauseFlags

/-!
# Saving and restoring in pauses

Several machines run one project. Users pause and resume them as a whole, and restore in any of them
what was saved of any. The marks of a pause agree in all of them (`Session.Coherent`), unless what
was saved in a pause is restored in a machine that is not paused: then the timers that were saved
stay paused (`Arcade.coherence`), also once the machine is resumed
(`Arcade.not_forall_coherent`).
-/

set_option autoImplicit false

namespace PointAndClick

namespace Session

/-- The marks of a pause agree: that of the session, that of its table of timers, and those of all
timers. -/
structure Coherent (s : Session) : Prop where
  table : s.timers.paused = s.paused
  timers : ∀ x ∈ s.timers.timers, x.paused = s.paused

/-- What was saved may be restored without parting the marks: the session is paused, or what was
saved was not, or it had no timers. -/
def Suits (s saved : Session) : Prop :=
  s.paused = true ∨ saved.paused = false ∨ saved.timers.timers = []

variable {s saved : Session}

theorem coherent_iff_aligned : s.Coherent ↔ s.Aligned (· = ·) (· = ·) := by
  constructor
  · intro h
    exact ⟨h.table.symm, fun x hx => h.table.trans (h.timers x hx).symm⟩
  · intro h
    exact ⟨h.table.symm, fun x hx => (h.flags x hx).symm.trans h.table.symm⟩

theorem savedTimers_save (s : Session) : savedTimers s.save = s.timers.save := rfl

theorem Coherent.restore (h : s.Coherent) (hsaved : saved.Coherent) (hsuits : s.Suits saved) :
    (restore saved.save s).2.Coherent := by
  rw [coherent_iff_aligned] at h ⊢
  refine h.restore (fun _ => rfl) ?_
  rw [savedTimers_save]
  rintro _ ⟨⟩ entry hentry hpaused
  obtain ⟨x, hx, rfl⟩ := List.mem_map.mp hentry
  rw [TimerTable.isPausedSaved_save, hsaved.timers x hx] at hpaused
  rcases hsuits with hs | hunpaused | hnone
  · exact h.table.symm.trans hs
  · rw [hunpaused] at hpaused
    nomatch hpaused
  · rw [hnone] at hx
    nomatch hx

/-- What was saved in a pause leaves timers paused in a session that is not paused. -/
theorem suits_of_coherent_restore (hsaved : saved.Coherent)
    (hok : (restore saved.save s).1 = .ok ()) (h : (restore saved.save s).2.Coherent) :
    s.Suits saved := by
  have hcases := restoresTimers saved.save s
  generalize Session.restore saved.save s = out at hcases hok h
  rw [Suits, or_iff_not_imp_left, or_iff_not_imp_left]
  intro hs hpaused
  rw [Bool.not_eq_true] at hs
  rw [Bool.not_eq_false] at hpaused
  by_contra hne
  have hentries : (saved.timers.timers.map Timer.save) ≠ [] := by simpa using hne
  cases hcases with
  | untouched => nomatch hok
  | stopped hset =>
      rw [savedTimers_save] at hset
      have hset' : (!(saved.timers.timers.map Timer.save).isEmpty) = false := hset
      rw [Bool.not_eq_false', List.isEmpty_iff] at hset'
      exact hentries hset'
  | @started s' hset hsame htimers =>
      rw [savedTimers_save] at hok htimers
      have hall : ∀ entry ∈ saved.timers.timers.map Timer.save,
          TimerTable.isPausedSaved entry = true := by
        intro entry hentry
        obtain ⟨x, hx, rfl⟩ := List.mem_map.mp hentry
        rw [TimerTable.isPausedSaved_save, hsaved.timers x hx, hpaused]
      obtain ⟨x, hx, hxpaused⟩ := TimerTable.exists_paused_startAllSaved hentries hall hok
      have hmark : x.paused = s'.paused := h.timers x (htimers ▸ hx)
      rw [hxpaused, hsame, hs] at hmark
      nomatch hmark

theorem paused_resume (s : Session) : (resume s).2.paused = false := by
  rw [resume_apply]
  split
  · rw [call, tell_apply, paused_told]
  · rename_i hpaused
    simpa using hpaused

end Session

namespace Machine

theorem session_restore (m : Machine) (state : Json) :
    (m.move (.act (.restore state))).session = (Session.restore state m.session).2 :=
  session_act_of_done rfl

theorem session_resume (m : Machine) :
    (m.move (.act .resume)).session = (Session.resume m.session).2 :=
  session_act_of_done rfl

end Machine

/-! ## Several machines -/

/-- Several machines, and the sessions whose states were saved. -/
structure Arcade where
  machines : List Machine := []
  saved : List Session := []

namespace Arcade

/-- What can be done with several machines. -/
inductive Operation
  /-- One more machine starts to run the project. -/
  | start (presentation : Presentation) (minInterval : Int)
  | move (i : Nat) (move : Move)
  | save (i : Nat)
  /-- The machine restores what was saved. -/
  | restore (i k : Nat)

/-- A user pauses and resumes the project only as a whole. Restoring is an operation of its own. -/
def Operation.IsWhole : Operation → Prop
  | .move _ (.act a) => a.IsWhole
  | _ => True

/-- Users act only in certain ways. -/
def Operation.Acts (acts : Machine.Action → Prop) : Operation → Prop
  | .move _ (.act a) => acts a
  | _ => True

theorem Operation.IsWhole.acts {op : Operation} (h : op.IsWhole) : op.Acts (·.IsWhole) := by
  cases op with
  | move i move => cases move <;> exact h
  | start _ _ | save _ | restore _ _ => trivial

/-- Something happens to one machine. -/
def change (a : Arcade) (i : Nat) (f : Machine → Machine) : Arcade :=
  match a.machines[i]? with
  | none => a
  | some m => { a with machines := a.machines.set i (f m) }

/-- Does one thing. -/
def operate (p : Project) (a : Arcade) : Operation → Arcade
  | .start presentation minInterval =>
      let m := Machine.ofSession (Session.ofProject p presentation minInterval)
      { a with machines := a.machines ++ [m] }
  | .move i move => a.change i (·.move move)
  | .save i => { a with saved := a.saved ++ (a.machines[i]?.map (·.session)).toList }
  | .restore i k =>
      match a.saved[k]? with
      | none => a
      | some saved => a.change i (·.move (.act (.restore saved.save)))

/-- Does one thing after another. -/
def after (p : Project) (a : Arcade) (ops : List Operation) : Arcade := ops.foldl (operate p) a

/-- What is restored fits the machine that restores it. -/
def Fits (fits : Session → Session → Prop) (a : Arcade) : Operation → Prop
  | .restore i k => ∀ m ∈ a.machines[i]?, ∀ saved ∈ a.saved[k]?, fits m.session saved
  | _ => True

/-- Whatever is restored fits the machine that restores it. -/
def AllFit (fits : Session → Session → Prop) (p : Project) : Arcade → List Operation → Prop
  | _, [] => True
  | a, op :: ops => a.Fits fits op ∧ AllFit fits p (a.operate p op) ops

/-- Something holds of all sessions, of those that run and of those that were saved. -/
structure All (I : Session → Prop) (a : Arcade) : Prop where
  machines : ∀ m ∈ a.machines, I m.session
  saved : ∀ s ∈ a.saved, I s

variable {p : Project} {a : Arcade} {I : Session → Prop} {fits : Session → Session → Prop}
  {acts : Machine.Action → Prop} {ops : List Operation}

theorem all_empty : All I {} where
  machines _ hm := nomatch hm
  saved _ hs := nomatch hs

theorem All.change (h : a.All I) {i : Nat} {f : Machine → Machine}
    (hf : ∀ m ∈ a.machines[i]?, I m.session → I (f m).session) : (a.change i f).All I := by
  unfold Arcade.change
  split
  · exact h
  · rename_i m hm
    refine ⟨fun m' hm' => ?_, h.saved⟩
    rcases List.mem_or_eq_of_mem_set hm' with hold | rfl
    · exact h.machines m' hold
    · exact hf m hm (h.machines m (List.mem_of_getElem? hm))

section

variable (hstart : ∀ presentation minInterval, I (Session.ofProject p presentation minInterval))
  (hmove : ∀ (m : Machine) (move : Move), (∀ a, move = .act a → acts a) →
    I m.session → I (m.move move).session)
  (hrestore : ∀ s saved : Session, fits s saved → I s → I saved →
    I (Session.restore saved.save s).2)
include hstart hmove hrestore

theorem All.operate (h : a.All I) {op : Operation} (hop : op.Acts acts) (hfits : a.Fits fits op) :
    (a.operate p op).All I := by
  cases op with
  | start presentation minInterval =>
      refine ⟨fun m hm => ?_, h.saved⟩
      rcases List.mem_append.mp hm with hold | hnew
      · exact h.machines m hold
      · rw [List.mem_singleton.mp hnew]
        exact hstart presentation minInterval
  | move i move =>
      refine h.change fun m _ => hmove m move ?_
      rintro action rfl
      exact hop
  | save i =>
      refine ⟨h.machines, fun s hs => ?_⟩
      rcases List.mem_append.mp hs with hold | hnew
      · exact h.saved s hold
      · obtain ⟨m, hm, rfl⟩ := Option.map_eq_some_iff.mp (Option.mem_toList.mp hnew)
        exact h.machines m (List.mem_of_getElem? hm)
  | restore i k =>
      simp only [Arcade.operate]
      split
      · exact h
      · rename_i saved hsaved
        refine h.change fun m hm hI => ?_
        rw [Machine.session_restore]
        exact hrestore _ _ (hfits m hm saved hsaved) hI
          (h.saved saved (List.mem_of_getElem? hsaved))

/-- What holds of a session at the start, and survives moves and the restoring of what fits, holds
of all sessions. -/
theorem All.after (h : a.All I) (hops : ∀ op ∈ ops, op.Acts acts) (hfits : AllFit fits p a ops) :
    (a.after p ops).All I := by
  induction ops generalizing a with
  | nil => exact h
  | cons op ops ih =>
      obtain ⟨hop, hops⟩ := List.forall_mem_cons.mp hops
      have hnext : (a.operate p op).All I := h.operate hstart hmove hrestore hop hfits.1
      exact ih hnext hops hfits.2

end

theorem allFit_any (p : Project) (a : Arcade) (ops : List Operation) :
    AllFit (fun _ _ => True) p a ops := by
  induction ops generalizing a with
  | nil => trivial
  | cons op ops ih =>
      refine ⟨?_, ih _⟩
      cases op <;> first | trivial | exact fun _ _ _ _ => trivial

/-- Relations between the marks survive whatever moves. -/
theorem aligned_move {r q : Bool → Bool → Prop} (hr : ∀ a, r a a) (hq : ∀ a, q a a) {m : Machine}
    {move : Move} (hmove : ∀ a, move = .act a → a.IsWhole) (h : m.session.Aligned r q) :
    (m.move move).session.Aligned r q :=
  (Session.spans_aligned hr hq).move (s := m.session) id (fun a ha => (hmove a ha).aligns r q) h

/-- Whatever is restored, the table of timers has the mark of its session, and a session that is
paused has no timer that is not. -/
theorem aligned_after (p : Project) (hops : ∀ op ∈ ops, op.IsWhole) :
    (after p {} ops).All (·.Aligned (· = ·) (· ≤ ·)) := by
  refine all_empty.after ?_ ?_ ?_ (fun op hop => (hops op hop).acts) (allFit_any p {} ops)
  · exact fun presentation minInterval =>
      Session.aligned_ofProject (fun _ => rfl) p presentation minInterval
  · exact fun _ _ => aligned_move (fun _ => rfl) Bool.le_refl
  · exact fun _ _ _ h _ => h.restore Bool.le_refl fun _ _ _ _ _ => Bool.le_true _

/-- As long as what is restored suits the machine that restores it, all marks agree. -/
theorem coherent_after (hops : ∀ op ∈ ops, op.IsWhole) (hsuit : AllFit Session.Suits p {} ops) :
    (after p {} ops).All Session.Coherent := by
  refine all_empty.after ?_ ?_ ?_ (fun op hop => (hops op hop).acts) hsuit
  · intro presentation minInterval
    rw [Session.coherent_iff_aligned]
    exact Session.aligned_ofProject (fun _ => rfl) p presentation minInterval
  · intro m move hmove h
    rw [Session.coherent_iff_aligned] at h ⊢
    exact aligned_move (fun _ => rfl) (fun _ => rfl) hmove h
  · exact fun _ _ hsuits h hsaved => h.restore hsaved hsuits

/-- Whatever is done with machines that are paused and resumed as a whole, the table of timers of
each has the mark of its session, and while a session is paused, so are all of its timers. As long
as what is restored suits the machine that restores it, all marks agree, and no timer is paused
once a machine was resumed. What does not suit it parts the marks for certain, if it can be
restored. -/
theorem coherence (p : Project) (ops : List Operation) (hops : ∀ op ∈ ops, op.IsWhole) :
    let a := after p {} ops
    (∀ m ∈ a.machines, m.session.timers.paused = m.session.paused ∧
      (m.session.paused = true → ∀ x ∈ m.session.timers.timers, x.paused = true)) ∧
    (AllFit Session.Suits p {} ops → ∀ m ∈ a.machines, m.session.Coherent ∧
      (∀ x ∈ (m.move (.act .resume)).session.timers.timers, x.paused = false) ∧
      ∀ saved ∈ a.saved, (Session.restore saved.save m.session).1 = .ok () →
        ((m.move (.act (.restore saved.save))).session.Coherent ↔ m.session.Suits saved)) := by
  intro a
  refine ⟨fun m hm => ?_, fun hsuit m hm => ?_⟩
  · have haligned := (aligned_after p hops).machines m hm
    refine ⟨haligned.table.symm, fun hpaused x hx => ?_⟩
    have hflag : m.session.timers.paused ≤ x.paused := haligned.flags x hx
    rw [← haligned.table, hpaused] at hflag
    exact hflag rfl
  · have hcoherent := coherent_after hops hsuit
    have hm' := hcoherent.machines m hm
    refine ⟨hm', fun x hx => ?_, fun saved hsaved hok => ?_⟩
    · have haligned := Session.coherent_iff_aligned.mp hm'
      have hresumed : (m.move (.act .resume)).session.Aligned (· = ·) (· = ·) :=
        aligned_move (fun _ => rfl) (fun _ => rfl) (by rintro _ ⟨⟩; trivial) haligned
      rw [← Session.coherent_iff_aligned] at hresumed
      rw [hresumed.timers x hx, Machine.session_resume, Session.paused_resume]
    · have hs := hcoherent.saved saved hsaved
      rw [Machine.session_restore]
      exact ⟨Session.suits_of_coherent_restore hs hok, hm'.restore hs⟩

/-- A command that starts a timer. -/
def lamp : Instruction := ⟨"TIMERSTART", "T 100 rem"⟩

/-- What was saved in a pause is restored in another machine that is paused, and this is resumed. -/
def handover : List Operation :=
  [.start {} 16, .move 0 (.act (.execute [lamp])), .move 0 (.act .pause), .save 0,
    .start {} 16, .move 1 (.act .pause), .restore 1 0, .move 1 (.act .resume)]

theorem coherence_handover :
    (∀ op ∈ handover, op.IsWhole) ∧ AllFit Session.Suits {} {} handover ∧
      ∀ m ∈ (after {} {} handover).machines, m.session.Coherent := by
  have hwhole : ∀ op ∈ handover, op.IsWhole := by
    simp [handover, Operation.IsWhole, Machine.Action.IsWhole]
  have hpaused : ((after {} {} (handover.take 6)).machines[1]?).all (·.session.paused) = true := by
    decide +kernel
  have hsuit : AllFit Session.Suits {} {} handover :=
    ⟨trivial, trivial, trivial, trivial, trivial, trivial,
      fun m hm _ _ => .inl ((Option.all_eq_true _ _).mp hpaused m hm), trivial, trivial⟩
  exact ⟨hwhole, hsuit, fun m hm => ((coherence {} handover hwhole).2 hsuit m hm).1⟩

/-- What was saved in a pause is restored once the machine was resumed, which is then resumed once
more. -/
def relapse : List Operation :=
  [.start {} 16, .move 0 (.act (.execute [lamp])), .move 0 (.act .pause), .save 0,
    .move 0 (.act .resume), .restore 0 0, .move 0 (.act .resume)]

/-- A machine that is not paused does nothing when it is resumed, so that the timers that it
restored stay paused. -/
theorem not_forall_coherent :
    ¬∀ (p : Project) (ops : List Operation), (∀ op ∈ ops, op.IsWhole) →
      ∀ m ∈ (after p {} ops).machines, m.session.Coherent := by
  intro h
  have hwhole : ∀ op ∈ relapse, op.IsWhole := by
    simp [relapse, Operation.IsWhole, Machine.Action.IsWhole]
  have hagree : ((after {} {} relapse).machines.all fun m =>
      m.session.timers.timers.all fun x => x.paused == m.session.paused) = true := by
    refine List.all_eq_true.mpr fun m hm => List.all_eq_true.mpr fun x hx => ?_
    exact beq_iff_eq.mpr ((h {} relapse hwhole m hm).timers x hx)
  have hpart : ((after {} {} relapse).machines.all fun m =>
      m.session.timers.timers.all fun x => x.paused == m.session.paused) = false := by
    decide +kernel
  rw [hpart] at hagree
  nomatch hagree

end Arcade

end PointAndClick
