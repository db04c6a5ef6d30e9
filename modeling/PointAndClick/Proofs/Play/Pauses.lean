import PointAndClick.Proofs.Play.Commands
import PointAndClick.Proofs.Play.Lock
import PointAndClick.Proofs.Play.Moves

/-!
# Pauses

While what runs is paused, its surroundings go on: a user acts, timers come due, calls ask for the
lock. `Session.Meanwhile` says what they leave as it is, but for the restoring of a saved state,
which may end a change of scene that is under way (`Session.meanwhile_plan`).

What a user does at once is walked through for any relation between sessions that has room for it
(`Session.Attends`).
-/

set_option autoImplicit false

namespace PointAndClick

/-- What is asked for is no tick. -/
def Machine.Plan.AsksNoTick : Machine.Plan → Prop
  | .ask (.tick _) _ => False
  | _ => True

/-- The action neither goes to another place of the history nor restores a saved state. -/
def Machine.Action.IsStill : Machine.Action → Prop
  | .back | .forward | .restore _ => False
  | _ => True

/-- The action pauses and stops nothing either, nor does it resume anything. -/
def Machine.Action.IsLight : Machine.Action → Prop
  | .pause | .resume | .stop | .pauseTimers _ | .resumeTimers _ | .stopTimer _ => False
  | a => a.IsStill

namespace Session

variable {s s' : Session}

/-! ## What a user does at once -/

/-- A relation between sessions that covers what the pointer and requests do at once. -/
structure Points (R : Session → Session → Prop) : Prop extends Composes R where
  told (s : Session) {entry : LogEntry} : entry.IsOutside → R s (s.told entry)
  hovered (s : Session) (hovered : Option HotspotRef) : R s { s with hovered }

/-- A relation between sessions that covers what a user does at once without going to another place
of the history. -/
structure Attends (R : Session → Session → Prop) : Prop extends Points R where
  paused (s : Session) (paused : Bool) : R s { s with paused }
  pauseTimers (id : Option String) (s : Session) : R s (pauseTimers id s).2
  resumeTimers (id : Option String) (s : Session) : R s (resumeTimers id s).2
  stopTimer (id : String) (s : Session) : R s (stopTimer id s).2
  stopTimers (s : Session) : R s { s with timers := s.timers.stopAll }

theorem forward_eq (n : Navigation) : ∃ place, n.forward.1 = { n with place } := by
  unfold Navigation.forward
  split
  · exact ⟨_, rfl⟩
  · exact ⟨n.place, rfl⟩

section

variable {R : Session → Session → Prop} (hR : Points R)
include hR

theorem Points.call {c : Call} (s : Session) (h : (LogEntry.call c).IsOutside := by trivial) :
    Keeps R (fun _ => True) (call c) s where
  related := by rw [Session.call, tell_apply]; exact hR.told s h
  result _ _ := trivial

theorem Points.emit {e : Event} (s : Session) (h : (LogEntry.event e).IsOutside := by trivial) :
    Keeps R (fun _ => True) (emit e) s where
  related := by rw [Session.emit, tell_apply]; exact hR.told s h
  result _ _ := trivial

theorem Points.planActivate (r : HotspotRef) (reply : Reply) (s : Session) :
    Keeps R Machine.Plan.AsksNoTick (Machine.planActivate r reply) s := by
  refine Keeps.get_bind ?_
  split
  · exact hR.throw _ s
  · exact hR.bind (hR.emit s) fun _ s' _ => hR.pure trivial s'

theorem Points.planHover (p : Point) (s : Session) :
    Keeps R Machine.Plan.AsksNoTick (Machine.planHover p) s := by
  refine Keeps.get_bind ?_
  dsimp only
  split
  · exact hR.pure trivial s
  · split
    · refine hR.bind (hR.emit s) fun _ s' _ => ?_
      refine hR.bind (keeps_of_related (hR.hovered s' _)) fun _ s' _ => ?_
      split
      · exact hR.pure trivial s'
      · exact hR.bind (hR.emit s') fun _ s' _ => hR.pure (by split <;> trivial) s'
    · refine hR.bind (keeps_of_related (hR.hovered s _)) fun _ s' _ => ?_
      split
      · exact hR.pure trivial s'
      · exact hR.bind (hR.emit s') fun _ s' _ => hR.pure (by split <;> trivial) s'

/-- A step in the history changes only the place in it. -/
theorem Points.planHistory (hmove : ∀ (s : Session) (place : Option Nat),
      R s { s with navigation := { s.navigation with place } })
    {go : Navigation → Navigation × Except Fault (Option Nat)}
    (hgo : ∀ n, ∃ place, (go n).1 = { n with place }) (s : Session) :
    Keeps R Machine.Plan.AsksNoTick (Machine.planHistory go) s := by
  have hnavigating : R s (navigating go s).2 := by
    obtain ⟨place, hplace⟩ := hgo s.navigation
    rw [navigating_apply, hplace]
    exact hmove s place
  refine hR.bind (keeps_of_related hnavigating) fun found s' _ => ?_
  cases found <;> exact hR.pure trivial s'

theorem Points.plan {a : Machine.Action} (ha : a.IsLight) (s : Session) :
    Keeps R Machine.Plan.AsksNoTick (Machine.plan a) s := by
  cases a with
  | goToScene ref =>
      refine Keeps.get_bind (hR.given_bind fun index => ?_)
      exact hR.bind (keeps_of_related (hR.hovered s none)) fun _ s' _ => hR.pure trivial s'
  | execute commands => exact hR.pure trivial s
  | click p =>
      refine Keeps.get_bind ?_
      split
      · exact hR.pure trivial s
      · exact hR.planActivate _ _ s
  | hover p => exact hR.planHover p s
  | hitTest p => exact Keeps.get_bind (hR.pure trivial s)
  | activate r => exact hR.planActivate r _ s
  | save => exact Keeps.get_bind (hR.pure trivial s)
  | back | forward | restore _ | pause | resume | stop | pauseTimers _ | resumeTimers _
  | stopTimer _ => exact ha.elim

end

section

variable {R : Session → Session → Prop} (hR : Attends R)
include hR

theorem Attends.pause (s : Session) : Keeps R (fun _ => True) pause s := by
  refine Keeps.get_bind ?_
  split
  · exact hR.pure trivial s
  · refine hR.bind (keeps_of_related (hR.paused s true)) fun _ s' _ => ?_
    exact hR.bind (keeps_of_related (hR.pauseTimers none s')) fun _ s' _ => hR.call s'

theorem Attends.resume (s : Session) : Keeps R (fun _ => True) resume s := by
  refine Keeps.get_bind ?_
  split
  · exact hR.pure trivial s
  · refine hR.bind (keeps_of_related (hR.paused s false)) fun _ s' _ => ?_
    exact hR.bind (keeps_of_related (hR.resumeTimers none s')) fun _ s' _ => hR.call s'

theorem Attends.stop (s : Session) : Keeps R (fun _ => True) stop s :=
  hR.bind (keeps_of_related (hR.stopTimers s)) fun _ s' _ => hR.call s'

theorem Attends.plan {a : Machine.Action} (ha : a.IsStill) (s : Session) :
    Keeps R Machine.Plan.AsksNoTick (Machine.plan a) s := by
  cases a with
  | back | forward | restore _ => exact ha.elim
  | pause => exact hR.bind (hR.pause s) fun _ s' _ => hR.pure trivial s'
  | resume => exact hR.bind (hR.resume s) fun _ s' _ => hR.pure trivial s'
  | stop => exact hR.bind (hR.stop s) fun _ s' _ => hR.pure trivial s'
  | pauseTimers id =>
      exact hR.bind (keeps_of_related (hR.pauseTimers id s)) fun _ s' _ => hR.pure trivial s'
  | resumeTimers id =>
      exact hR.bind (keeps_of_related (hR.resumeTimers id s)) fun _ s' _ => hR.pure trivial s'
  | stopTimer id =>
      refine Keeps.get_bind ?_
      exact hR.bind (keeps_of_related (hR.stopTimer id s)) fun _ s' _ => hR.pure trivial s'
  | _ =>
      refine hR.toPoints.plan ?_ s
      trivial

end

/-! ## Restoring a saved state -/

/-- A relation between sessions that covers what is put in place of what was there when a saved
state is restored. -/
structure Restores (R : Session → Session → Prop) : Prop extends Composes R where
  values (s : Session) (values : Variables) : R s { s with values }
  navigation (state : Json) (s : Session) :
    R s { s with navigation := (s.navigation.restore state).1 }
  hovered (s : Session) : R s { s with hovered := none }
  timers (saved : Json) (s : Session) : R s { s with timers := (s.timers.restore saved).1 }
  stopTimers (s : Session) : R s { s with timers := s.timers.stopAll }
  turns (s : Session) (turns : List Turn) : R s { s with turns }

theorem Restores.restore {R : Session → Session → Prop} (hR : Restores R) (state : Json)
    (s : Session) : R s (restore state s).2 := by
  suffices h : Keeps R (fun _ => True) (Session.restore state) s from h.related
  have hset {s₁ : Session} (s' : Session) (h : R s₁ s') {next : Unit → Act Unit}
      (hnext : Keeps R (fun _ => True) (next ()) s') :
      Keeps R (fun _ => True) (set s' >>= next) s₁ :=
    ⟨hR.trans h hnext.related, hnext.result⟩
  unfold Session.restore
  cases state.savedFields with
  | error e => exact hR.throw e s
  | ok fields =>
      refine Keeps.get_bind ?_
      cases Variables.ofSaved ((state.field? "variables").getD (.object [])) with
      | mk values outcome =>
          refine hset _ (hR.values s values) ?_
          cases outcome with
          | error e => exact hR.throw e _
          | ok _ =>
              have hnavigating (s' : Session) :
                  R s' (navigating (fun n => n.restore state) s').2 := by
                rw [navigating_apply]
                exact hR.navigation state s'
              refine hR.bind (keeps_of_related (hnavigating _)) fun _ s' _ => ?_
              refine hR.bind (keeps_of_related (hR.hovered s')) fun _ s' _ => ?_
              dsimp only
              split
              · refine Keeps.get_bind (hset _ (hR.timers _ s') ?_)
                refine hR.bind (keeps_of_related (hR.turns _ _)) fun _ s' _ => ?_
                split
                · exact hR.throw _ s'
                · exact hR.pure trivial s'
              · refine hR.bind (keeps_of_related (hR.stopTimers s')) fun _ s' _ => ?_
                split
                · exact hR.throw _ s'
                · exact hR.pure trivial s'

/-- What a user does at once, steps in the history and the restoring of a saved state included. -/
theorem Attends.planAny {R : Session → Session → Prop} (hR : Attends R)
    (hmove : ∀ (s : Session) (place : Option Nat),
      R s { s with navigation := { s.navigation with place } }) {a : Machine.Action}
    (hrestore : ∀ state, a = .restore state → R s (restore state s).2) :
    Keeps R Machine.Plan.AsksNoTick (Machine.plan a) s := by
  cases a with
  | back => exact hR.planHistory hmove back_eq s
  | forward => exact hR.planHistory hmove forward_eq s
  | restore state =>
      exact hR.bind (keeps_of_related (hrestore state rfl)) fun _ s' _ => hR.pure trivial s'
  | _ =>
      refine hR.plan ?_ s
      trivial

/-! ## What is done in a pause -/

/-- What may be done with a session while what runs in it is paused. The place in the history, the
timers, the pointer and the turns of the present instant are free. -/
structure Meanwhile (s s' : Session) : Prop where
  presentation : s'.presentation = s.presentation
  quit : s'.quit = s.quit
  depth : s'.depth = s.depth
  scenes : s'.navigation.scenes = s.navigation.scenes
  transitioning : s'.navigation.transitioning = s.navigation.transitioning
  log : ∃ entries, s'.log.toList = s.log.toList ++ entries ∧ ∀ e ∈ entries, e.IsOutside

theorem meanwhile_of_eq (hpresentation : s'.presentation = s.presentation)
    (hquit : s'.quit = s.quit) (hdepth : s'.depth = s.depth) (hlog : s'.log = s.log)
    (hnavigation : ∃ place, s'.navigation = { s.navigation with place }) : Meanwhile s s' := by
  obtain ⟨place, hnavigation⟩ := hnavigation
  exact ⟨hpresentation, hquit, hdepth, by rw [hnavigation], by rw [hnavigation],
    [], by rw [hlog, List.append_nil], fun _ he => nomatch he⟩

theorem Meanwhile.refl (s : Session) : Meanwhile s s := meanwhile_of_eq rfl rfl rfl rfl ⟨_, rfl⟩

theorem Meanwhile.trans {s₁ s₂ s₃ : Session} (h : Meanwhile s₁ s₂) (h' : Meanwhile s₂ s₃) :
    Meanwhile s₁ s₃ := by
  obtain ⟨entries, hlog, houtside⟩ := h.log
  obtain ⟨entries', hlog', houtside'⟩ := h'.log
  refine ⟨h'.presentation.trans h.presentation, h'.quit.trans h.quit, h'.depth.trans h.depth,
    h'.scenes.trans h.scenes, h'.transitioning.trans h.transitioning,
    ⟨entries ++ entries', by rw [hlog', hlog, List.append_assoc], fun e he => ?_⟩⟩
  exact (List.mem_append.mp he).elim (houtside e) (houtside' e)

theorem attends_meanwhile : Attends Meanwhile where
  refl := Meanwhile.refl
  trans := Meanwhile.trans
  told s entry h := by
    unfold told
    split
    · exact ⟨rfl, rfl, rfl, rfl, rfl, [entry], Array.toList_push,
        fun e he => List.mem_singleton.mp he ▸ h⟩
    · exact Meanwhile.refl s
  hovered _ _ := meanwhile_of_eq rfl rfl rfl rfl ⟨_, rfl⟩
  paused _ _ := meanwhile_of_eq rfl rfl rfl rfl ⟨_, rfl⟩
  pauseTimers _ _ := meanwhile_of_eq rfl rfl rfl rfl ⟨_, rfl⟩
  resumeTimers _ _ := meanwhile_of_eq rfl rfl rfl rfl ⟨_, rfl⟩
  stopTimer _ _ := meanwhile_of_eq rfl rfl rfl rfl ⟨_, rfl⟩
  stopTimers _ := meanwhile_of_eq rfl rfl rfl rfl ⟨_, rfl⟩

/-- What a user does at once keeps to it, but for the restoring of a saved state. -/
theorem meanwhile_plan {a : Machine.Action} (ha : ∀ state, a ≠ .restore state) (s : Session) :
    Meanwhile s (Machine.plan a s).2 := by
  have hplace (s : Session) (place : Option Nat) :
      Meanwhile s { s with navigation := { s.navigation with place } } :=
    meanwhile_of_eq rfl rfl rfl rfl ⟨place, rfl⟩
  exact (attends_meanwhile.planAny hplace fun state h => absurd h (ha state)).related

end Session

namespace Machine

/-- What runs stays paused, and the sessions are in a relation. -/
structure Abides (R : Session → Session → Prop) (m m' : Machine) : Prop where
  running : m'.running = m.running
  session : R m.session m'.session

/-- What may become of a machine while what runs in it is paused. -/
abbrev Meanwhile (m m' : Machine) : Prop := Abides Session.Meanwhile m m'

end Machine

end PointAndClick
