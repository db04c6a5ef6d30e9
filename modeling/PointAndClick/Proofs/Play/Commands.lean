import PointAndClick.Play.Machine
import PointAndClick.Proofs.Play.Growth

/-!
# What a command does by itself

A command of any verb does one of five things (`Session.Performs`): it fails, it is done, it waits,
it sets off one more command inside it, or it begins a change of scene. Apart from that it may only
change parts of the state that no list depends on, and tell entries of its own
(`Session.Serves`).

Most verbs do neither of the last two. What they do is walked through once, for any relation between
sessions that has room for it (`Session.Allows`, `Session.Admits`).
-/

set_option autoImplicit false

namespace PointAndClick

/-- What most commands may tell: nothing of scenes, of hotspots, of commands, of failures or of
ticks. -/
def LogEntry.IsPlain : LogEntry → Prop
  | .call (.goToScene _) | .call (.navigate _) => False
  | .event (.sceneEnter ..) | .event (.sceneExit _) => False
  | .event (.hotspotClick ..) | .event (.hotspotEnter ..) | .event (.hotspotExit ..) => False
  | .event (.commandExecute ..) | .event (.error ..) | .event (.timerTick ..) => False
  | _ => True

/-- The name and the value of the change that the entry tells of. -/
def LogEntry.change? : LogEntry → Option (String × Int)
  | .event (.variableChange name value) => some (name, value)
  | _ => none

/-- What a command may tell by itself: that it takes a way, unless a change of scene is under way,
and plain entries. -/
def LogEntry.IsOwn (changing : Bool) : LogEntry → Prop
  | .call (.navigate _) => changing = false
  | entry => entry.IsPlain

theorem LogEntry.IsPlain.isOwn {e : LogEntry} (h : e.IsPlain) (changing : Bool) :
    e.IsOwn changing := by
  unfold IsOwn
  split
  · exact h.elim
  · exact h

/-- Most verbs neither move, nor change the scene, nor run another command. -/
def Verb.IsPlain : Verb → Prop
  | .navigate _ | .goToScene | .condition | .playCommand => False
  | _ => True

/-- What a command comes to without running anything further. -/
def Next.Stays : Next → Prop
  | .push _ => False
  | _ => True

namespace Presentation

/-- It refuses no call and no event. -/
def RefusesNothing (p : Presentation) : Prop := ∀ place entry, p.refusals place entry = none

/-- It refuses no event. -/
def HearsEvents (p : Presentation) : Prop := ∀ place e, p.refusals place (.event e) = none

end Presentation

namespace Session

/-- The session after an entry was told. -/
def told (s : Session) (entry : LogEntry) : Session :=
  if s.presentation.records then { s with log := s.log.push entry } else s

/-- What the presentation answers to an entry that it is told of next. -/
def answer (s : Session) (entry : LogEntry) : Except Fault Unit :=
  match s.presentation.refusals s.log.size entry with
  | some message => .error (.presentation message)
  | none => .ok ()

variable {α β : Type} {s : Session}

theorem bind_apply (act : Act α) (next : α → Act β) (s : Session) :
    (act >>= next) s = match act s with
      | (.ok a, s') => next a s'
      | (.error e, s') => (.error e, s') := by
  show (ExceptT.bindCont next (act s).1) (act s).2 = _
  rcases act s with ⟨_ | a, s'⟩ <;> rfl

theorem get_bind_apply (next : Session → Act β) (s : Session) : (get >>= next) s = next s s := rfl

theorem set_bind_apply (s' : Session) (next : Unit → Act β) (s : Session) :
    (set s' >>= next) s = next () s' := rfl

theorem modify_bind_apply (f : Session → Session) (next : Unit → Act β) (s : Session) :
    (modify f >>= next) s = next () (f s) := rfl

theorem given_apply (r : Except Fault α) (s : Session) : given r s = (r, s) := by cases r <;> rfl

theorem tell_apply (entry : LogEntry) (s : Session) :
    tell entry s = (s.answer entry, s.told entry) := by
  unfold tell told answer
  rw [get_bind_apply]
  by_cases hrecords : s.presentation.records = true
  · simp only [hrecords, if_true, set_bind_apply]
    cases hrefusal : s.presentation.refusals s.log.size entry <;> rfl
  · simp only [hrecords]
    cases hrefusal : s.presentation.refusals s.log.size entry <;> rfl

theorem answer_of_accepted {entry : LogEntry}
    (h : s.presentation.refusals s.log.size entry = none) : s.answer entry = .ok () := by
  unfold answer
  rw [h]

theorem answer_event (h : s.presentation.HearsEvents) (e : Event) :
    s.answer (.event e) = .ok () :=
  answer_of_accepted (h _ e)

theorem nest_apply (text : String) (s : Session) :
    nest text s =
      if maxNesting ≤ s.depth then (.error (.nesting maxNesting), s)
      else
        match Instruction.parse text with
        | .error e => (.error e, s)
        | .ok i => (.ok (.push [.commands [i], .nested]), { s with depth := s.depth + 1 }) := by
  unfold nest
  rw [get_bind_apply]
  split
  · rfl
  · dsimp only
    cases Instruction.parse text <;> rfl

theorem changeScene_apply (index : Int) (recorded : Bool) (s : Session) :
    changeScene index recorded s =
      match s.navigation.scene index with
      | .error e => (.error e, s)
      | .ok target =>
          if s.navigation.transitioning then (.ok none, s)
          else (.ok (some [.leaving target.index recorded, .transition]),
            { s with navigation := { s.navigation with transitioning := true } }) := by
  unfold changeScene Navigation.beginTransition
  rw [get_bind_apply]
  cases s.navigation.scene index with
  | error e => rfl
  | ok target => cases s.navigation.transitioning <;> rfl

theorem navigating_apply (f : Navigation → Navigation × Except Fault α) (s : Session) :
    navigating f s = ((f s.navigation).2, { s with navigation := (f s.navigation).1 }) := by
  unfold navigating
  rw [get_bind_apply]
  dsimp only
  rw [set_bind_apply]
  cases (f s.navigation).2 <;> rfl

theorem setEnabled_eq_ok {n n' : Navigation} {scene hotspot : Int} {enabled : Bool}
    (h : n.setEnabled scene hotspot enabled = .ok n') : ∃ disabled, n' = { n with disabled } := by
  unfold Navigation.setEnabled at h
  cases hscene : n.scene scene with
  | error e => rw [hscene] at h; nomatch h
  | ok target =>
      rw [hscene] at h
      dsimp only [bind, Except.bind] at h
      split at h
      · cases h
        exact ⟨_, rfl⟩
      · nomatch h

theorem switchHotspot_apply (word : String) (enabled : Bool) (s : Session) :
    switchHotspot word enabled s =
      match Text.integer? word with
      | none => (.error (.hotspotId word), s)
      | some id =>
          match s.navigation.setEnabled s.navigation.currentIndex id enabled with
          | .error e => (.error e, s)
          | .ok navigation => (.ok (), { s with navigation }) := by
  unfold switchHotspot
  cases Text.integer? word with
  | none => rfl
  | some id =>
      dsimp only
      rw [get_bind_apply]
      cases s.navigation.setEnabled s.navigation.currentIndex id enabled <;> rfl

theorem writeVariable_apply (name : String)
    (write : Variables → Except Fault (Variables × Variables.Write)) (s : Session) :
    writeVariable name write s =
      match write s.values with
      | .error e => (.error e, s)
      | .ok (values, w) =>
          emit (.variableChange (Text.uppercased name) w.new) { s with values } := by
  unfold writeVariable
  rw [get_bind_apply]
  cases write s.values <;> rfl

/-! ## Acts under a relation -/

/-- A relation between sessions that holds from end to end if it holds of every part. -/
structure Composes (R : Session → Session → Prop) : Prop where
  refl (s : Session) : R s s
  trans {s₁ s₂ s₃ : Session} : R s₁ s₂ → R s₂ s₃ → R s₁ s₃

/-- An act leads from a session to one in a relation to it, whether it fails or not; what it
gives has a property. -/
structure Keeps (R : Session → Session → Prop) (post : α → Prop) (act : Act α) (s : Session) :
    Prop where
  related : R s (act s).2
  result : ∀ a, (act s).1 = .ok a → post a

theorem Keeps.get_bind {R : Session → Session → Prop} {post : β → Prop} {next : Session → Act β}
    (h : Keeps R post (next s) s) : Keeps R post (get >>= next) s := ⟨h.related, h.result⟩

theorem keeps_of_related {R : Session → Session → Prop} {act : Act α} (h : R s (act s).2) :
    Keeps R (fun _ => True) act s := ⟨h, fun _ _ => trivial⟩

section

variable {R : Session → Session → Prop} (hR : Composes R) {post : α → Prop} {post' : β → Prop}
include hR

theorem Composes.pure {a : α} (h : post a) (s : Session) : Keeps R post (pure a) s where
  related := hR.refl s
  result _ hresult := by cases hresult; exact h

theorem Composes.throw (e : Fault) (s : Session) : Keeps R post (throw e : Act α) s where
  related := hR.refl s
  result _ hresult := nomatch hresult

theorem Composes.bind {act : Act α} {next : α → Act β} (h : Keeps R post act s)
    (hnext : ∀ a s', post a → Keeps R post' (next a) s') : Keeps R post' (act >>= next) s := by
  obtain ⟨hrelated, hresult⟩ := h
  have hbind := bind_apply act next s
  rcases hact : act s with ⟨_ | a, s'⟩ <;> rw [hact] at hbind hrelated hresult
  · refine ⟨?_, fun b hb => ?_⟩
    · rw [hbind]; exact hrelated
    · rw [hbind] at hb; nomatch hb
  · obtain ⟨hrelated', hresult'⟩ := hnext a s' (hresult a rfl)
    refine ⟨?_, fun b hb => ?_⟩
    · rw [hbind]; exact hR.trans hrelated hrelated'
    · rw [hbind] at hb; exact hresult' b hb

theorem Composes.given_bind {r : Except Fault α} {next : α → Act β}
    (h : ∀ a, Keeps R post' (next a) s) : Keeps R post' (Session.given r >>= next) s := by
  cases r with
  | error e => exact hR.throw e s
  | ok a => exact h a

end

/-! ## Plain commands -/

/-- A relation between sessions that allows whatever most commands do but to end the project. A
variable is written together with the entry that tells of it. -/
structure Allows (R : Session → Session → Prop) : Prop extends Composes R where
  told (s : Session) {entry : LogEntry} :
    entry.IsPlain → entry.change? = none → R s (s.told entry)
  write (name : String) (value : Int) (s : Session) :
    R s (writeVariable name (·.set name value) s).2
  font (s : Session) (font : Option String) : R s { s with font }
  disabled (s : Session) (disabled : List (Int × Int)) :
    R s { s with navigation := { s.navigation with disabled } }
  startTimer (id : String) (interval : Int) (commands : List Instruction) (s : Session) :
    R s (startTimer id interval commands s).2
  stopTimer (id : String) (s : Session) : R s (stopTimer id s).2

/-- A relation between sessions that admits whatever most commands do. -/
structure Admits (R : Session → Session → Prop) : Prop extends Allows R where
  quit (s : Session) : R s { s with quit := true }

section

variable {R : Session → Session → Prop} (hR : Allows R) {post : α → Prop}
include hR

theorem Allows.call {c : Call} (s : Session) (h : (LogEntry.call c).IsPlain := by trivial) :
    Keeps R (fun _ => True) (call c) s where
  related := by rw [Session.call, tell_apply]; exact hR.told s h rfl
  result _ _ := trivial

theorem Allows.emit {e : Event} (s : Session) (h : (LogEntry.event e).IsPlain := by trivial)
    (hchange : (LogEntry.event e).change? = none := by rfl) :
    Keeps R (fun _ => True) (emit e) s where
  related := by rw [Session.emit, tell_apply]; exact hR.told s h hchange
  result _ _ := trivial

theorem Allows.switchHotspot (word : String) (enabled : Bool) (s : Session) :
    Keeps R (fun _ => True) (switchHotspot word enabled) s := by
  refine ⟨?_, fun _ _ => trivial⟩
  rw [switchHotspot_apply]
  split
  · exact hR.refl s
  · split
    · exact hR.refl s
    · rename_i navigation hnavigation
      obtain ⟨disabled, rfl⟩ := setEnabled_eq_ok hnavigation
      exact hR.disabled s disabled

/-- Whatever a write computes, it sets the variable in the end. -/
theorem Allows.writeVariable {name : String}
    {write : Variables → Except Fault (Variables × Variables.Write)} {value : Int}
    (h : write s.values = s.values.set name value) :
    Keeps R (fun _ => True) (writeVariable name write) s := by
  refine keeps_of_related ?_
  have hwrite := hR.write name value s
  rw [writeVariable_apply] at hwrite ⊢
  rwa [h]

theorem Allows.playMedia (args : String) (kind : Media) {play : MediaArguments → Call}
    (s : Session) (hplay : ∀ m, (LogEntry.call (play m)).IsPlain := by exact fun _ => trivial) :
    Keeps R (fun _ => True) (playMedia args kind play) s :=
  hR.given_bind fun m => hR.bind (hR.call s (hplay m)) fun _ s' _ => hR.emit s'

theorem Allows.stopMedia (kind : Media) {c : Call} (s : Session)
    (h : (LogEntry.call c).IsPlain := by trivial) :
    Keeps R (fun _ => True) (stopMedia kind c) s :=
  hR.bind (hR.call s h) fun _ s' _ => hR.emit s'

/-- An act after which a command is done. -/
theorem Allows.done {act : Act α} (h : Keeps R post act s) :
    Keeps R (Next.Stays) (do let _ ← act; return Next.done) s :=
  hR.bind h fun _ s' _ => hR.pure trivial s'

theorem Allows.perform {verb : Verb} (hverb : verb.IsPlain) (hquit : verb ≠ .quit)
    (i : Instruction) (s : Session) : Keeps R (Next.Stays) (perform verb i) s := by
  cases verb with
  | navigate d | goToScene | condition | playCommand => exact hverb.elim
  | quit => exact absurd rfl hquit
  | chooseFont => exact hR.done (keeps_of_related (hR.font s _))
  | setHotspot =>
      simp only [Session.perform]
      split
      · exact hR.done (hR.switchHotspot _ _ s)
      · split
        · exact hR.throw _ s
        · exact hR.done (hR.switchHotspot _ _ s)
  | enableHotspot | disableHotspot => exact hR.done (hR.switchHotspot _ _ s)
  | tipText | playText | addText => exact Keeps.get_bind (hR.done (hR.call s))
  | playAvi =>
      exact hR.bind (hR.call s) fun _ s' _ => hR.done (hR.emit s')
  | playWav | playMid | playCda => exact hR.done (hR.playMedia _ _ s)
  | playBmp | playHtml | invalidate | setCursor | hideObject | showObject =>
      exact hR.done (hR.call s)
  | messageBox | load | save => exact hR.done (hR.emit s)
  | closeWav | closeMid | closeAvi | stopAll => exact hR.done (hR.stopMedia _ s)
  | pause =>
      simp only [Session.perform]
      split
      · exact hR.throw _ s
      · split
        · exact hR.throw _ s
        · refine hR.bind (hR.call s) fun _ s' _ => ?_
          exact Keeps.get_bind (hR.given_bind fun _ => hR.pure trivial s')
  | execute | explore | runProject | addImage =>
      simp only [Session.perform]
      split
      · exact hR.throw _ s
      · exact hR.done (hR.call s)
  | setVariable =>
      refine hR.given_bind fun v => ?_
      split
      · exact hR.pure trivial s
      · exact hR.done (hR.writeVariable rfl)
  | incrementVariable | decrementVariable =>
      exact hR.given_bind fun _ => hR.done (hR.writeVariable rfl)
  | nothing => exact hR.pure trivial s
  | startTimer =>
      refine hR.given_bind fun t => hR.given_bind fun command => ?_
      refine hR.bind (hR.call s) fun _ s' _ => ?_
      exact hR.done (keeps_of_related (hR.startTimer _ _ _ s'))
  | stopTimer =>
      refine hR.bind (hR.call s) fun _ s' _ => ?_
      exact hR.done (keeps_of_related (hR.stopTimer _ s'))

end

theorem Admits.perform {R : Session → Session → Prop} (hR : Admits R) {verb : Verb}
    (hverb : verb.IsPlain) (i : Instruction) (s : Session) :
    Keeps R (Next.Stays) (perform verb i) s := by
  by_cases hquit : verb = .quit
  · subst hquit
    exact hR.bind (keeps_of_related (hR.quit s)) fun _ s' _ => hR.done (hR.call s')
  · exact hR.toAllows.perform hverb hquit i s

/-- A relation between sessions that covers whatever most commands do, each part by itself. -/
structure Covers (R : Session → Session → Prop) : Prop extends Composes R where
  told (s : Session) {entry : LogEntry} : entry.IsPlain → R s (s.told entry)
  values (s : Session) (values : Variables) : R s { s with values }
  font (s : Session) (font : Option String) : R s { s with font }
  quit (s : Session) : R s { s with quit := true }
  disabled (s : Session) (disabled : List (Int × Int)) :
    R s { s with navigation := { s.navigation with disabled } }
  startTimer (id : String) (interval : Int) (commands : List Instruction) (s : Session) :
    R s (startTimer id interval commands s).2
  stopTimer (id : String) (s : Session) : R s (stopTimer id s).2

/-- Where the variables are free, a write is no more than what it tells. -/
theorem Composes.write {R : Session → Session → Prop} (hR : Composes R)
    (hvalues : ∀ (s : Session) (values : Variables), R s { s with values })
    (htold : ∀ (s : Session) (name : String) (value : Int),
      R s (s.told (.event (.variableChange name value))))
    (name : String) (value : Int) (s : Session) :
    R s (writeVariable name (·.set name value) s).2 := by
  rw [writeVariable_apply]
  split
  · exact hR.refl s
  · rename_i values w _
    rw [emit, tell_apply]
    exact hR.trans (hvalues s values) (htold _ _ _)

theorem Covers.admits {R : Session → Session → Prop} (hR : Covers R) : Admits R where
  toComposes := hR.toComposes
  told s _ h _ := hR.told s h
  write := hR.toComposes.write hR.values fun s _ _ => hR.told s trivial
  font := hR.font
  quit := hR.quit
  disabled := hR.disabled
  startTimer := hR.startTimer
  stopTimer := hR.stopTimer

/-! ## What a command does by itself -/

/-- What a command does by itself, apart from what it sets off. -/
structure Serves (s s' : Session) : Prop where
  presentation : s'.presentation = s.presentation
  depth : s'.depth = s.depth
  executing : s'.executing = s.executing
  quit : s.quit = true → s'.quit = true
  scenes : s'.navigation.scenes = s.navigation.scenes
  maxHistory : s'.navigation.maxHistory = s.navigation.maxHistory
  current : s'.navigation.current = s.navigation.current
  history : s'.navigation.history = s.navigation.history
  place : s.navigation.transitioning = true → s'.navigation.place = s.navigation.place
  transitioning : s'.navigation.transitioning = s.navigation.transitioning
  log : ∃ entries, s'.log.toList = s.log.toList ++ entries ∧
    ∀ e ∈ entries, e.IsOwn s.navigation.transitioning

theorem toList_log_told (s : Session) (entry : LogEntry) :
    (s.told entry).log.toList =
      s.log.toList ++ if s.presentation.records then [entry] else [] := by
  unfold told
  split <;> simp

/-- Nothing is told, and nothing else happens but to parts of the state that are free. -/
theorem serves_of_eq {s' : Session} (hpresentation : s'.presentation = s.presentation)
    (hdepth : s'.depth = s.depth) (hexecuting : s'.executing = s.executing)
    (hquit : s.quit = true → s'.quit = true) (hlog : s'.log = s.log)
    (hnavigation : ∃ disabled, s'.navigation = { s.navigation with disabled }) : Serves s s' := by
  obtain ⟨disabled, hnavigation⟩ := hnavigation
  exact ⟨hpresentation, hdepth, hexecuting, hquit, by rw [hnavigation], by rw [hnavigation],
    by rw [hnavigation], by rw [hnavigation], fun _ => by rw [hnavigation], by rw [hnavigation],
    ⟨[], by rw [hlog, List.append_nil], fun _ he => nomatch he⟩⟩

theorem Serves.refl (s : Session) : Serves s s :=
  serves_of_eq rfl rfl rfl id rfl ⟨_, rfl⟩

theorem Serves.trans {s₁ s₂ s₃ : Session} (h : Serves s₁ s₂) (h' : Serves s₂ s₃) :
    Serves s₁ s₃ := by
  obtain ⟨entries, hlog, hown⟩ := h.log
  obtain ⟨entries', hlog', hown'⟩ := h'.log
  rw [h.transitioning] at hown'
  refine ⟨h'.presentation.trans h.presentation, h'.depth.trans h.depth,
    h'.executing.trans h.executing, fun hquit => h'.quit (h.quit hquit), h'.scenes.trans h.scenes,
    h'.maxHistory.trans h.maxHistory, h'.current.trans h.current, h'.history.trans h.history,
    fun hchanging => ?_, h'.transitioning.trans h.transitioning,
    ⟨entries ++ entries', by rw [hlog', hlog, List.append_assoc], fun e he => ?_⟩⟩
  · exact (h'.place (h.transitioning.trans hchanging)).trans (h.place hchanging)
  · exact (List.mem_append.mp he).elim (hown e) (hown' e)

theorem serves_told (s : Session) {entry : LogEntry} (h : entry.IsOwn s.navigation.transitioning) :
    Serves s (s.told entry) := by
  have htold : s.told entry = s ∨ s.told entry = { s with log := s.log.push entry } := by
    unfold told
    split
    · exact .inr rfl
    · exact .inl rfl
  rcases htold with htold | htold <;> rw [htold]
  · exact Serves.refl s
  · exact ⟨rfl, rfl, rfl, id, rfl, rfl, rfl, rfl, fun _ => rfl, rfl, [entry], Array.toList_push,
      fun e he => List.mem_singleton.mp he ▸ h⟩

theorem covers_serves : Covers Serves where
  refl := Serves.refl
  trans := Serves.trans
  told s _ h := serves_told s (h.isOwn _)
  values _ _ := serves_of_eq rfl rfl rfl id rfl ⟨_, rfl⟩
  font _ _ := serves_of_eq rfl rfl rfl id rfl ⟨_, rfl⟩
  quit _ := serves_of_eq rfl rfl rfl (fun _ => rfl) rfl ⟨_, rfl⟩
  disabled _ _ := serves_of_eq rfl rfl rfl id rfl ⟨_, rfl⟩
  startTimer _ _ _ _ := serves_of_eq rfl rfl rfl id rfl ⟨_, rfl⟩
  stopTimer _ _ := serves_of_eq rfl rfl rfl id rfl ⟨_, rfl⟩

/-- What comes of a command: it fails, is done or waits, sets off another command inside it, or
begins a change of scene. -/
inductive Performs (s : Session) : Except Fault Next × Session → Prop
  | fails {e : Fault} {s' : Session} (h : Serves s s') : Performs s (.error e, s')
  | done {s' : Session} (h : Serves s s') : Performs s (.ok .done, s')
  | waits {duration : Nat} {s' : Session} (h : Serves s s') : Performs s (.ok (.wait duration), s')
  | nests {i : Instruction} (h : s.depth < maxNesting) :
      Performs s (.ok (.push [.commands [i], .nested]), { s with depth := s.depth + 1 })
  | changes {target : Nat} {recorded : Bool} {s' : Session} (h : Serves s s')
      (hfree : s.navigation.transitioning = false) :
      Performs s (.ok (.push [.leaving target recorded, .transition]),
        { s' with navigation := { s'.navigation with transitioning := true } })

theorem performs_nest (text : String) (s : Session) : Performs s (nest text s) := by
  rw [nest_apply]
  split
  · exact .fails (Serves.refl s)
  · rename_i hdepth
    split
    · exact .fails (Serves.refl s)
    · exact .nests (Nat.lt_of_not_le hdepth)

theorem performs_changeScene (index : Int) (recorded : Bool) {s s' : Session} (h : Serves s s') :
    Performs s ((do return nextOfChange (← changeScene index recorded) : Act Next) s') := by
  rw [bind_apply, changeScene_apply]
  cases s'.navigation.scene index with
  | error e => exact .fails h
  | ok target =>
      by_cases hchanging : s'.navigation.transitioning = true
      · simp only [hchanging, if_true]
        exact .done h
      · simp only [hchanging]
        exact .changes h (by rw [← h.transitioning]; simpa using hchanging)

theorem back_eq (n : Navigation) : ∃ place, n.back.1 = { n with place } := by
  unfold Navigation.back
  split
  · exact ⟨_, rfl⟩
  · exact ⟨n.place, rfl⟩

/-- The search for the scene in a direction may move in the history, but not while a change of
scene is under way. -/
theorem serves_destination (d : Direction) (hfree : ¬s.navigation.transitioning = true) :
    Serves s (destination d s).2 := by
  unfold destination
  rw [get_bind_apply]
  cases s.navigation.linkTarget? d with
  | some target => exact Serves.refl s
  | none =>
      by_cases hd : d = .backward
      · obtain ⟨place, hplace⟩ := back_eq s.navigation
        simp only [if_pos hd]
        rw [bind_apply, navigating_apply, hplace]
        have hmoved : Serves s { s with navigation := { s.navigation with place } } :=
          ⟨rfl, rfl, rfl, id, rfl, rfl, rfl, rfl, fun hchanging => absurd hchanging hfree, rfl,
            [], (List.append_nil _).symm, fun _ he => nomatch he⟩
        cases s.navigation.back.2 <;> exact hmoved
      · simp only [if_neg hd]
        exact Serves.refl s

theorem performs_navigate (d : Direction) (s : Session) : Performs s (navigate d s) := by
  unfold navigate
  rw [get_bind_apply]
  by_cases hchanging : s.navigation.transitioning = true
  · rw [if_pos hchanging]
    exact .done (Serves.refl s)
  · rw [if_neg hchanging, bind_apply]
    have hserves := serves_destination d hchanging
    split
    · rename_i found s' hfound
      rw [hfound] at hserves
      split
      · exact .done hserves
      · rename_i target recorded
        have htold : Serves s (s'.told (.call (.navigate d))) := hserves.trans <|
          serves_told s' (hserves.transitioning.trans (by simpa using hchanging))
        rw [bind_apply, call, tell_apply]
        cases s'.answer (.call (.navigate d)) with
        | ok _ => exact performs_changeScene _ _ htold
        | error e => exact .fails htold
    · rename_i e s' hfound
      rw [hfound] at hserves
      exact .fails hserves

/-- Whatever a verb asks for, a command does one of five things. -/
theorem performs (verb : Verb) (i : Instruction) (s : Session) :
    Performs s (perform verb i s) := by
  by_cases hplain : verb.IsPlain
  · obtain ⟨hserves, hstays⟩ := covers_serves.admits.perform hplain i s
    rcases hperform : perform verb i s with ⟨e | next, s'⟩ <;> rw [hperform] at hserves hstays
    · exact .fails hserves
    · cases next with
      | done => exact .done hserves
      | wait duration => exact .waits hserves
      | push frames => exact (hstays _ rfl).elim
  · cases verb with
    | navigate d => exact performs_navigate d s
    | goToScene =>
        simp only [perform]
        rw [get_bind_apply, bind_apply, given_apply]
        cases s.navigation.resolve (.text i.args) with
        | error e => exact .fails (Serves.refl s)
        | ok index => exact performs_changeScene index true (Serves.refl s)
    | condition =>
        simp only [perform]
        rw [bind_apply, given_apply]
        cases Condition.parse i.args with
        | error e => exact .fails (Serves.refl s)
        | ok condition =>
            dsimp only
            rw [get_bind_apply]
            cases condition.select s.values.get with
            | none => exact .done (Serves.refl s)
            | some branch =>
                dsimp only
                split
                · exact .done (Serves.refl s)
                · exact performs_nest branch s
    | playCommand => exact performs_nest i.args s
    | _ => exact (hplain trivial).elim

end Session
end PointAndClick
