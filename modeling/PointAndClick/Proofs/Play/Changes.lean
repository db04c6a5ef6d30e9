import PointAndClick.Proofs.Play.Spans
import PointAndClick.Proofs.Variables.Names
import PointAndClick.Proofs.Variables.Saving

/-!
# What is told of the variables

Every change of a variable is told of, with the name in upper case and the number that was kept. To
write what is told is to make the change again (`Variables.set_uppercased`). So whoever starts from
the variables of a project, and writes what is told in the order in which it is told, has the
variables of the session at every moment (`Machine.replay_changes`), as long as no saved state is
restored.
-/

set_option autoImplicit false

namespace PointAndClick

/-! ## Changes, one after another -/

namespace Variables

variable {v v' : Variables} {name : String} {value : Int} {w : Write}

/-- Writes variables one after another, up to a write that is refused. -/
def replay (v : Variables) : List (String × Int) → Except Fault Variables
  | [] => .ok v
  | (name, value) :: changes =>
      match v.set name value with
      | .error e => .error e
      | .ok (v', _) => v'.replay changes

theorem replay_append {changes : List (String × Int)} (h : v.replay changes = .ok v')
    (more : List (String × Int)) : v.replay (changes ++ more) = v'.replay more := by
  induction changes generalizing v with
  | nil =>
      cases h
      rfl
  | cons change changes ih =>
      obtain ⟨name, value⟩ := change
      rw [List.cons_append, replay]
      rw [replay] at h
      cases hset : v.set name value with
      | error e =>
          rw [hset] at h
          nomatch h
      | ok out =>
          rw [hset] at h
          exact ih h

/-- A write comes to the same if its name is in upper case and its number is wrapped. -/
theorem set_uppercased (v : Variables) (name : String) (value : Int) :
    v.set (Text.uppercased name) (wrap value) = v.set name value := by
  have hget : v.get (Text.uppercased name) = v.get name := by
    unfold get find?
    rw [key_uppercased]
  unfold set
  rw [key_uppercased, wrap_wrap, hget]

theorem new_of_set_eq_ok (h : v.set name value = .ok (v', w)) : w.new = wrap value := by
  unfold set at h
  dsimp only at h
  split at h
  · nomatch h
  · cases h
    rfl

end Variables

/-! ## Changes of a session -/

namespace Session

/-- The changes of variables that were told of, in order. -/
def changes (s : Session) : List (String × Int) := s.log.toList.filterMap LogEntry.change?

variable {s s' : Session}

/-- What was told between two sessions, if it is kept, leads from the variables of one to those of
the other. -/
structure Recounts (s s' : Session) : Prop where
  presentation : s'.presentation = s.presentation
  changes : s.presentation.records = true →
    ∃ changes, s'.changes = s.changes ++ changes ∧ s.values.replay changes = .ok s'.values

/-- Neither the variables nor the log were touched. -/
theorem recounts_of_eq (hpresentation : s'.presentation = s.presentation)
    (hvalues : s'.values = s.values) (hlog : s'.log = s.log) : Recounts s s' := by
  refine ⟨hpresentation, fun _ => ⟨[], ?_, ?_⟩⟩
  · rw [Session.changes, Session.changes, hlog, List.append_nil]
  · rw [hvalues]
    rfl

theorem Recounts.trans {s₁ s₂ s₃ : Session} (h : Recounts s₁ s₂) (h' : Recounts s₂ s₃) :
    Recounts s₁ s₃ := by
  refine ⟨h'.presentation.trans h.presentation, fun hrecords => ?_⟩
  obtain ⟨changes, hlog, hreplay⟩ := h.changes hrecords
  obtain ⟨changes', hlog', hreplay'⟩ := h'.changes (h.presentation ▸ hrecords)
  refine ⟨changes ++ changes', ?_, ?_⟩
  · rw [hlog', hlog, List.append_assoc]
  · rw [Variables.replay_append hreplay, hreplay']

theorem composes_recounts : Composes Recounts := ⟨fun _ => recounts_of_eq rfl rfl rfl, .trans⟩

theorem values_told (entry : LogEntry) : (s.told entry).values = s.values := by
  unfold told
  split <;> rfl

theorem changes_told (hrecords : s.presentation.records = true) (entry : LogEntry) :
    (s.told entry).changes = s.changes ++ entry.change?.toList := by
  unfold changes
  rw [toList_log_told, if_pos hrecords, List.filterMap_append]
  cases h : entry.change? <;> simp [h]

theorem recounts_told (s : Session) {entry : LogEntry} (h : entry.change? = none) :
    Recounts s (s.told entry) := by
  refine ⟨presentation_told entry, fun hrecords => ⟨[], ?_, ?_⟩⟩
  · rw [changes_told hrecords, h]
    rfl
  · rw [values_told]
    rfl

/-- A write tells of what it does. -/
theorem recounts_write (name : String) (value : Int) (s : Session) :
    Recounts s (writeVariable name (·.set name value) s).2 := by
  rw [writeVariable_apply]
  cases hset : s.values.set name value with
  | error e => exact recounts_of_eq rfl rfl rfl
  | ok out =>
      obtain ⟨values, w⟩ := out
      dsimp only
      rw [emit, tell_apply]
      refine ⟨presentation_told _, fun hrecords => ⟨[(Text.uppercased name, w.new)], ?_, ?_⟩⟩
      · exact changes_told (s := { s with values }) hrecords _
      · have hagain : s.values.set (Text.uppercased name) w.new = .ok (values, w) := by
          rw [Variables.new_of_set_eq_ok hset, Variables.set_uppercased, hset]
        rw [values_told, Variables.replay, hagain]
        rfl

theorem attends_recounts : Attends Recounts where
  toComposes := composes_recounts
  told s _ h := recounts_told s h.change?_eq_none
  hovered _ _ := recounts_of_eq rfl rfl rfl
  paused _ _ := recounts_of_eq rfl rfl rfl
  pauseTimers _ _ := recounts_of_eq rfl rfl rfl
  resumeTimers _ _ := recounts_of_eq rfl rfl rfl
  stopTimer _ _ := recounts_of_eq rfl rfl rfl
  stopTimers _ := recounts_of_eq rfl rfl rfl

theorem follows_recounts : Follows Recounts where
  toComposes := composes_recounts
  told s _ _ h := recounts_told s h
  write := recounts_write
  font _ _ := recounts_of_eq rfl rfl rfl
  quit _ := recounts_of_eq rfl rfl rfl
  navigation _ _ := recounts_of_eq rfl rfl rfl
  depth _ _ := recounts_of_eq rfl rfl rfl
  startTimer _ _ _ _ := recounts_of_eq rfl rfl rfl
  stopTimer _ _ := recounts_of_eq rfl rfl rfl

/-- Only the restoring of a saved state changes variables without telling of it. -/
theorem spans_recounts : Machine.Spans (fun a => ∀ state, a ≠ .restore state) Recounts where
  toComposes := composes_recounts
  run s frames := follows_recounts.run s .going frames
  changeScene := follows_recounts.changeScene
  tick _ _ s := recounts_told s rfl
  marks _ _ _ := recounts_of_eq rfl rfl rfl
  clock _ _ _ _ := recounts_of_eq rfl rfl rfl
  plan _ _ ha :=
    (attends_recounts.planAny (fun _ _ => recounts_of_eq rfl rfl rfl) fun state h =>
      absurd h (ha state)).related

end Session

namespace Machine

/-- Whoever has the variables of a project, and writes each change that is told of, has the
variables of the session after whatever moves. No such write is refused. -/
theorem replay_changes (p : Project) {presentation : Presentation} (minInterval : Int)
    (hrecords : presentation.records = true) {moves : List Move}
    (hmoves : ∀ state, Move.act (.restore state) ∉ moves) :
    let m := (ofSession (Session.ofProject p presentation minInterval)).after moves
    (Variables.load {} p.variableList).replay m.session.changes = .ok m.session.values := by
  intro m
  have hacts : ∀ a, Move.act a ∈ moves → ∀ state, a ≠ .restore state := by
    rintro a ha state rfl
    exact hmoves state ha
  let start : Machine := ofSession (Session.ofProject p presentation minInterval)
  have hstart : start.session.changes = [] := rfl
  have hspans : Session.Recounts start.session m.session :=
    Session.spans_recounts.after (Session.composes_recounts.refl start.session) hacts
  obtain ⟨changes, hlog, hreplay⟩ := hspans.changes hrecords
  rw [hlog, hstart]
  exact hreplay

/-- A project with a variable. -/
def tallying : Project := { variableList := [{ name := "Lap", value := 7 }] }

/-- Commands that change variables inside conditions and other commands. One has no value, and one
comes to a number that is wrapped. -/
def tallies : List Instruction :=
  [⟨"IF", "lap = 7 then playcmd inc_var lap 2147483647"⟩, ⟨"SET_VAR", "lap none"⟩,
    ⟨"PLAYCMD", "if lap < 0 then dec_var ß 2"⟩]

theorem replay_changes_tallies :
    let m := (ofSession (Session.ofProject tallying {} 16)).after [.act (.execute tallies)]
    m.session.changes = [("LAP", -2147483642), ("SS", -2)] ∧
      (Variables.load {} tallying.variableList).replay m.session.changes =
        .ok m.session.values := by
  intro m
  have hchanges : m.session.changes = [("LAP", -2147483642), ("SS", -2)] := by decide +kernel
  have hmoves : ∀ state, Move.act (.restore state) ∉ [Move.act (.execute tallies)] := by simp
  have hrecords : ({} : Presentation).records = true := rfl
  exact ⟨hchanges, replay_changes tallying 16 hrecords hmoves⟩

end Machine

end PointAndClick
