import PointAndClick.Proofs.Play.Steps

/-!
# What steps are charged

A toll charges each step on a frame, the first step of a command apart from the others. What the
steps on a stack are charged is bounded in advance (`Toll.ofFrames`), and each step uses up of that
bound what it is charged (`Toll.step_le`).

The bound rests on two facts. Commands in commands go no deeper than `maxNesting`, so one command
makes a chain of at most as many links. And while a change of scene is under way no other begins, so
only one link of a chain, and none of those that run while the scene changes, sets off the lists of
two scenes.
-/

set_option autoImplicit false

namespace PointAndClick

namespace Session

variable {s s' : Session}

/-- What a step leaves to do. -/
def Progress.frames : Progress → List Frame
  | .goOn _ frames => frames
  | .wait _ frames => frames

/-- The longest chain of commands in commands that can begin at a depth. -/
def chain (depth : Nat) : Nat := 1 + (maxNesting - depth)

/-- What steps are charged: the first step of each command, and every other step. -/
structure Toll where
  command : Nat
  other : Nat

namespace Toll

variable (t : Toll)

/-- The charge of a step on a frame. -/
def ofStep : Frame → Nat
  | .commands (_ :: _) => t.command
  | _ => t.other

/-- The charge of one command of a chain, with the end of its own list. -/
def ofLink : Nat := t.command + 3 * t.other

/-- The most that a command at a depth is charged, with all that it sets off: a chain of commands
and, unless a change of scene is under way, one change of scene with the commands of its lists. -/
def ofCommand (lists depth : Nat) (changing : Bool) : Nat :=
  chain depth * t.ofLink +
    if changing then 0 else 5 * t.other + lists * (chain depth * t.ofLink)

/-- The most that the steps on a stack are charged. -/
def ofStack (exits entries : Nat) : Nat → Bool → List Frame → Nat
  | _, _, [] => 0
  | depth, changing, .commands rest :: frames =>
      t.other + rest.length * t.ofCommand (exits + entries) depth changing +
        ofStack exits entries depth changing frames
  | depth, changing, .guarded _ :: frames => t.other + ofStack exits entries depth changing frames
  | depth, changing, .nested :: frames =>
      t.other + ofStack exits entries (depth - 1) changing frames
  | depth, changing, .leaving .. :: frames =>
      4 * t.other + (exits + entries) * t.ofCommand (exits + entries) depth changing +
        ofStack exits entries depth changing frames
  | depth, changing, .arriving .. :: frames =>
      2 * t.other + entries * t.ofCommand (exits + entries) depth changing +
        ofStack exits entries depth changing frames
  | depth, _, .transition :: frames => t.other + ofStack exits entries depth false frames

/-- The most that the steps on a stack are charged in a session. -/
def ofFrames (s : Session) (frames : List Frame) : Nat :=
  t.ofStack s.longestExit s.longestEntry s.depth s.navigation.transitioning frames

theorem ofFrames_congr (hscenes : s'.navigation.scenes = s.navigation.scenes)
    (hdepth : s'.depth = s.depth)
    (htransitioning : s'.navigation.transitioning = s.navigation.transitioning)
    (frames : List Frame) : t.ofFrames s' frames = t.ofFrames s frames := by
  unfold ofFrames longestExit longestEntry greatest
  rw [hscenes, hdepth, htransitioning]

theorem chain_pos (depth : Nat) : 0 < chain depth := by
  unfold chain
  omega

theorem chain_eq {depth : Nat} (h : depth < maxNesting) : chain depth = 1 + chain (depth + 1) := by
  unfold chain
  omega

theorem le_ofCommand (lists depth : Nat) (changing : Bool) :
    t.ofLink ≤ t.ofCommand lists depth changing :=
  Nat.le_trans (Nat.le_mul_of_pos_left _ (chain_pos depth)) (Nat.le_add_right _ _)

/-- A command inside another needs no more than the rest of the chain. -/
theorem nested_le {lists depth : Nat} {changing : Bool} (h : depth < maxNesting) :
    t.ofLink + t.ofCommand lists (depth + 1) changing ≤ t.ofCommand lists depth changing := by
  have hchain : chain depth * t.ofLink = t.ofLink + chain (depth + 1) * t.ofLink := by
    rw [chain_eq h, Nat.add_mul, Nat.one_mul]
  have hlists : lists * (chain (depth + 1) * t.ofLink) ≤ lists * (chain depth * t.ofLink) :=
    Nat.mul_le_mul_left _ (by omega)
  unfold ofCommand
  split <;> omega

/-- A change of scene needs no more than a command may, since it is the only one. -/
theorem change_le (lists depth : Nat) :
    t.command + 6 * t.other + lists * t.ofCommand lists depth true ≤
      t.ofCommand lists depth false := by
  have hlink : t.ofLink ≤ chain depth * t.ofLink := Nat.le_mul_of_pos_left _ (chain_pos depth)
  have hcommand : t.ofCommand lists depth true = chain depth * t.ofLink := rfl
  rw [hcommand]
  unfold ofCommand
  rw [if_neg Bool.false_ne_true]
  unfold ofLink at hlink ⊢
  omega

/-! ## Steps -/

/-- The most that a command is charged in a session. -/
def inSession (s : Session) : Nat :=
  t.ofCommand (s.longestExit + s.longestEntry) s.depth s.navigation.transitioning

section

variable (s : Session) (frames : List Frame)

theorem ofFrames_commands (rest : List Instruction) :
    t.ofFrames s (.commands rest :: frames) =
      t.other + rest.length * t.inSession s + t.ofFrames s frames := rfl

theorem ofFrames_guarded (i : Instruction) :
    t.ofFrames s (.guarded i :: frames) = t.other + t.ofFrames s frames := rfl

theorem ofFrames_nested :
    t.ofFrames s (.nested :: frames) =
      t.other + t.ofFrames { s with depth := s.depth - 1 } frames := rfl

theorem ofFrames_leaving (target : Nat) (recorded : Bool) :
    t.ofFrames s (.leaving target recorded :: frames) =
      4 * t.other + (s.longestExit + s.longestEntry) * t.inSession s + t.ofFrames s frames := rfl

theorem ofFrames_arriving (target : Nat) (recorded : Bool) :
    t.ofFrames s (.arriving target recorded :: frames) =
      2 * t.other + s.longestEntry * t.inSession s + t.ofFrames s frames := rfl

theorem ofFrames_transition :
    t.ofFrames s (.transition :: frames) =
      t.other + t.ofFrames { s with navigation := s.navigation.endTransition } frames := rfl

end

theorem inSession_congr (hscenes : s'.navigation.scenes = s.navigation.scenes)
    (hdepth : s'.depth = s.depth)
    (htransitioning : s'.navigation.transitioning = s.navigation.transitioning) :
    t.inSession s' = t.inSession s := by
  unfold inSession longestExit longestEntry greatest
  rw [hscenes, hdepth, htransitioning]

theorem link_le_inSession (s : Session) : t.ofLink ≤ t.inSession s := t.le_ofCommand _ _ _

/-- The first of some commands is charged no more than they are all together. -/
theorem command_le (s : Session) (i : Instruction) (rest : List Instruction)
    (frames : List Frame) :
    t.ofLink + t.ofFrames s (.commands rest :: frames) ≤
      t.ofFrames s (.commands (i :: rest) :: frames) := by
  have hlink := t.link_le_inSession s
  rw [ofFrames_commands, ofFrames_commands, List.length_cons, Nat.add_mul, Nat.one_mul]
  omega

theorem idle_le {flow : Flow} {frame : Frame} (h : s.IsIdle flow frame) (frames : List Frame) :
    t.ofStep frame + t.ofFrames s frames ≤ t.ofFrames s (frame :: frames) := by
  cases frame with
  | commands list =>
      cases list with
      | nil => exact Nat.le_of_eq (by rw [ofFrames_commands]; simp [ofStep])
      | cons i rest =>
          have hcommand := t.command_le s i rest frames
          rw [ofFrames_commands] at hcommand
          show t.command + _ ≤ _
          unfold ofLink at hcommand
          omega
  | guarded i => exact Nat.le_refl _
  | leaving target recorded =>
      rw [ofFrames_leaving]
      show t.other + _ ≤ _
      omega
  | arriving target recorded =>
      rw [ofFrames_arriving]
      show t.other + _ ≤ _
      omega
  | nested => cases flow <;> exact h.elim
  | transition => cases flow <;> exact h.elim

/-- The lists that a change of scene sets off run while it is under way, what is below them does
not. -/
theorem ofFrames_changing (h : Serves s s') (hfree : s.navigation.transitioning = false)
    (target : Nat) (recorded : Bool) (frames : List Frame) :
    t.ofFrames { s' with navigation := { s'.navigation with transitioning := true } }
        (.leaving target recorded :: .transition :: frames) =
      4 * t.other + (s.longestExit + s.longestEntry) *
          t.ofCommand (s.longestExit + s.longestEntry) s.depth true +
        (t.other + t.ofFrames s frames) := by
  have hbelow : t.ofFrames { s' with navigation := s'.navigation.endTransition } frames =
      t.ofFrames s frames := by
    refine t.ofFrames_congr ?_ ?_ ?_ frames
    · exact h.scenes
    · exact h.depth
    · exact hfree.symm
  have hexit : s'.longestExit = s.longestExit := by
    unfold longestExit greatest
    rw [h.scenes]
  have hentry : s'.longestEntry = s.longestEntry := by
    unfold longestEntry greatest
    rw [h.scenes]
  show 4 * t.other + (s'.longestExit + s'.longestEntry) *
      t.ofCommand (s'.longestExit + s'.longestEntry) s'.depth true +
    (t.other + t.ofFrames { s' with navigation := s'.navigation.endTransition } frames) = _
  rw [hbelow, hexit, hentry, h.depth]

theorem performs_le {i : Instruction} {outcome : Except Fault Next}
    (h : Performs s (outcome, s')) (frames : List Frame) :
    t.command + t.ofFrames s' (progressOf i frames outcome).frames ≤
      t.inSession s + t.ofFrames s frames := by
  have hlink := t.link_le_inSession s
  unfold ofLink at hlink
  have hserves {s' : Session} (h : Serves s s') (frames : List Frame) :
      t.ofFrames s' frames = t.ofFrames s frames :=
    t.ofFrames_congr h.scenes h.depth h.transitioning frames
  cases h with
  | fails h | done h | waits h =>
      show t.command + t.ofFrames s' (.guarded i :: frames) ≤ _
      rw [hserves h, ofFrames_guarded]
      omega
  | @nests j h =>
      have hnested : t.ofLink + t.inSession { s with depth := s.depth + 1 } ≤ t.inSession s :=
        t.nested_le h
      have hback : t.ofFrames { s with depth := s.depth + 1 } (.nested :: .guarded i :: frames) =
          t.other + (t.other + t.ofFrames s frames) := rfl
      show t.command + t.ofFrames _ (.commands [j] :: .nested :: .guarded i :: frames) ≤ _
      rw [ofFrames_commands, hback, List.length_singleton, Nat.one_mul]
      unfold ofLink at hnested
      omega
  | @changes target recorded s' h hfree =>
      have hchange : t.command + 6 * t.other +
          (s.longestExit + s.longestEntry) *
            t.ofCommand (s.longestExit + s.longestEntry) s.depth true ≤ t.inSession s := by
        unfold inSession
        rw [hfree]
        exact t.change_le _ _
      have hinside := t.ofFrames_changing h hfree target recorded (.guarded i :: frames)
      rw [ofFrames_guarded] at hinside
      show t.command + t.ofFrames _
        (.leaving target recorded :: .transition :: .guarded i :: frames) ≤ _
      rw [hinside]
      omega

/-! ## Lists of scenes -/

theorem length_le_greatest {scene : Scene} (h : scene ∈ s.navigation.scenes)
    (number : Scene → Nat) : number scene ≤ s.greatest number := by
  have hfold : ∀ (numbers : List Nat) (start : Nat),
      start ≤ numbers.foldl max start ∧ ∀ n ∈ numbers, n ≤ numbers.foldl max start := by
    intro numbers
    induction numbers with
    | nil => intro start; exact ⟨Nat.le_refl _, fun _ hn => nomatch hn⟩
    | cons m numbers ih =>
        intro start
        obtain ⟨hstart, hall⟩ := ih (max start m)
        refine ⟨Nat.le_trans (Nat.le_max_left _ _) hstart, fun n hn => ?_⟩
        rcases List.mem_cons.mp hn with rfl | hn
        · exact Nat.le_trans (Nat.le_max_right _ _) hstart
        · exact hall n hn
  exact (hfold _ 0).2 _ (List.mem_map_of_mem h)

theorem length_exit_le {scene : Scene} (h : s.navigation.currentScene? = some scene) :
    (scene.onExit.filterMap Instruction.ofRecord?).length ≤ s.longestExit := by
  obtain ⟨i, -, hscene⟩ := Option.bind_eq_some_iff.mp h
  exact Nat.le_trans (List.length_filterMap_le _ _)
    (length_le_greatest (List.mem_of_getElem? hscene) (·.onExit.length))

theorem length_entry_le {target : Nat} {scene : Scene}
    (h : s.navigation.scenes[target]? = some scene) :
    (scene.autoCommands.filterMap Instruction.ofRecord?).length ≤ s.longestEntry :=
  Nat.le_trans (List.length_filterMap_le _ _)
    (length_le_greatest (List.mem_of_getElem? h) (·.autoCommands.length))

theorem ofFrames_told (s : Session) (entry : LogEntry) (frames : List Frame) :
    t.ofFrames (s.told entry) frames = t.ofFrames s frames := by
  refine t.ofFrames_congr ?_ ?_ ?_ frames <;> · unfold told; split <;> rfl

theorem ofFrames_shown (s : Session) (target : Nat) (recorded : Bool) (frames : List Frame) :
    t.ofFrames (s.shown target recorded) frames = t.ofFrames s frames := by
  refine t.ofFrames_congr ?_ ?_ ?_ frames <;>
    · unfold shown Navigation.enter Navigation.record; split <;> rfl

theorem step_le {flow : Flow} {frame : Frame} {frames : List Frame} {p : Progress}
    (h : Steps s flow frame frames (s', p)) :
    t.ofStep frame + t.ofFrames s' p.frames ≤ t.ofFrames s (frame :: frames) := by
  cases h with
  | idle h => exact t.idle_le h frames
  | @unknown i rest _ hquit hverb =>
      have hcommand := t.command_le s i rest frames
      unfold ofLink at hcommand
      show t.command + t.ofFrames s (.commands rest :: frames) ≤ _
      omega
  | @refused i rest _ verb e hquit hverb hanswer =>
      have hcommand := t.command_le s i rest frames
      unfold ofLink at hcommand
      show t.command + t.ofFrames (s.told (executed i)) (.commands rest :: frames) ≤ _
      rw [ofFrames_told]
      omega
  | @command i rest _ verb outcome s' hquit hverb hanswer hperform =>
      have hperforms := performs verb i (s.told (executed i))
      rw [hperform] at hperforms
      have hle := t.performs_le (i := i) hperforms (.commands rest :: frames)
      have hsession : t.inSession (s.told (executed i)) = t.inSession s := by
        refine t.inSession_congr ?_ ?_ ?_ <;> · unfold told; split <;> rfl
      rw [ofFrames_told, hsession] at hle
      rw [ofFrames_commands, List.length_cons, Nat.add_mul, Nat.one_mul]
      rw [ofFrames_commands] at hle
      show t.command + _ ≤ _
      omega
  | report =>
      exact Nat.le_of_eq (congrArg (t.other + ·) (t.ofFrames_told s _ frames))
  | nested => exact Nat.le_refl _
  | transition => exact Nat.le_refl _
  | @leaveNone target recorded _ hscene =>
      show t.other + t.ofFrames s (.arriving target recorded :: frames) ≤ _
      rw [ofFrames_leaving, ofFrames_arriving, Nat.add_mul]
      omega
  | @leave target recorded _ scene hscene =>
      show t.other +
        t.ofFrames (s.told _) (.commands _ :: .arriving target recorded :: frames) ≤ _
      have hlength := Nat.mul_le_mul_right (t.inSession s) (length_exit_le hscene)
      rw [ofFrames_told, ofFrames_leaving, ofFrames_commands, ofFrames_arriving, Nat.add_mul]
      omega
  | @hidden target recorded _ scene e hscene hanswer =>
      show t.other + t.ofFrames (told _ _) frames ≤ _
      rw [ofFrames_told, ofFrames_shown, ofFrames_arriving]
      omega
  | @unannounced target recorded _ scene e hscene hcall hanswer =>
      show t.other + t.ofFrames (told _ _) frames ≤ _
      rw [ofFrames_told, ofFrames_told, ofFrames_shown, ofFrames_arriving]
      omega
  | @arrive target recorded _ scene hscene hcall hanswer =>
      show t.other + t.ofFrames (told _ _) (.commands _ :: frames) ≤ _
      have hlength := Nat.mul_le_mul_right (t.inSession s) (length_entry_le hscene)
      rw [ofFrames_told, ofFrames_told, ofFrames_shown, ofFrames_arriving, ofFrames_commands]
      omega

end Toll

end Session

end PointAndClick
