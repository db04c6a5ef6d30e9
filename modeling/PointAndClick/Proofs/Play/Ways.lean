import PointAndClick.Proofs.Navigation.Soundness
import PointAndClick.Proofs.Play.Steps

/-!
# Where a command goes

A command of whatever verb does one of three things to the navigation (`Session.Travels`): it stays
where it is, it goes back in the history and gets no further, or it sets out for a scene, which is
there. It gets no further in the history only if the presentation refuses its way or the history is
wrong, which it never is in a sound navigation.
-/

set_option autoImplicit false

namespace PointAndClick

namespace Session

variable {s s' : Session}

@[simp] theorem navigation_told (entry : LogEntry) : (s.told entry).navigation = s.navigation := by
  unfold told
  split <;> rfl

theorem pure_apply {α : Type} (a : α) (s : Session) : (pure a : Act α) s = (.ok a, s) := rfl

/-- Nothing changes in the navigation but which hotspots are switched off. -/
def Stays (s s' : Session) : Prop :=
  ∃ disabled, s'.navigation = { s.navigation with disabled }

theorem stays_of_eq (h : s'.navigation = s.navigation) : Stays s s' :=
  ⟨s.navigation.disabled, h⟩

theorem covers_stays : Covers Stays where
  refl _ := stays_of_eq rfl
  trans h h' := by
    obtain ⟨disabled, hfirst⟩ := h
    obtain ⟨disabled', hsecond⟩ := h'
    exact ⟨disabled', by rw [hsecond, hfirst]⟩
  told _ entry _ := stays_of_eq (navigation_told entry)
  values _ _ := stays_of_eq rfl
  font _ _ := stays_of_eq rfl
  quit _ := stays_of_eq rfl
  disabled _ disabled := ⟨disabled, rfl⟩
  startTimer _ _ _ _ := stays_of_eq rfl
  stopTimer _ _ := stays_of_eq rfl

/-- The way on which a command sets out for the scene of an index: by a link, or as the scene is
asked for, with an entry in the history; or back in the history, with another place in it. -/
inductive Way (verb : Verb) (n : Navigation) (index : Nat) : Bool → Option Nat → Prop
  | straight (hlink : ∀ d, verb = .navigate d → n.linkTarget? d = some (index : Int)) :
      Way verb n index true n.place
  | back {place : Option Nat} (hverb : verb = .navigate .backward)
      (hlink : n.linkTarget? .backward = none)
      (hback : n.back = ({ n with place }, .ok (some index))) : Way verb n index false place

/-- What a command comes to for the navigation. -/
inductive Travels (verb : Verb) (s : Session) : Except Fault Next × Session → Prop
  | stays {outcome : Except Fault Next} {s' : Session} (h : Stays s s')
      (hnext : ∀ target recorded,
        outcome ≠ .ok (.push [.leaving target recorded, .transition])) :
      Travels verb s (outcome, s')
  | strays {e : Fault} {s' : Session} {place : Option Nat} (hverb : verb = .navigate .backward)
      (hlink : s.navigation.linkTarget? .backward = none)
      (hnavigation : s'.navigation = { s.navigation with place })
      (hcause : s.answer (.call (.navigate .backward)) = .ok () → ¬s.navigation.Sound) :
      Travels verb s (.error e, s')
  | departs {index : Nat} {target : Scene} {recorded : Bool} {s' : Session} {place : Option Nat}
      (hscene : s.navigation.scenes[index]? = some target)
      (hfree : s.navigation.transitioning = false)
      (hanswer : ∀ d, verb = .navigate d → s.answer (.call (.navigate d)) = .ok ())
      (hnavigation : s'.navigation = { s.navigation with place, transitioning := true })
      (hway : Way verb s.navigation index recorded place) :
      Travels verb s (.ok (.push [.leaving target.index recorded, .transition]), s')

variable {verb : Verb}

theorem travels_error (e : Fault) (h : Stays s s') : Travels verb s (.error e, s') := by
  refine .stays h ?_
  rintro target recorded ⟨⟩

theorem travels_done (h : Stays s s') : Travels verb s (.ok .done, s') := by
  refine .stays h ?_
  rintro target recorded ⟨⟩

theorem travels_nest (text : String) (s : Session) : Travels verb s (nest text s) := by
  rw [nest_apply]
  split
  · exact travels_error _ (stays_of_eq rfl)
  · split
    · exact travels_error _ (stays_of_eq rfl)
    · refine .stays (stays_of_eq rfl) ?_
      rintro target recorded ⟨⟩

/-- A change of scene begins if the scene is there and no other is under way. -/
theorem changeScene_cases (index : Int) (recorded : Bool) (s : Session)
    (hfree : s.navigation.transitioning = false) :
    (∃ e, s.navigation.scene index = .error e ∧
        (do return nextOfChange (← changeScene index recorded) : Act Next) s = (.error e, s)) ∨
      ∃ target, s.navigation.scene index = .ok target ∧
        (do return nextOfChange (← changeScene index recorded) : Act Next) s =
          (.ok (.push [.leaving target.index recorded, .transition]),
            { s with navigation := { s.navigation with transitioning := true } }) := by
  rw [bind_apply, changeScene_apply]
  cases hscene : s.navigation.scene index with
  | error e => exact Or.inl ⟨e, rfl, rfl⟩
  | ok target =>
      refine Or.inr ⟨target, rfl, ?_⟩
      rw [hfree]
      rfl

/-- The way of a link, or of the number or the name of a scene. -/
theorem travels_changeScene (index : Int) (hnavigation : s'.navigation = s.navigation)
    (hanswer : ∀ d, verb = .navigate d → s.answer (.call (.navigate d)) = .ok ())
    (hlink : ∀ d, verb = .navigate d → s.navigation.linkTarget? d = some index) :
    Travels verb s ((do return nextOfChange (← changeScene index true) : Act Next) s') := by
  by_cases hchanging : s.navigation.transitioning = true
  · rw [bind_apply, changeScene_apply, hnavigation, hchanging]
    cases s.navigation.scene index with
    | error e => exact travels_error e (stays_of_eq hnavigation)
    | ok target => exact travels_done (stays_of_eq hnavigation)
  · have hfree : s.navigation.transitioning = false := by simpa using hchanging
    rcases changeScene_cases index true s' (by rw [hnavigation]; exact hfree) with
      ⟨e, hscene, hchange⟩ | ⟨target, hscene, hchange⟩
    · rw [hchange]
      exact travels_error e (stays_of_eq hnavigation)
    · rw [hchange]
      rw [hnavigation] at hscene
      obtain ⟨hnonneg, -, hget⟩ := Navigation.lt_of_scene_eq_ok hscene
      refine .departs hget hfree hanswer ?_ (.straight fun d hverb => ?_)
      · show { s'.navigation with transitioning := true } = _
        rw [hnavigation]
      · rw [hlink d hverb, Int.toNat_of_nonneg hnonneg]

/-- Without an entry before the current one, going back does nothing. -/
theorem back_cases (n : Navigation) :
    n.back = (n, .ok none) ∨
      ∃ p, n.place = some (p + 1) ∧ n.back = ({ n with place := some p }, n.entryAt p) := by
  unfold Navigation.back
  split
  · rename_i p hplace
    exact Or.inr ⟨p, hplace, rfl⟩
  · exact Or.inl rfl

/-- The way back in the history, once the place in it has moved. -/
theorem travels_back {place : Option Nat} {index : Nat}
    (hback : s.navigation.back = ({ s.navigation with place }, .ok (some index)))
    (hlink : s.navigation.linkTarget? .backward = none)
    (hfree : s.navigation.transitioning = false) :
    Travels (.navigate .backward) s
      ((do
        call (.navigate .backward)
        return nextOfChange (← changeScene index false) : Act Next)
          { s with navigation := { s.navigation with place } }) := by
  obtain ⟨moved, hmoved⟩ : ∃ moved : Session,
    moved = { s with navigation := { s.navigation with place } } := ⟨_, rfl⟩
  have hnavigation : moved.navigation = { s.navigation with place } := by rw [hmoved]
  have hanswer : moved.answer (.call (.navigate .backward)) =
      s.answer (.call (.navigate .backward)) := by
    rw [hmoved]
    rfl
  rw [← hmoved, bind_apply, call, tell_apply, hanswer]
  cases hcall : s.answer (.call (.navigate .backward)) with
  | error e =>
      refine .strays rfl hlink ((navigation_told _).trans hnavigation) ?_
      rw [hcall]
      rintro ⟨⟩
  | ok _ =>
      have htold : (moved.told (.call (.navigate .backward))).navigation =
          { s.navigation with place } := (navigation_told _).trans hnavigation
      dsimp only
      rcases changeScene_cases index false (moved.told (.call (.navigate .backward)))
        (by rw [htold]; exact hfree) with ⟨e, hscene, hchange⟩ | ⟨target, hscene, hchange⟩
      · rw [hchange]
        refine .strays rfl hlink htold fun _ hsound => ?_
        -- the entry of a sound history is a scene that is there
        obtain ⟨found, hfound, hvalid⟩ := hsound.back_eq_ok
        rw [hback] at hfound
        cases hfound
        rw [htold] at hscene
        have hlt : index < s.navigation.scenes.length := hvalid index rfl
        have hthere : Navigation.scene { s.navigation with place } index =
            .ok s.navigation.scenes[index] := Navigation.scene_natCast_eq_ok hlt
        rw [hthere] at hscene
        cases hscene
      · rw [hchange]
        rw [htold] at hscene
        obtain ⟨-, -, hget⟩ := Navigation.lt_of_scene_eq_ok hscene
        refine .departs hget hfree ?_ ?_ (.back rfl hlink hback)
        · rintro d ⟨⟩
          exact hcall
        · show { (moved.told _).navigation with transitioning := true } = _
          rw [htold]

theorem travels_navigate (d : Direction) (s : Session) :
    Travels (.navigate d) s (navigate d s) := by
  unfold navigate
  rw [get_bind_apply]
  by_cases hchanging : s.navigation.transitioning = true
  · rw [if_pos hchanging]
    exact travels_done (stays_of_eq rfl)
  · rw [if_neg hchanging, bind_apply]
    have hfree : s.navigation.transitioning = false := by simpa using hchanging
    unfold destination
    rw [get_bind_apply]
    cases hlink : s.navigation.linkTarget? d with
    | some target =>
        dsimp only
        rw [pure_apply]
        dsimp only
        rw [bind_apply, call, tell_apply]
        cases hcall : s.answer (.call (.navigate d)) with
        | error e => exact travels_error e (stays_of_eq (navigation_told _))
        | ok _ =>
            refine travels_changeScene target (navigation_told _) ?_ ?_
            · rintro d' ⟨⟩
              exact hcall
            · rintro d' ⟨⟩
              exact hlink
    | none =>
        by_cases hd : d = .backward
        · subst hd
          dsimp only
          rw [if_pos rfl, bind_apply, navigating_apply]
          rcases back_cases s.navigation with hback | ⟨p, hplace, hback⟩
          · rw [hback]
            exact travels_done (stays_of_eq rfl)
          · rw [hback]
            cases hentry : s.navigation.entryAt p with
            | error e =>
                refine .strays rfl hlink rfl fun _ hsound => ?_
                obtain ⟨found, hfound, -⟩ := hsound.back_eq_ok
                rw [hback, hentry] at hfound
                cases hfound
            | ok found =>
                cases found with
                | none =>
                    unfold Navigation.entryAt at hentry
                    split at hentry <;> cases hentry
                | some index =>
                    rw [hentry] at hback
                    exact travels_back hback hlink hfree
        · dsimp only
          rw [if_neg hd]
          exact travels_done (stays_of_eq rfl)

/-- Whatever a verb asks for, a command does one of three things to the navigation. -/
theorem travels (verb : Verb) (i : Instruction) (s : Session) :
    Travels verb s (perform verb i s) := by
  by_cases hplain : verb.IsPlain
  · obtain ⟨hstays, hnext⟩ := covers_stays.admits.perform hplain i s
    rcases hperform : perform verb i s with ⟨outcome, s'⟩
    rw [hperform] at hstays hnext
    refine .stays hstays ?_
    rintro target recorded rfl
    exact hnext _ rfl
  · cases verb with
    | navigate d => exact travels_navigate d s
    | goToScene =>
        simp only [perform]
        rw [get_bind_apply, bind_apply, given_apply]
        cases s.navigation.resolve (.text i.args) with
        | error e => exact travels_error e (stays_of_eq rfl)
        | ok index =>
            refine travels_changeScene index rfl ?_ ?_ <;> rintro d ⟨⟩
    | condition =>
        simp only [perform]
        rw [bind_apply, given_apply]
        cases Condition.parse i.args with
        | error e => exact travels_error e (stays_of_eq rfl)
        | ok condition =>
            dsimp only
            rw [get_bind_apply]
            cases condition.select s.values.get with
            | none => exact travels_done (stays_of_eq rfl)
            | some branch =>
                dsimp only
                split
                · exact travels_done (stays_of_eq rfl)
                · exact travels_nest branch s
    | playCommand => exact travels_nest i.args s
    | _ => exact (hplain trivial).elim

end Session

end PointAndClick
