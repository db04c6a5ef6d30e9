import PointAndClick.Proofs.Encoding.Record
import PointAndClick.Proofs.Hotspot.Records

/-!
# Nothing is lost in an assembler

However an assembler is used, its hotspots are numbered in order, and the records that it was given
are all there once and in their order: `Assembler.Gains` says so for what one operation adds to
those held before. A shape ends up at the hotspot that was open when it came, and at no other.
-/

set_option autoImplicit false

namespace PointAndClick

/-! ## Interleaved lists -/

/-- Two lists interleave to a third one: its elements are those of both, each list in its order. -/
inductive Interleaves {α : Type} : List α → List α → List α → Prop
  | nil : Interleaves [] [] []
  | left {x : α} {xs ys zs : List α} : Interleaves xs ys zs → Interleaves (x :: xs) ys (x :: zs)
  | right {y : α} {xs ys zs : List α} : Interleaves xs ys zs → Interleaves xs (y :: ys) (y :: zs)

namespace Interleaves

variable {α : Type} {xs ys zs : List α}

theorem append {xs' ys' zs' : List α} (h : Interleaves xs ys zs) (h' : Interleaves xs' ys' zs') :
    Interleaves (xs ++ xs') (ys ++ ys') (zs ++ zs') := by
  induction h with
  | nil => exact h'
  | left _ ih => exact ih.left
  | right _ ih => exact ih.right

theorem eq_of_nil_left (h : Interleaves [] ys zs) : ys = zs := by
  induction ys generalizing zs with
  | nil => cases h; rfl
  | cons y ys ih => cases h with | right h => rw [ih h]

theorem length (h : Interleaves xs ys zs) : zs.length = xs.length + ys.length := by
  induction h with
  | nil => rfl
  | left h ih | right h ih =>
      simp only [List.length_cons, ih]
      omega

end Interleaves

/-! ## Operations -/

/-- The records that a click sets off, or those that the pointer sets off. -/
inductive Trigger
  | click
  | pointer

/-- The records of a hotspot for a trigger. -/
def Hotspot.recordsFor (h : Hotspot) : Trigger → List Record
  | .click => h.commands
  | .pointer => h.hover

/-- The records of an open hotspot for a trigger. -/
def OpenHotspot.recordsFor (h : OpenHotspot) : Trigger → List Record
  | .click => h.commands
  | .pointer => h.hover

namespace Assembler

/-- What can be done with an assembler until it is finished. -/
inductive Operation
  | begin (eventType : Option Nat) (offset : Nat)
  | add (r : Record)
  | addHover (r : Record)
  | close (points : List Point)

namespace Operation

/-- Does an operation. -/
def apply (a : Assembler) : Operation → Assembler
  | begin eventType offset => a.begin eventType offset
  | add r => a.add r
  | addHover r => a.addHover r
  | close points => a.close (some (Shape.ofPoints points))

/-- The record that an operation adds, if it adds one. -/
def added : Operation → List Record
  | add r => [r]
  | _ => []

/-- The record that an operation adds for the pointer, if it adds one. -/
def hovered : Operation → List Record
  | addHover r => [r]
  | _ => []

/-- The shape that an operation gives. -/
def shape? : Operation → Option Shape
  | add ⟨.shape _ points, _⟩ | close points => some (Shape.ofPoints points)
  | _ => none

end Operation

/-- Does some operations, one after another. -/
def run (a : Assembler) (ops : List Operation) : Assembler :=
  ops.foldl Operation.apply a

/-- The record becomes a command of a hotspot or of the preamble: it is a command, and in a flat
run it is no image. -/
def takes (flat : Bool) (r : Record) : Bool :=
  r.payload.isCommand && !(flat && r.code? = some Command.playBmp)

/-- Of some operations, the shapes that are given while a hotspot is open. -/
def shapesTaken (a : Assembler) : List Operation → List Shape
  | [] => []
  | op :: ops =>
      (if a.current.isSome then op.shape? else none).toList ++ shapesTaken (op.apply a) ops

variable {a b c : Assembler} {trigger : Trigger}

/-! ## The records held -/

/-- The records that the hotspots hold for a trigger, those of the open one last. -/
def held (a : Assembler) (trigger : Trigger) : List Record :=
  a.hotspots.flatMap (·.recordsFor trigger) ++
    (a.current.map (·.recordsFor trigger)).getD []

theorem held_eq_of_current (hcurrent : a.current = none) :
    a.held trigger = a.hotspots.flatMap (·.recordsFor trigger) := by
  rw [held, hcurrent]
  exact List.append_nil _

theorem held_eq_openAt (a : Assembler) (r : Record) :
    a.held trigger =
      a.hotspots.flatMap (·.recordsFor trigger) ++ (a.openAt r).recordsFor trigger := by
  cases hcurrent : a.current <;> cases trigger <;>
    simp [held, openAt, hcurrent, OpenHotspot.recordsFor]

theorem recordsFor_finished (h : OpenHotspot) (id : Nat) (shape : Option Shape) :
    (h.finished id shape).recordsFor trigger = h.recordsFor trigger := by
  cases trigger <;> rfl

theorem recordsFor_eq_nil {h : OpenHotspot} (hempty : h.hasContent = false) :
    h.recordsFor trigger = [] := by
  obtain ⟨hcommands, hhover⟩ := OpenHotspot.commands_hover_eq_nil hempty
  cases trigger
  · exact hcommands
  · exact hhover

/-- What one use of an assembler adds to the records held: some to the preamble, some for each
trigger. -/
structure Gains (a b : Assembler) (preamble clicked hovered : List Record) : Prop where
  flat : b.flat = a.flat
  preamble : b.preamble = a.preamble ++ preamble
  clicked : b.held .click = a.held .click ++ clicked
  hovered : b.held .pointer = a.held .pointer ++ hovered

theorem Gains.trans {preamble preamble' clicked clicked' hovered hovered' : List Record}
    (h : Gains a b preamble clicked hovered) (h' : Gains b c preamble' clicked' hovered') :
    Gains a c (preamble ++ preamble') (clicked ++ clicked') (hovered ++ hovered') where
  flat := h'.flat.trans h.flat
  preamble := by rw [h'.preamble, h.preamble, List.append_assoc]
  clicked := by rw [h'.clicked, h.clicked, List.append_assoc]
  hovered := by rw [h'.hovered, h.hovered, List.append_assoc]

/-- What adds no record. -/
theorem gains_nil (hflat : b.flat = a.flat) (hpreamble : b.preamble = a.preamble)
    (hheld : ∀ trigger, b.held trigger = a.held trigger) : Gains a b [] [] [] where
  flat := hflat
  preamble := by rw [hpreamble, List.append_nil]
  clicked := by rw [hheld, List.append_nil]
  hovered := by rw [hheld, List.append_nil]

theorem flat_close (a : Assembler) (shape : Option Shape) : (a.close shape).flat = a.flat := by
  unfold close
  split
  · rfl
  · split <;> rfl

/-- Closing a hotspot keeps its records. -/
theorem held_close (a : Assembler) (shape : Option Shape) :
    (a.close shape).held trigger = a.held trigger := by
  rw [held_eq_of_current (current_close a shape),
    flatMap_close (fun h id shape => recordsFor_finished h id shape) (fun _ => recordsFor_eq_nil),
    held]

theorem gains_close (a : Assembler) (shape : Option Shape) : Gains a (a.close shape) [] [] [] :=
  gains_nil (flat_close a shape) (preamble_close a shape) fun _ => held_close a shape

/-- A hotspot that is opened has no records yet. -/
theorem gains_open (a : Assembler) {h : OpenHotspot} (hnil : ∀ trigger, h.recordsFor trigger = []) :
    Gains a { a.close none with current := some h } [] [] [] := by
  refine gains_nil (flat_close a none) (preamble_close a none) fun trigger => ?_
  rw [← held_close a none, held_eq_of_current (current_close a none)]
  simp only [held, Option.map_some, Option.getD_some, hnil, List.append_nil]

theorem gains_addHover (a : Assembler) (r : Record) : Gains a (a.addHover r) [] [] [r] where
  flat := rfl
  preamble := (List.append_nil _).symm
  clicked := by
    rw [held_eq_openAt a r, List.append_nil]
    rfl
  hovered := by
    rw [held_eq_openAt a r, List.append_assoc]
    rfl

theorem gains_addFlatImage (a : Assembler) (r : Record) :
    Gains a (a.addFlatImage r) [] [] [] := by
  have hnew (image : Placement) (trigger : Trigger) :
      OpenHotspot.recordsFor { offset := r.offset, image } trigger = [] := by
    cases trigger <;> rfl
  unfold addFlatImage
  cases hcurrent : a.current with
  | none =>
      -- where no hotspot is open, closing it first changes nothing
      have hopen := gains_open a (hnew (Placement.parse r.text))
      rwa [close, hcurrent] at hopen
  | some h =>
      simp only
      split
      · refine gains_nil rfl rfl fun trigger => ?_
        cases trigger <;> simp [held, hcurrent, OpenHotspot.recordsFor]
      · exact gains_open a (hnew _)

/-- Those of some records that are taken are divided, in their order, between the preamble and the
hotspots. Only a flat run has a preamble. -/
structure Divides (flat : Bool) (rs preamble clicked : List Record) : Prop where
  interleaves : Interleaves preamble clicked (rs.filter (takes flat))
  preamble : flat = false → preamble = []

theorem divides_nil {flat : Bool} {rs : List Record} (h : rs.filter (takes flat) = []) :
    Divides flat rs [] [] := ⟨h ▸ .nil, fun _ => rfl⟩

theorem Divides.append {flat : Bool} {rs rs' preamble preamble' clicked clicked' : List Record}
    (h : Divides flat rs preamble clicked) (h' : Divides flat rs' preamble' clicked') :
    Divides flat (rs ++ rs') (preamble ++ preamble') (clicked ++ clicked') where
  interleaves := by
    rw [List.filter_append]
    exact h.interleaves.append h'.interleaves
  preamble hflat := by rw [h.preamble hflat, h'.preamble hflat, List.append_nil]

/-- A command goes to the preamble or to the open hotspot, except for an image of a flat run. -/
theorem gains_addCommand (a : Assembler) {r : Record} (hcommand : r.payload.isCommand = true) :
    ∃ preamble clicked, Gains a (a.addCommand r) preamble clicked [] ∧
      Divides a.flat [r] preamble clicked := by
  have hfilter : [r].filter (takes a.flat) =
      if !(a.flat && r.code? = some Command.playBmp) then [r] else [] := by
    rw [List.filter_cons, takes, hcommand, Bool.true_and]
    rfl
  dsimp only [addCommand]
  cases himage : a.flat && r.code? = some Command.playBmp with
  | true =>
      rw [himage] at hfilter
      exact ⟨[], [], gains_addFlatImage a r, divides_nil hfilter⟩
  | false =>
      rw [himage] at hfilter
      have hfirst : Interleaves [r] [] ([r].filter (takes a.flat)) := hfilter ▸ .left .nil
      have hsecond : Interleaves [] [r] ([r].filter (takes a.flat)) := hfilter ▸ .right .nil
      rw [if_neg Bool.false_ne_true]
      split
      -- before the first hotspot of a flat run
      · next hbefore =>
          rw [Bool.and_eq_true] at hbefore
          have hgains : Gains a { a with preamble := a.preamble ++ [r] } [r] [] [] :=
            ⟨rfl, rfl, (List.append_nil _).symm, (List.append_nil _).symm⟩
          exact ⟨[r], [], hgains, hfirst, fun hflat => by simp [hflat] at hbefore⟩
      · refine ⟨[], [r], ⟨rfl, (List.append_nil _).symm, ?_, ?_⟩, hsecond, fun _ => rfl⟩
        · rw [held_eq_openAt a r, List.append_assoc]
          rfl
        · rw [held_eq_openAt a r, List.append_nil]
          rfl

theorem add_of_isCommand (a : Assembler) {r : Record} (hcommand : r.payload.isCommand = true) :
    a.add r = a.addCommand r := by
  obtain ⟨payload, offset⟩ := r
  cases payload with
  | null | marker | shape tag points => cases hcommand
  | wrapper code text | complex code text | simple code text => rfl

/-- A record that is no command is a filler, or a shape that closes the open hotspot. -/
theorem add_of_not_isCommand (a : Assembler) {r : Record} (h : r.payload.isCommand = false) :
    r.payload.isShape = false ∧ a.add r = a ∨
      r.payload.isShape = true ∧ ∃ shape, a.add r = a.close shape := by
  obtain ⟨payload, offset⟩ := r
  cases payload with
  | null | marker => exact .inl ⟨rfl, rfl⟩
  | shape tag points => exact .inr ⟨rfl, some (Shape.ofPoints points), rfl⟩
  | wrapper code text | complex code text | simple code text => cases h

theorem gains_add (a : Assembler) (r : Record) :
    ∃ preamble clicked, Gains a (a.add r) preamble clicked [] ∧
      Divides a.flat [r] preamble clicked := by
  cases hcommand : r.payload.isCommand with
  | true =>
      rw [add_of_isCommand a hcommand]
      exact gains_addCommand a hcommand
  | false =>
      have hfilter : [r].filter (takes a.flat) = [] := by
        rw [List.filter_cons, takes, hcommand, Bool.false_and]
        rfl
      refine ⟨[], [], ?_, divides_nil hfilter⟩
      rcases add_of_not_isCommand a hcommand with ⟨-, hadd⟩ | ⟨-, shape, hadd⟩
      · rw [hadd]
        exact gains_nil rfl rfl fun _ => rfl
      · rw [hadd]
        exact gains_close a shape

/-- What one operation adds. -/
theorem gains_apply (a : Assembler) (op : Operation) :
    ∃ preamble clicked, Gains a (op.apply a) preamble clicked op.hovered ∧
      Divides a.flat op.added preamble clicked := by
  cases op with
  | begin eventType offset =>
      have hnew (trigger : Trigger) :
          OpenHotspot.recordsFor { offset, eventType } trigger = [] := by
        cases trigger <;> rfl
      exact ⟨[], [], gains_open a hnew, divides_nil rfl⟩
  | close points => exact ⟨[], [], gains_close a _, divides_nil rfl⟩
  | addHover r => exact ⟨[], [], gains_addHover a r, divides_nil rfl⟩
  | add r => exact gains_add a r

/-- What a run adds. -/
theorem gains_run (a : Assembler) (ops : List Operation) :
    ∃ preamble clicked, Gains a (run a ops) preamble clicked (ops.flatMap Operation.hovered) ∧
      Divides a.flat (ops.flatMap Operation.added) preamble clicked := by
  induction ops generalizing a with
  | nil => exact ⟨[], [], gains_nil rfl rfl fun _ => rfl, divides_nil rfl⟩
  | cons op ops ih =>
      obtain ⟨preamble, clicked, hstep, hfirst⟩ := gains_apply a op
      obtain ⟨preamble', clicked', hrest, hothers⟩ := ih (op.apply a)
      rw [hstep.flat] at hothers
      exact ⟨preamble ++ preamble', clicked ++ clicked', hstep.trans hrest, hfirst.append hothers⟩

/-! ## The hotspots -/

theorem prefix_close (a : Assembler) (shape : Option Shape) :
    a.hotspots <+: (a.close shape).hotspots := by
  obtain ⟨h, -, hnew⟩ | ⟨-, hsame⟩ := hotspots_close a shape
  · rw [hnew]
    exact List.prefix_append _ _
  · exact hsame ▸ List.prefix_refl _

theorem shapes_close (a : Assembler) (shape : Option Shape) :
    (a.close shape).hotspots.filterMap Hotspot.shape =
      a.hotspots.filterMap Hotspot.shape ++ (if a.current.isSome then shape else none).toList := by
  obtain ⟨h, hcurrent, hnew⟩ | ⟨hdropped, hsame⟩ := hotspots_close a shape
  · rw [hnew, hcurrent, List.filterMap_append]
    cases shape <;> rfl
  · have hnone : (if a.current.isSome then shape else none) = none := by
      cases hcurrent : a.current with
      | none => rfl
      | some h => exact (hdropped h hcurrent).1
    rw [hsame, hnone, Option.toList_none, List.append_nil]

/-- A command is added to the hotspots as they are, or once the open one is closed. -/
theorem hotspots_addCommand (a : Assembler) (r : Record) :
    (a.addCommand r).hotspots = (a.close none).hotspots ∨ (a.addCommand r).hotspots = a.hotspots := by
  dsimp only [addCommand, addFlatImage]
  split
  · split
    · split
      · exact .inr rfl
      · exact .inl rfl
    · exact .inr rfl
  · split <;> exact .inr rfl

/-- An operation closes the open hotspot with the shape that is given, or it gives none and leaves
the hotspots as they are. -/
theorem hotspots_apply (a : Assembler) (op : Operation) :
    (op.apply a).hotspots = (a.close op.shape?).hotspots ∨
      op.shape? = none ∧ (op.apply a).hotspots = a.hotspots := by
  cases op with
  | begin eventType offset => exact .inl rfl
  | close points => exact .inl rfl
  | addHover r => exact .inr ⟨rfl, rfl⟩
  | add r =>
      obtain ⟨payload, offset⟩ := r
      cases payload with
      | null | marker => exact .inr ⟨rfl, rfl⟩
      | shape tag points => exact .inl rfl
      | wrapper code text | complex code text | simple code text =>
          exact (hotspots_addCommand a _).imp_right fun hsame => ⟨rfl, hsame⟩

/-- An operation that gives a shape does nothing else. -/
theorem apply_of_shape {op : Operation} {shape : Shape} (h : op.shape? = some shape) :
    op.apply a = a.close (some shape) := by
  cases op with
  | begin eventType offset | addHover r => nomatch h
  | close points => rw [← h]; rfl
  | add r =>
      obtain ⟨payload, offset⟩ := r
      cases payload with
      | shape tag points => rw [← h]; rfl
      | null | marker | wrapper code text | complex code text | simple code text => nomatch h

theorem numbered_apply (h : Numbered a.hotspots) (op : Operation) :
    Numbered (op.apply a).hotspots := by
  obtain hclose | ⟨-, hsame⟩ := hotspots_apply a op
  · rw [hclose]
    exact numbered_close h op.shape?
  · rwa [hsame]

theorem prefix_apply (a : Assembler) (op : Operation) : a.hotspots <+: (op.apply a).hotspots := by
  obtain hclose | ⟨-, hsame⟩ := hotspots_apply a op
  · rw [hclose]
    exact prefix_close a op.shape?
  · exact hsame ▸ List.prefix_refl _

theorem shapes_apply (a : Assembler) (op : Operation) :
    (op.apply a).hotspots.filterMap Hotspot.shape = a.hotspots.filterMap Hotspot.shape ++
      (if a.current.isSome then op.shape? else none).toList := by
  obtain hclose | ⟨hnone, hsame⟩ := hotspots_apply a op
  · rw [hclose, shapes_close]
  · rw [hsame, hnone, ite_self, Option.toList_none, List.append_nil]

theorem numbered_run (h : Numbered a.hotspots) (ops : List Operation) :
    Numbered (run a ops).hotspots := by
  induction ops generalizing a with
  | nil => exact h
  | cons op ops ih => exact ih (numbered_apply h op)

theorem prefix_run (a : Assembler) (ops : List Operation) :
    a.hotspots <+: (run a ops).hotspots := by
  induction ops generalizing a with
  | nil => exact List.prefix_refl _
  | cons op ops ih => exact (prefix_apply a op).trans (ih _)

theorem shapes_run (a : Assembler) (ops : List Operation) :
    (run a ops).hotspots.filterMap Hotspot.shape =
      a.hotspots.filterMap Hotspot.shape ++ shapesTaken a ops := by
  induction ops generalizing a with
  | nil => exact (List.append_nil _).symm
  | cons op ops ih =>
      have hrest := ih (op.apply a)
      rw [shapes_apply, List.append_assoc] at hrest
      exact hrest

/-- The open hotspot gets the shape that is given, and stays as it then is. -/
theorem getElem?_run_of_shape {h : OpenHotspot} (hcurrent : a.current = some h) {op : Operation}
    {shape : Shape} (hshape : op.shape? = some shape) (ops : List Operation) :
    (run a (op :: ops)).finish.hotspots[a.hotspots.length]? =
      some (h.finished a.hotspots.length (some shape)) := by
  have hkept : (op.apply a).hotspots <+: (run a (op :: ops)).finish.hotspots :=
    (prefix_run (op.apply a) ops).trans (prefix_close _ none)
  have hnew : (op.apply a).hotspots =
      a.hotspots ++ [h.finished a.hotspots.length (some shape)] := by
    rw [apply_of_shape hshape, close, hcurrent]
    rfl
  obtain ⟨others, hothers⟩ := hkept
  rw [← hothers, hnew]
  simp

/-! ## Whole runs -/

/-- The records of a finished run are all with its hotspots or in its preamble. -/
theorem divides_finish_run (flat : Bool) (ops : List Operation) :
    let a := (run { flat } ops).finish
    Divides flat (ops.flatMap Operation.added) a.preamble
        (a.hotspots.flatMap Hotspot.commands) ∧
      a.hotspots.flatMap Hotspot.hover = ops.flatMap Operation.hovered := by
  obtain ⟨preamble, clicked, hrun, hdivides⟩ := gains_run { flat } ops
  obtain ⟨-, hpreamble, hclicked, hhovered⟩ := hrun.trans (gains_close _ none)
  rw [held_eq_of_current (current_close _ none), List.append_nil] at hclicked hhovered
  rw [List.append_nil] at hpreamble
  intro a
  have hpreamble : a.preamble = preamble := hpreamble
  have hclicked : a.hotspots.flatMap Hotspot.commands = clicked := hclicked
  exact ⟨hpreamble ▸ hclicked ▸ hdivides, hhovered⟩

/-- Whatever is done with a new assembler, its hotspots are numbered in order and nothing is lost
or doubled. Outside a flat run the commands of the hotspots are the commands that were added; in a
flat run these and the preamble are, in their order, the commands other than images. The records for
the pointer are those that were added for it. The shapes are those that were given while a hotspot
was open: each closes that hotspot for good, and a shape that is given at another time changes
nothing. -/
theorem conserves (flat : Bool) (ops : List Operation) :
    let a := (run { flat } ops).finish
    let added := ops.flatMap Operation.added
    Numbered a.hotspots ∧
    (flat = false → a.preamble = [] ∧
      a.hotspots.flatMap Hotspot.commands = added.filter (·.payload.isCommand)) ∧
    (flat = true → Interleaves a.preamble (a.hotspots.flatMap Hotspot.commands)
      (added.filter fun r => r.payload.isCommand && r.code? ≠ some Command.playBmp)) ∧
    a.hotspots.flatMap Hotspot.hover = ops.flatMap Operation.hovered ∧
    a.hotspots.filterMap Hotspot.shape = shapesTaken { flat } ops ∧
    ∀ before op after shape, ops = before ++ op :: after → op.shape? = some shape →
      let b := run { flat } before
      match b.current with
      | some h => a.hotspots[b.hotspots.length]? =
          some (h.finished b.hotspots.length (some shape))
      | none => op.apply b = b := by
  obtain ⟨⟨hinter, hpreamble⟩, hhovered⟩ := divides_finish_run flat ops
  have hempty : Numbered ([] : List Hotspot) := fun i hi => absurd hi (Nat.not_lt_zero i)
  refine ⟨numbered_close (numbered_run hempty ops) none, ?_, ?_, hhovered, ?_, ?_⟩
  · rintro rfl
    have htakes : takes false = fun r => r.payload.isCommand := by
      funext r
      rw [takes, Bool.false_and, Bool.not_false, Bool.and_true]
    rw [hpreamble rfl, htakes] at hinter
    exact ⟨hpreamble rfl, hinter.eq_of_nil_left⟩
  · rintro rfl
    have htakes : takes true = fun r =>
        r.payload.isCommand && r.code? ≠ some Command.playBmp := by
      funext r
      rw [takes, Bool.true_and, decide_not]
    rwa [htakes] at hinter
  · rw [finish, shapes_close, shapes_run, ite_self]
    exact List.append_nil _
  · rintro before op after shape rfl hshape b
    have hrun : run { flat } (before ++ op :: after) = run b (op :: after) := List.foldl_append
    rw [hrun]
    cases hcurrent : b.current with
    | some h => exact getElem?_run_of_shape hcurrent hshape after
    | none => rw [apply_of_shape hshape, close, hcurrent]

end Assembler

end PointAndClick
