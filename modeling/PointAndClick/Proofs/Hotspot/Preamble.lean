import PointAndClick.Proofs.Hotspot.Conservation
import PointAndClick.Scene.Table

/-!
# The preamble of a flat run

A flat run of records has no words that say where a hotspot begins. An image opens one, and a shape
closes it; a command goes to the hotspot that is open, or else to the preamble. So the shapes divide
the run into parts, and the preamble gets the commands before the first image of each part. These
may be more than those before the first image of the run.
-/

set_option autoImplicit false

namespace PointAndClick

/-! ## Images and the commands around them -/

namespace Record

/-- The record is an image command. -/
def isImage (r : Record) : Bool := r.code? = some Command.playBmp

/-- The record is a command, and no image. -/
def isAction (r : Record) : Bool := r.payload.isCommand && !r.isImage

/-- The commands that come before the first image. -/
def commandsBeforeImage (rs : List Record) : List Record :=
  (rs.takeWhile (!·.isImage)).filter (·.payload.isCommand)

/-- The commands that come behind the first image, without those that are images. -/
def commandsBehindImage (rs : List Record) : List Record :=
  (rs.dropWhile (!·.isImage)).filter isAction

/-- The parts into which the shapes divide some records. -/
def parts (rs : List Record) : List (List Record) := rs.splitOnP (·.payload.isShape)

/-- The commands that come behind a shape with no image between the two, from the first image of a
run on. -/
def commandsBehindShape (rs : List Record) : List Record :=
  (parts (rs.dropWhile (!·.isImage))).flatMap commandsBeforeImage

variable {r : Record} {rs first : List Record} {rest : List (List Record)}

theorem isCommand_of_isImage (h : r.isImage = true) : r.payload.isCommand = true := by
  have hcode : r.code? = some Command.playBmp := of_decide_eq_true h
  obtain ⟨payload, offset⟩ := r
  cases payload with
  | null | marker | shape tag points => cases hcode
  | wrapper code text | complex code text | simple code text => rfl

theorem isShape_of_isCommand (h : r.payload.isCommand = true) : r.payload.isShape = false := by
  cases hpayload : r.payload with
  | shape tag points => simp [hpayload, Payload.isCommand] at h
  | null | marker | wrapper code text | complex code text | simple code text => rfl

theorem isImage_of_not_isCommand (h : r.payload.isCommand = false) : r.isImage = false := by
  cases himage : r.isImage with
  | false => rfl
  | true =>
      rw [isCommand_of_isImage himage] at h
      cases h

theorem isCommand_of_isShape (h : r.payload.isShape = true) : r.payload.isCommand = false := by
  cases hcommand : r.payload.isCommand with
  | false => rfl
  | true =>
      rw [isShape_of_isCommand hcommand] at h
      cases h

/-! ## The commands that are no images -/

theorem filter_isAction_of_isImage (h : r.isImage = true) : [r].filter isAction = [] :=
  List.filter_cons_of_neg (by simp [isAction, h])

theorem filter_isAction_of_not_isCommand (h : r.payload.isCommand = false) :
    [r].filter isAction = [] :=
  List.filter_cons_of_neg (by simp [isAction, h])

theorem filter_isAction (hcommand : r.payload.isCommand = true) (himage : r.isImage = false) :
    [r].filter isAction = [r] :=
  List.filter_cons_of_pos (by simp [isAction, hcommand, himage])

theorem commandsBeforeImage_of_isImage (h : r.isImage = true) (rs : List Record) :
    commandsBeforeImage (r :: rs) = [] := by
  rw [commandsBeforeImage, List.takeWhile_cons_of_neg (by simp [h]), List.filter_nil]

theorem commandsBehindImage_of_isImage (h : r.isImage = true) (rs : List Record) :
    commandsBehindImage (r :: rs) = rs.filter isAction := by
  rw [commandsBehindImage, List.dropWhile_cons_of_neg (by simp [h]), ← List.singleton_append,
    List.filter_append, filter_isAction_of_isImage h, List.nil_append]

theorem commandsBeforeImage_cons (h : r.isImage = false) (rs : List Record) :
    commandsBeforeImage (r :: rs) = [r].filter isAction ++ commandsBeforeImage rs := by
  rw [commandsBeforeImage, List.takeWhile_cons_of_pos (by simp [h]), commandsBeforeImage]
  cases hcommand : r.payload.isCommand with
  | true =>
      rw [filter_isAction hcommand h, List.filter_cons_of_pos (by simp [hcommand])]
      rfl
  | false =>
      rw [filter_isAction_of_not_isCommand hcommand, List.filter_cons_of_neg (by simp [hcommand])]
      rfl

theorem commandsBehindImage_cons (h : r.isImage = false) (rs : List Record) :
    commandsBehindImage (r :: rs) = commandsBehindImage rs := by
  rw [commandsBehindImage, List.dropWhile_cons_of_pos (by simp [h]), commandsBehindImage]

/-- The commands of a part that go to the preamble. Where a hotspot is open, none do. -/
def enteringOf (isOpen : Bool) (part : List Record) : List Record :=
  if isOpen then [] else commandsBeforeImage part

/-- The commands of a part that go to a hotspot. Where one is open, all do. -/
def clickedOf (isOpen : Bool) (part : List Record) : List Record :=
  if isOpen then part.filter isAction else commandsBehindImage part

theorem enteringOf_nil (isOpen : Bool) : enteringOf isOpen [] = [] := by
  cases isOpen <;> rfl

theorem clickedOf_nil (isOpen : Bool) : clickedOf isOpen [] = [] := by
  cases isOpen <;> rfl

theorem enteringOf_cons (isOpen : Bool) (r : Record) (part : List Record) :
    enteringOf isOpen (r :: part) =
      (if isOpen then [] else [r].filter isAction) ++ enteringOf (r.isImage || isOpen) part := by
  cases isOpen with
  | true =>
      rw [Bool.or_true]
      rfl
  | false =>
      cases himage : r.isImage with
      | true =>
          rw [filter_isAction_of_isImage himage]
          exact commandsBeforeImage_of_isImage himage part
      | false => exact commandsBeforeImage_cons himage part

theorem clickedOf_cons (isOpen : Bool) (r : Record) (part : List Record) :
    clickedOf isOpen (r :: part) =
      (if isOpen then [r].filter isAction else []) ++ clickedOf (r.isImage || isOpen) part := by
  cases isOpen with
  | true =>
      rw [Bool.or_true]
      exact List.filter_append [r] part
  | false =>
      cases himage : r.isImage with
      | true => exact commandsBehindImage_of_isImage himage part
      | false => exact commandsBehindImage_cons himage part

/-! ## The parts of a run -/

theorem parts_of_isShape (h : r.payload.isShape = true) (rs : List Record) :
    parts (r :: rs) = [] :: parts rs := by
  rw [parts, List.splitOnP_cons_eq_if_modifyHead, if_pos h, parts]

theorem parts_cons (h : r.payload.isShape = false) (hparts : parts rs = first :: rest) :
    parts (r :: rs) = (r :: first) :: rest := by
  rw [parts] at hparts
  rw [parts, List.splitOnP_cons_eq_if_modifyHead, h, hparts]
  rfl

theorem exists_parts (rs : List Record) : ∃ first rest, parts rs = first :: rest :=
  List.exists_cons_of_ne_nil (List.splitOnP_ne_nil _ rs)

/-- The commands before the first image of each part are those before the first image of the run,
and those behind a shape. -/
theorem flatMap_parts (rs : List Record) :
    (parts rs).flatMap commandsBeforeImage = commandsBeforeImage rs ++ commandsBehindShape rs := by
  induction rs with
  | nil => rfl
  | cons r rs ih =>
      cases himage : r.isImage with
      | true =>
          rw [commandsBeforeImage_of_isImage himage, List.nil_append, commandsBehindShape,
            List.dropWhile_cons_of_neg (by simp [himage])]
      | false =>
          have hbehind : commandsBehindShape (r :: rs) = commandsBehindShape rs := by
            rw [commandsBehindShape, List.dropWhile_cons_of_pos (by simp [himage]),
              commandsBehindShape]
          rw [hbehind, commandsBeforeImage_cons himage, List.append_assoc, ← ih]
          cases hshape : r.payload.isShape with
          | true =>
              rw [parts_of_isShape hshape, List.flatMap_cons,
                filter_isAction_of_not_isCommand (isCommand_of_isShape hshape)]
              rfl
          | false =>
              obtain ⟨first, rest, hparts⟩ := exists_parts rs
              rw [parts_cons hshape hparts, hparts, List.flatMap_cons, List.flatMap_cons,
                commandsBeforeImage_cons himage, List.append_assoc]

end Record

/-! ## Flat runs -/

open Record

namespace Assembler

variable {a : Assembler} {r : Record}

theorem takes_true (r : Record) : takes true r = r.isAction := by
  rw [takes, Bool.true_and]
  rfl

theorem preamble_addFlatImage (a : Assembler) (r : Record) :
    (a.addFlatImage r).preamble = a.preamble := by
  unfold addFlatImage
  split
  · split
    · rfl
    · exact preamble_close a none
  · rfl

theorem isSome_current_addFlatImage (a : Assembler) (r : Record) :
    (a.addFlatImage r).current.isSome = true := by
  unfold addFlatImage
  split
  · split <;> rfl
  · rfl

theorem addCommand_of_isImage (hflat : a.flat = true) (himage : r.isImage = true) :
    a.addCommand r = a.addFlatImage r := by
  have hcode : decide (r.code? = some Command.playBmp) = true := himage
  simp only [addCommand, hflat, hcode, Bool.and_true, if_true]

/-- Without an open hotspot, a command goes to the preamble, and none is opened. -/
theorem addCommand_of_isNone (hflat : a.flat = true) (himage : r.isImage = false)
    (hcurrent : a.current = none) :
    a.addCommand r = { a with preamble := a.preamble ++ [r] } := by
  have hcode : decide (r.code? = some Command.playBmp) = false := himage
  simp only [addCommand, hflat, hcode, hcurrent, Bool.and_false, Bool.false_eq_true, if_false,
    Option.isNone_none, Bool.and_true, if_true]

theorem addCommand_of_isSome (himage : r.isImage = false) {h : OpenHotspot}
    (hcurrent : a.current = some h) :
    (a.addCommand r).preamble = a.preamble ∧ (a.addCommand r).current.isSome = true := by
  have hcode : decide (r.code? = some Command.playBmp) = false := himage
  simp only [addCommand, hcode, hcurrent, Bool.and_false, Bool.false_eq_true, if_false,
    Option.isNone_some, Option.isSome_some, and_self]

/-- What a record does to a flat run: an image opens a hotspot and a shape closes it, and without an
open hotspot a command that is no image goes to the preamble. -/
theorem add_flat (hflat : a.flat = true) (r : Record) :
    (a.add r).current.isSome = (r.isImage || (a.current.isSome && !r.payload.isShape)) ∧
      (a.add r).preamble =
        a.preamble ++ if a.current.isSome then [] else [r].filter isAction := by
  cases hcommand : r.payload.isCommand with
  | false =>
      rw [filter_isAction_of_not_isCommand hcommand, isImage_of_not_isCommand hcommand, ite_self,
        List.append_nil, Bool.false_or]
      rcases add_of_not_isCommand a hcommand with ⟨hshape, hadd⟩ | ⟨hshape, shape, hadd⟩
      · rw [hadd, hshape, Bool.not_false, Bool.and_true]
        exact ⟨rfl, rfl⟩
      · rw [hadd, hshape, Bool.not_true, Bool.and_false, current_close, preamble_close]
        exact ⟨rfl, rfl⟩
  | true =>
      rw [add_of_isCommand a hcommand, isShape_of_isCommand hcommand, Bool.not_false,
        Bool.and_true]
      cases himage : r.isImage with
      | true =>
          rw [filter_isAction_of_isImage himage, ite_self, List.append_nil, Bool.true_or,
            addCommand_of_isImage hflat himage]
          exact ⟨isSome_current_addFlatImage a r, preamble_addFlatImage a r⟩
      | false =>
          rw [filter_isAction hcommand himage, Bool.false_or]
          cases hcurrent : a.current with
          | none =>
              rw [addCommand_of_isNone hflat himage hcurrent]
              exact ⟨hcurrent ▸ rfl, rfl⟩
          | some h =>
              obtain ⟨hpreamble, hopen⟩ := addCommand_of_isSome himage hcurrent
              exact ⟨hopen, hpreamble.trans (List.append_nil _).symm⟩

/-- What a record adds to a flat run. -/
theorem gains_add_flat (hflat : a.flat = true) (r : Record) :
    Gains a (a.add r) (if a.current.isSome then [] else [r].filter isAction)
      (if a.current.isSome then [r].filter isAction else []) [] := by
  obtain ⟨preamble, clicked, hgains, hinterleaves, -⟩ := gains_add a r
  have hpreamble : preamble = if a.current.isSome then [] else [r].filter isAction :=
    List.append_cancel_left (hgains.preamble.symm.trans (add_flat hflat r).2)
  have hfilter : [r].filter (takes a.flat) = [r].filter isAction := by
    rw [hflat, funext takes_true]
  rw [hfilter] at hinterleaves
  -- what does not go to the preamble goes to the hotspots, and the other way round
  cases hopen : a.current.isSome with
  | true =>
      rw [hopen, if_pos rfl] at hpreamble
      subst hpreamble
      rw [hinterleaves.eq_of_nil_left] at hgains
      exact hgains
  | false =>
      rw [hopen, if_neg Bool.false_ne_true] at hpreamble
      subst hpreamble
      have hlength := hinterleaves.length
      have hclicked : clicked = [] := List.eq_nil_of_length_eq_zero (by omega)
      rw [hclicked] at hgains
      exact hgains

/-- What a run of records adds, part by part. Where a hotspot is open in the beginning, the first
part is added to it. -/
theorem gains_foldl_add (hflat : a.flat = true) {rs first : List Record}
    {rest : List (List Record)} (hparts : parts rs = first :: rest) :
    Gains a (rs.foldl add a)
      (enteringOf a.current.isSome first ++ rest.flatMap commandsBeforeImage)
      (clickedOf a.current.isSome first ++ rest.flatMap commandsBehindImage) [] := by
  induction rs generalizing a first rest with
  | nil =>
      have hnil : parts [] = [[]] := List.splitOnP_nil
      rw [hnil] at hparts
      cases hparts
      rw [enteringOf_nil, clickedOf_nil]
      exact gains_nil rfl rfl fun _ => rfl
  | cons r rs ih =>
      have hstep := gains_add_flat hflat r
      have hflat' : (a.add r).flat = true := hstep.flat.trans hflat
      obtain ⟨first', rest', hparts'⟩ := exists_parts rs
      have hrun := hstep.trans (ih hflat' hparts')
      rw [(add_flat hflat r).1] at hrun
      rw [List.foldl_cons]
      cases hshape : r.payload.isShape with
      -- the shape closes the hotspot: a part ends, and the next one begins with none open
      | true =>
          rw [parts_of_isShape hshape, hparts'] at hparts
          cases hparts
          have hcommand := isCommand_of_isShape hshape
          rw [filter_isAction_of_not_isCommand hcommand, isImage_of_not_isCommand hcommand, hshape,
            Bool.not_true, Bool.and_false, Bool.or_false, ite_self] at hrun
          rw [enteringOf_nil, clickedOf_nil]
          exact hrun
      | false =>
          rw [parts_cons hshape hparts'] at hparts
          cases hparts
          rw [hshape, Bool.not_false, Bool.and_true, ← List.append_assoc, ← List.append_assoc,
            ← enteringOf_cons, ← clickedOf_cons] at hrun
          exact hrun

/-- The preamble of a flat run and the commands of its hotspots: those before and behind the first
image of each part. -/
theorem finish_foldl_add (rs : List Record) :
    let a := (rs.foldl add { flat := true }).finish
    a.preamble = (parts rs).flatMap commandsBeforeImage ∧
      a.hotspots.flatMap (·.commands) = (parts rs).flatMap commandsBehindImage := by
  obtain ⟨first, rest, hparts⟩ := exists_parts rs
  -- no hotspot is open in the beginning, so that the first part is like the others
  have hrun := (gains_foldl_add (a := { flat := true }) rfl hparts).trans
    (gains_close (rs.foldl add { flat := true }) none)
  rw [hparts, List.flatMap_cons, List.flatMap_cons]
  intro a
  have hcurrent : a.current = none := current_close _ none
  have hheld : a.held .click = a.hotspots.flatMap (·.commands) := held_eq_of_current hcurrent
  have hpreamble : a.preamble =
      [] ++ (commandsBeforeImage first ++ rest.flatMap commandsBeforeImage ++ []) := hrun.preamble
  have hclicked : a.held .click =
      [] ++ (commandsBehindImage first ++ rest.flatMap commandsBehindImage ++ []) := hrun.clicked
  rw [← hheld, hpreamble, hclicked, List.nil_append, List.nil_append, List.append_nil,
    List.append_nil]
  exact ⟨rfl, rfl⟩

end Assembler

namespace SceneTable

/-- The preamble of a flat run has the commands before its first image, and those behind a shape
with no image between the two; the other commands are those of the hotspots. What runs on entering a
scene of a scene table is the preamble of its records, and the commands of the hotspots without a
shape. -/
theorem autoCommands_sceneOf (rs : List Record) (b : Buffer) (maxDistance : Int) (d : Descriptor)
    (stop : Nat) :
    let a := (rs.foldl Assembler.add { flat := true }).finish
    let s := sceneOf b maxDistance d stop
    let records := (Record.all b d.stop (some stop) maxDistance).1
    a.preamble = commandsBeforeImage rs ++ commandsBehindShape rs ∧
      (a.preamble = commandsBeforeImage rs ↔ commandsBehindShape rs = []) ∧
      a.hotspots.flatMap (·.commands) = (parts rs).flatMap commandsBehindImage ∧
      s.autoCommands = commandsBeforeImage records ++ commandsBehindShape records ++
        (s.hotspots.filter (·.isDangling)).flatMap (·.commands) := by
  have hpreamble (rs : List Record) : (rs.foldl Assembler.add { flat := true }).finish.preamble =
      commandsBeforeImage rs ++ commandsBehindShape rs := by
    rw [← flatMap_parts]
    exact (Assembler.finish_foldl_add rs).1
  intro a s records
  refine ⟨hpreamble rs, ?_, (Assembler.finish_foldl_add rs).2, ?_⟩
  · rw [hpreamble, List.append_right_eq_self]
  · have hentering : s.onEnter = commandsBeforeImage records ++ commandsBehindShape records :=
      hpreamble records
    rw [Scene.autoCommands, hentering]

/-- An image, a shape, and a sound behind it. -/
def curtain : List Record :=
  [⟨.simple Command.playBmp "a.bmp", 0⟩, ⟨.shape 100 [⟨0, 0⟩, ⟨9, 9⟩], 13⟩,
    ⟨.simple Command.playWav "b.wav", 37⟩]

/-- The sound comes behind the first image, but it is no command of the hotspot, which the shape has
closed. -/
theorem not_forall_preamble_eq :
    ¬∀ rs : List Record, (∀ r ∈ rs, r.isKept = true) →
      (rs.foldl Assembler.add { flat := true }).finish.preamble = commandsBeforeImage rs := by
  intro h
  have hcurtain := h curtain (by decide)
  exact absurd hcurtain (by decide)

end SceneTable

end PointAndClick
