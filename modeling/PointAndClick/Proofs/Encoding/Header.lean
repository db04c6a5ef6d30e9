import PointAndClick.Project.Header
import PointAndClick.Project.Variable
import PointAndClick.Proofs.Encoding.Bytes

/-!
# The bytes that stand for headers and variables

The written forms of a header and of a variable table. Both are read back at any position, and
reading stops behind them.
-/

set_option autoImplicit false

namespace PointAndClick

open Decoder

/-! ## Headers -/

namespace Header

/-- A header. -/
def encode (h : Header) : List UInt8 :=
  h.flags ++ Encode.text h.magic ++ Encode.text h.version ++ Encode.word h.formatType ++
    Encode.text h.projectName ++ Encode.text h.editor ++ Encode.text h.serial ++
    Encode.text h.projectId ++ Encode.text h.registry ++ Encode.word h.width ++
    Encode.word h.height ++ Encode.word h.depth ++ Encode.word h.flag ++
    Encode.word h.reserved.1 ++ Encode.word h.reserved.2.1 ++ Encode.word h.reserved.2.2 ++
    Encode.text h.dllPath ++ Encode.word h.variableCount

/-- The header has a written form. -/
structure IsStorable (h : Header) : Prop where
  flags : h.flags.length = 5
  magic : PointAndClick.IsStorable h.magic
  version : PointAndClick.IsStorable h.version
  formatType : IsWord h.formatType
  projectName : PointAndClick.IsStorable h.projectName
  editor : PointAndClick.IsStorable h.editor
  serial : PointAndClick.IsStorable h.serial
  projectId : PointAndClick.IsStorable h.projectId
  registry : PointAndClick.IsStorable h.registry
  width : IsWord h.width
  height : IsWord h.height
  depth : IsWord h.depth
  flag : IsWord h.flag
  reserved : IsWord h.reserved.1 ∧ IsWord h.reserved.2.1 ∧ IsWord h.reserved.2.2
  dllPath : PointAndClick.IsStorable h.dllPath
  variableCount : IsWord h.variableCount

/-- A header is read back from its written form. -/
theorem readsAt_decode {h : Header} (hh : h.IsStorable) (pos : Nat) :
    ReadsAt decode pos h.encode h := by
  unfold encode
  simp only [List.append_assoc]
  refine (readsAt_bytes hh.flags (by decide) pos).bind ?_
  refine (readsAt_textOrEmpty hh.magic _).bind ?_
  refine (readsAt_textOrEmpty hh.version _).bind ?_
  refine (readsAt_word hh.formatType _).bind ?_
  refine (readsAt_textOrEmpty hh.projectName _).bind ?_
  refine (readsAt_textOrEmpty hh.editor _).bind ?_
  refine (readsAt_textOrEmpty hh.serial _).bind ?_
  refine (readsAt_textOrEmpty hh.projectId _).bind ?_
  refine (readsAt_textOrEmpty hh.registry _).bind ?_
  refine (readsAt_word hh.width _).bind ?_
  refine (readsAt_word hh.height _).bind ?_
  refine (readsAt_word hh.depth _).bind ?_
  refine (readsAt_word hh.flag _).bind ?_
  refine (readsAt_word hh.reserved.1 _).bind ?_
  refine (readsAt_word hh.reserved.2.1 _).bind ?_
  refine (readsAt_word hh.reserved.2.2 _).bind ?_
  refine (readsAt_textOrEmpty hh.dllPath _).bind ?_
  exact (readsAt_word hh.variableCount _).map

end Header

/-! ## Variables -/

namespace Variable

/-- A variable: its name and its value. -/
def encode (v : String × Int) : List UInt8 := Encode.text v.1 ++ Encode.signed v.2

/-- Some variables in a row. -/
def encodeAll (vs : List (String × Int)) : List UInt8 := vs.flatMap encode

/-- The variable has a written form. -/
def IsStorable (v : String × Int) : Prop :=
  PointAndClick.IsStorable v.1 ∧ IsSignedWord v.2

instance (v : String × Int) : Decidable (IsStorable v) := inferInstanceAs (Decidable (_ ∧ _))

/-- Some variables in a row, the first one at a position. -/
def placed : Nat → List (String × Int) → List Variable
  | _, [] => []
  | pos, v :: vs => ⟨v.1, v.2, pos⟩ :: placed (pos + (encode v).length) vs

@[simp] theorem length_encode (v : String × Int) : (encode v).length = 8 + v.1.length := by
  rw [encode, List.length_append, Encode.length_text, Encode.length_signed]
  omega

@[simp] theorem encodeAll_cons (v : String × Int) (vs : List (String × Int)) :
    encodeAll (v :: vs) = encode v ++ encodeAll vs := rfl

@[simp] theorem length_placed (pos : Nat) (vs : List (String × Int)) :
    (placed pos vs).length = vs.length := by
  induction vs generalizing pos with
  | nil => rfl
  | cons v vs ih => rw [placed, List.length_cons, List.length_cons, ih]

theorem length_le_length_encodeAll (vs : List (String × Int)) :
    8 * vs.length ≤ (encodeAll vs).length := by
  induction vs with
  | nil => exact Nat.le_refl _
  | cons v vs ih =>
      rw [encodeAll_cons, List.length_append, length_encode, List.length_cons]
      omega

theorem at?_of_hasAt {b : Buffer} {pos : Nat} {v : String × Int} (hv : IsStorable v)
    (h : b.HasAt pos (encode v)) :
    at? b pos = some (⟨v.1, v.2, pos⟩, pos + (encode v).length) := by
  have hsize := h.le_size (by simp [encode, Encode.text, Encode.word])
  rw [length_encode] at hsize ⊢
  obtain ⟨hname, hvalue⟩ := Buffer.hasAt_append.mp h
  rw [Encode.length_text] at hvalue
  simp only [at?, hname.textAt? hv.1]
  rw [if_neg (by omega), hvalue.signedAt hv.2]
  simp only [Option.some.injEq, Prod.mk.injEq, true_and]
  omega

theorem collect_of_hasAt {b : Buffer} {vs : List (String × Int)} (hvs : ∀ v ∈ vs, IsStorable v)
    {fuel pos : Nat} (hfuel : vs.length ≤ fuel) (h : b.HasAt pos (encodeAll vs)) :
    collect b fuel vs.length pos = (placed pos vs, pos + (encodeAll vs).length) := by
  induction vs generalizing fuel pos with
  | nil => cases fuel <;> rfl
  | cons v vs ih =>
      cases fuel with
      | zero => simp at hfuel
      | succ fuel =>
          obtain ⟨hv, hrest⟩ := Buffer.hasAt_append.mp h
          have ih := ih (fun w hw => hvs w (List.mem_cons_of_mem v hw))
            (Nat.le_of_succ_le_succ hfuel) hrest
          rw [List.length_cons, collect, at?_of_hasAt (hvs v List.mem_cons_self) hv]
          simp only [ih, placed]
          rw [encodeAll_cons, List.length_append, Nat.add_assoc]

/-- A variable table is read back from its written form. -/
theorem table_of_hasAt {b : Buffer} {vs : List (String × Int)} (hvs : ∀ v ∈ vs, IsStorable v)
    {pos : Nat} (h : b.HasAt pos (encodeAll vs)) :
    table b vs.length pos = (placed pos vs, pos + (encodeAll vs).length) := by
  refine collect_of_hasAt hvs ?_ h
  have hlen := length_le_length_encodeAll vs
  -- variables that take no byte would say nothing about the size of the buffer
  by_cases hnil : vs = []
  · simp [hnil]
  · have hne : encodeAll vs ≠ [] := by
      intro hnil'
      rw [hnil', List.length_nil] at hlen
      exact hnil (List.length_eq_zero_iff.mp (by omega))
    have hsize := h.le_size hne
    omega

end Variable

end PointAndClick
