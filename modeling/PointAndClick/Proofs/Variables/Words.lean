import Mathlib.Logic.Function.Basic
import PointAndClick.Proofs.Variables.Operations

/-!
# Variables as words

The reference is a map from names to 32-bit words, on which numbers are added and subtracted as
words (`Words`). The variables read as the words do, signed, after whatever operations
(`Variables.refines_words`). What is told of an operation is the change it makes to what is read,
and nothing else is.
-/

set_option autoImplicit false

namespace PointAndClick

/-- A map from kept names to the words that are there. -/
abbrev Words := String → Option (BitVec 32)

namespace Words

/-- The word of a name, zero if none is there. -/
def read (m : Words) (k : String) : BitVec 32 := (m k).getD 0

/-- The words with one put in its place, unless its name is empty. -/
def write (m : Words) (k : String) (w : BitVec 32) : Words :=
  if k = "" then m else Function.update m k (some w)

/-- The words with numbers put in their places. -/
def writeAll (m : Words) (entries : List (String × Int)) : Words :=
  entries.foldl (fun m e => m.write (Variables.key e.1) (BitVec.ofInt 32 e.2)) m

theorem writeAll_cons (m : Words) (e : String × Int) (entries : List (String × Int)) :
    m.writeAll (e :: entries) =
      (m.write (Variables.key e.1) (BitVec.ofInt 32 e.2)).writeAll entries := by
  rw [writeAll, List.foldl_cons, writeAll]

/-- Does to words what is asked of variables. -/
def operate (m : Words) : Variables.Operation → Words
  | .load initial => m.writeAll (initial.map fun w => (w.name, w.value))
  | .set name value => m.write (Variables.key name) (BitVec.ofInt 32 value)
  | .increment name amount =>
      m.write (Variables.key name) (m.read (Variables.key name) + BitVec.ofInt 32 amount)
  | .decrement name amount =>
      m.write (Variables.key name) (m.read (Variables.key name) - BitVec.ofInt 32 amount)
  | .delete name => Function.update m (Variables.key name) none
  | .clear => fun _ => none
  | .restore saved => writeAll (fun _ => none) saved

/-- The words after some operations, with none before. -/
def after (ops : List Variables.Operation) : Words :=
  ops.foldl operate fun _ => none

end Words

namespace Variables

variable {v : Variables} {m : Words}

/-! ## The variables as words -/

/-- The variables that are there are the words that are there, signed. -/
def Reads (v : Variables) (m : Words) : Prop :=
  ∀ name, v.find? name = (m (key name)).map BitVec.toInt

theorem toInt_ofInt_eq_wrap (n : Int) : (BitVec.ofInt 32 n).toInt = wrap n :=
  BitVec.toInt_ofInt n

theorem Reads.get (h : v.Reads m) (name : String) : v.get name = (m.read (key name)).toInt := by
  unfold Variables.get Words.read
  rw [h name]
  cases m (key name) <;> rfl

theorem Reads.ofInt_get (h : v.Reads m) (name : String) :
    BitVec.ofInt 32 (v.get name) = m.read (key name) := by
  rw [h.get, BitVec.ofInt_toInt]

/-- Numbers are added as words. -/
theorem Reads.ofInt_get_add (h : v.Reads m) (name : String) (amount : Int) :
    BitVec.ofInt 32 (v.get name + amount) = m.read (key name) + BitVec.ofInt 32 amount := by
  rw [BitVec.ofInt_add, h.ofInt_get]

/-- Numbers are subtracted as words. -/
theorem Reads.ofInt_get_sub (h : v.Reads m) (name : String) (amount : Int) :
    BitVec.ofInt 32 (v.get name - amount) = m.read (key name) - BitVec.ofInt 32 amount := by
  calc BitVec.ofInt 32 (v.get name - amount)
      = BitVec.ofInt 32 (v.get name + -amount) := by rw [Int.sub_eq_add_neg]
    _ = m.read (key name) + -BitVec.ofInt 32 amount := by
        rw [h.ofInt_get_add, BitVec.ofInt_neg]
    _ = m.read (key name) - BitVec.ofInt 32 amount := by rw [BitVec.sub_eq_add_neg]

theorem Reads.put (h : v.Reads m) (name : String) (value : Int) :
    (v.put name value).Reads (m.write (key name) (BitVec.ofInt 32 value)) := by
  intro other
  rw [find?_put, Words.write]
  by_cases hname : key name = ""
  · rw [if_pos hname, if_neg (fun hboth => hboth.1 hname)]
    exact h other
  · rw [if_neg hname]
    by_cases hother : key other = key name
    · rw [if_pos ⟨hname, hother⟩, hother, Function.update_self, Option.map_some,
        toInt_ofInt_eq_wrap]
    · rw [if_neg (fun hboth => hother hboth.2), Function.update_of_ne hother]
      exact h other

theorem Reads.putAll (h : v.Reads m) (entries : List (String × Int)) :
    (v.putAll entries).Reads (m.writeAll entries) := by
  induction entries generalizing v m with
  | nil => exact h
  | cons e entries ih =>
      rw [putAll_cons, Words.writeAll_cons]
      exact ih (h.put e.1 e.2)

theorem Reads.delete (h : v.Reads m) (name : String) :
    (v.delete name).Reads (Function.update m (key name) none) := by
  intro other
  unfold find? Variables.delete
  rw [lookup_filter]
  by_cases hother : key other = key name
  · rw [if_pos hother, hother, Function.update_self, Option.map_none]
  · rw [if_neg hother, Function.update_of_ne hother]
    exact h other

theorem reads_empty : Reads {} fun _ => none := fun _ => rfl

/-- What is done to the variables is done to the words. -/
theorem Reads.operate (h : v.Reads m) (op : Operation) :
    (v.operate op).1.Reads (m.operate op) := by
  cases op with
  | load initial =>
      rw [operate_load]
      exact h.putAll _
  | set name value =>
      show (v.written (v.set name value)).1.Reads _
      rw [written_set]
      exact h.put name value
  | increment name amount =>
      show (v.written (v.set name (v.get name + amount))).1.Reads
        (m.write (key name) (m.read (key name) + BitVec.ofInt 32 amount))
      rw [written_set, ← h.ofInt_get_add]
      exact h.put name _
  | decrement name amount =>
      show (v.written (v.set name (v.get name - amount))).1.Reads
        (m.write (key name) (m.read (key name) - BitVec.ofInt 32 amount))
      rw [written_set, ← h.ofInt_get_sub]
      exact h.put name _
  | delete name => exact h.delete name
  | clear => exact reads_empty
  | restore saved =>
      rw [operate_restore]
      exact reads_empty.putAll saved

theorem Reads.after (h : v.Reads m) (ops : List Operation) :
    (v.after ops).Reads (ops.foldl Words.operate m) := by
  induction ops generalizing v m with
  | nil => exact h
  | cons op ops ih => exact ih (h.operate op)

/-! ## What is told -/

/-- What is told of an operation: its write, if that changed the value that is read. -/
def told (v : Variables) (op : Operation) : List Write :=
  match (v.operate op).2 with
  | .ok w => w.toList.filter Write.isChange
  | .error _ => []

/-- A write is told of with the value read before and the one read after it. -/
theorem told_of_written {op : Operation} {name : String} (h : op.written? = some name) :
    v.told op =
      if (v.operate op).1.get name = v.get name then []
      else [{ key := key name, old := v.get name, new := (v.operate op).1.get name }] := by
  obtain ⟨value, hoperate⟩ := exists_operate_eq_set (v := v) h
  by_cases hname : key name = ""
  · unfold told
    rw [operate_of_key_eq h hname]
    exact (if_pos rfl).symm
  · have hget : (v.operate op).1.get name = wrap value := by
      rw [hoperate, written_set, Variables.get, find?_put, if_pos ⟨hname, rfl⟩]
      rfl
    have hanswer : (v.operate op).2 =
        .ok (some { key := key name, old := v.get name, new := (v.operate op).1.get name }) := by
      rw [hget, hoperate, set_of_key_ne hname, written_ok]
    unfold told
    rw [hanswer]
    by_cases hsame : (v.operate op).1.get name = v.get name
    · simp [hsame, Write.isChange]
    · simp [hsame, Write.isChange, Ne.symm hsame]

theorem told_of_not_written {op : Operation} (h : op.written? = none) : v.told op = [] := by
  cases op with
  | load | delete | clear => rfl
  | restore saved =>
      rw [told, operate_restore]
      rfl
  | set | increment | decrement => nomatch h

/-- After whatever operations the variables read as the words do after the same operations, under
every name. What is asked then with a name leaves what has another; a write without a name is
refused and changes nothing; and told is of a write that changes the value that is read, once, with
its kept name and the values before and after it, and of nothing else. -/
theorem refines_words (ops : List Operation) :
    let v := after {} ops
    let m := Words.after ops
    (∀ name, v.get name = (m.read (key name)).toInt) ∧
      (∀ name, v.find? name = (m (key name)).map BitVec.toInt) ∧
      ∀ op : Operation,
        (∀ name other, op.named? = some name → key other ≠ key name →
          (v.operate op).1.find? other = v.find? other) ∧
        (∀ name, op.written? = some name → key name = "" →
          v.operate op = (v, .error .emptyName)) ∧
        (∀ name, op.written? = some name →
          v.told op =
            if (v.operate op).1.get name = v.get name then []
            else [{ key := key name, old := v.get name, new := (v.operate op).1.get name }]) ∧
        (op.written? = none → v.told op = []) := by
  intro v m
  have hreads : v.Reads m := reads_empty.after ops
  refine ⟨hreads.get, hreads, ?_⟩
  intro op
  refine ⟨?_, ?_, ?_, told_of_not_written⟩
  · intro name other
    exact find?_operate_of_ne
  · intro name
    exact operate_of_key_eq
  · intro name
    exact told_of_written

/-- A variable is counted past the greatest number, under several forms of its name, and another is
taken away. Then a write of zero where nothing is changes nothing that is read. -/
theorem refines_words_wrapped :
    let ops : List Operation := [.set " lamp " 0x7FFFFFFF, .increment "LAMP" 1, .set "key" 4,
      .delete "Key ", .set " " 1]
    let v := after {} ops
    v.get "Lamp" = -0x80000000 ∧ v.find? "key" = none ∧
      v.operate (.set " " 1) = (v, .error .emptyName) ∧
      v.told (.decrement "lamp" 1) = [{ key := "LAMP", old := -0x80000000, new := 0x7FFFFFFF }] ∧
      v.told (.set "key" 0) = [] ∧
      (v.operate (.set "key" 0)).1.find? "lamp" = v.find? "lamp" := by
  intro ops v
  obtain ⟨hget, hfind, hops⟩ := refines_words ops
  have hlamp : v.get "Lamp" = -0x80000000 := by
    rw [hget]
    decide +kernel
  have hkey : v.find? "key" = none := by
    rw [hfind]
    decide +kernel
  have htold : v.told (.decrement "lamp" 1) =
      [{ key := "LAMP", old := -0x80000000, new := 0x7FFFFFFF }] := by
    rw [(hops (.decrement "lamp" 1)).2.2.1 "lamp" rfl]
    decide +kernel
  have hsilent : v.told (.set "key" 0) = [] := by
    rw [(hops (.set "key" 0)).2.2.1 "key" rfl]
    decide +kernel
  exact ⟨hlamp, hkey, (hops (.set " " 1)).2.1 " " rfl (by decide +kernel), htold, hsilent,
    (hops (.set "key" 0)).1 "key" "lamp" rfl (by decide +kernel)⟩

end Variables

end PointAndClick
