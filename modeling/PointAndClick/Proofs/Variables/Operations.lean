import PointAndClick.Play.Variables

/-!
# Operations on variables

Whatever is asked of the variables comes down to writing values under names one by one and to
taking names away. A write is seen under every form of its name and under no other name
(`find?_put`), and one without a name is refused (`operate_of_key_eq`).
-/

set_option autoImplicit false

namespace PointAndClick

namespace Variables

variable {v : Variables}

/-! ## Operations -/

/-- What can be asked of the variables. -/
inductive Operation
  | load (initial : List Variable)
  | set (name : String) (value : Int)
  | increment (name : String) (amount : Int)
  | decrement (name : String) (amount : Int)
  | delete (name : String)
  | clear
  | restore (saved : List (String × Int))

/-- The name of the variable that an operation writes. -/
def Operation.written? : Operation → Option String
  | .set name _ | .increment name _ | .decrement name _ => some name
  | .load _ | .delete _ | .clear | .restore _ => none

/-- The name of the only variable that an operation can change. -/
def Operation.named? : Operation → Option String
  | .delete name => some name
  | op => op.written?

/-- What a write leaves and gives. One that fails leaves what was. -/
def written (v : Variables) :
    Except Fault (Variables × Write) → Variables × Except Fault (Option Write)
  | .ok (v', w) => (v', .ok (some w))
  | .error e => (v, .error e)

/-- Does what is asked. -/
def operate (v : Variables) : Operation → Variables × Except Fault (Option Write)
  | .load initial => (v.load initial, .ok none)
  | .set name value => v.written (v.set name value)
  | .increment name amount => v.written (v.increment name amount)
  | .decrement name amount => v.written (v.decrement name amount)
  | .delete name => (v.delete name, .ok none)
  | .clear => ({}, .ok none)
  | .restore saved =>
      let (restored, outcome) := ofSaved (.object (saved.map fun e => (e.1, .int e.2)))
      (restored, outcome.map fun _ => none)

/-- Does what is asked, one thing after another. What fails does not keep the rest from being
done. -/
def after (v : Variables) (ops : List Operation) : Variables :=
  ops.foldl (fun v op => (v.operate op).1) v

/-! ## Entries -/

theorem lookup_cons_eq (e : String × Int) (entries : List (String × Int)) (l : String) :
    (e :: entries).lookup l = if l = e.1 then some e.2 else entries.lookup l := by
  obtain ⟨k, value⟩ := e
  by_cases hl : l = k
  · simp [hl]
  · simp [List.lookup_cons, hl, beq_false_of_ne]

/-- Another name has the value that it had. -/
theorem lookup_insert (entries : List (String × Int)) (k l : String) (value : Int) :
    (insert entries k value).lookup l = if l = k then some value else entries.lookup l := by
  fun_induction insert entries k value with
  | case1 => exact lookup_cons_eq (k, value) [] l
  | case2 old rest =>
      rw [lookup_cons_eq, lookup_cons_eq]
      by_cases hl : l = k
      · rw [if_pos hl, if_pos hl]
      · rw [if_neg hl, if_neg hl, if_neg hl]
  | case3 k' old rest hne ih =>
      rw [lookup_cons_eq, lookup_cons_eq, ih]
      by_cases hl : l = k'
      · have hlk : l ≠ k := hl ▸ hne
        rw [if_pos hl, if_neg hlk, if_pos hl]
      · rw [if_neg hl, if_neg hl]

theorem lookup_filter (entries : List (String × Int)) (k l : String) :
    (entries.filter (·.1 ≠ k)).lookup l = if l = k then none else entries.lookup l := by
  induction entries with
  | nil => simp
  | cons e entries ih =>
      by_cases he : e.1 = k
      · rw [List.filter_cons_of_neg (by simpa using he), ih, lookup_cons_eq, he]
        by_cases hl : l = k
        · rw [if_pos hl, if_pos hl]
        · rw [if_neg hl, if_neg hl, if_neg hl]
      · rw [List.filter_cons_of_pos (by simpa using he), lookup_cons_eq, lookup_cons_eq, ih]
        by_cases hl : l = e.1
        · have hlk : l ≠ k := hl ▸ he
          rw [if_pos hl, if_neg hlk, if_pos hl]
        · rw [if_neg hl, if_neg hl]

/-! ## Writes -/

theorem find?_put (v : Variables) (name other : String) (value : Int) :
    (v.put name value).find? other =
      if key name ≠ "" ∧ key other = key name then some (wrap value) else v.find? other := by
  unfold put find?
  by_cases hname : key name = ""
  · simp [hname]
  · simp [hname, lookup_insert]

/-- A write puts the value under a name, if there is one. -/
theorem set_of_key_ne {name : String} (h : key name ≠ "") (value : Int) :
    v.set name value =
      .ok (v.put name value, { key := key name, old := v.get name, new := wrap value }) := by
  simp [set, put, h]

theorem set_of_key_eq {name : String} (h : key name = "") (value : Int) :
    v.set name value = .error .emptyName := by
  simp [set, h]

theorem written_ok (v v' : Variables) (w : Write) :
    v.written (.ok (v', w)) = (v', .ok (some w)) := rfl

theorem written_error (v : Variables) (e : Fault) : v.written (.error e) = (v, .error e) := rfl

theorem written_set (v : Variables) (name : String) (value : Int) :
    (v.written (v.set name value)).1 = v.put name value := by
  by_cases h : key name = ""
  · rw [set_of_key_eq h, written_error, put, if_pos h]
  · rw [set_of_key_ne h, written_ok]

/-- Every write is one of a value under a name. -/
theorem exists_operate_eq_set {op : Operation} {name : String} (h : op.written? = some name) :
    ∃ value, v.operate op = v.written (v.set name value) := by
  cases op with
  | set _ value =>
      cases h
      exact ⟨value, rfl⟩
  | increment _ amount =>
      cases h
      exact ⟨v.get name + amount, rfl⟩
  | decrement _ amount =>
      cases h
      exact ⟨v.get name - amount, rfl⟩
  | load | delete | clear | restore => nomatch h

/-- The variables with others written one by one. -/
def putAll (v : Variables) (entries : List (String × Int)) : Variables :=
  entries.foldl (fun v e => v.put e.1 e.2) v

theorem putAll_cons (v : Variables) (e : String × Int) (entries : List (String × Int)) :
    v.putAll (e :: entries) = (v.put e.1 e.2).putAll entries := by
  rw [putAll, List.foldl_cons, putAll]

theorem operate_load (v : Variables) (initial : List Variable) :
    v.operate (.load initial) = (v.putAll (initial.map fun w => (w.name, w.value)), .ok none) := by
  rw [operate, load, putAll, List.foldl_map]

theorem putSaved_ints (v : Variables) (entries : List (String × Int)) :
    v.putSaved (entries.map fun e => (e.1, .int e.2)) = (v.putAll entries, .ok ()) := by
  induction entries generalizing v with
  | nil => rfl
  | cons e entries ih =>
      rw [List.map_cons, putSaved, putAll_cons]
      by_cases he : key e.1 = ""
      · rw [if_pos he, ih, put, if_pos he]
      · rw [if_neg he]
        exact ih (v.put e.1 e.2)

theorem ofSaved_ints (entries : List (String × Int)) :
    ofSaved (.object (entries.map fun e => (e.1, .int e.2))) = (putAll {} entries, .ok ()) :=
  putSaved_ints {} entries

theorem operate_restore (v : Variables) (saved : List (String × Int)) :
    v.operate (.restore saved) = (putAll {} saved, .ok none) := by
  rw [operate, ofSaved_ints]
  rfl

/-- An operation with a name leaves what has another. -/
theorem find?_operate_of_ne {op : Operation} {name other : String} (h : op.named? = some name)
    (hother : key other ≠ key name) : (v.operate op).1.find? other = v.find? other := by
  have hwrites : op.written? = some name → (v.operate op).1.find? other = v.find? other := by
    intro hwritten
    obtain ⟨value, hoperate⟩ := exists_operate_eq_set (v := v) hwritten
    rw [hoperate, written_set, find?_put, if_neg (fun hboth => hother hboth.2)]
  cases op with
  | delete _ =>
      cases h
      unfold find?
      exact (lookup_filter v.entries (key name) (key other)).trans (if_neg hother)
  | set | increment | decrement => exact hwrites h
  | load | clear | restore => nomatch h

theorem operate_of_key_eq {op : Operation} {name : String} (h : op.written? = some name)
    (hname : key name = "") : v.operate op = (v, .error .emptyName) := by
  obtain ⟨value, hoperate⟩ := exists_operate_eq_set (v := v) h
  rw [hoperate, set_of_key_eq hname, written_error]

end Variables

end PointAndClick
