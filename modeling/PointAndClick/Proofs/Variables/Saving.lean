import Mathlib.Data.List.Nodup
import PointAndClick.Proofs.Variables.Names
import PointAndClick.Proofs.Variables.Operations

/-!
# Saved variables are restored

Variables are saved under their kept names, and these are taken as names once more when they are
restored. A name that was cut behind a blank becomes another one then. So the variables are restored
as they were if, and only if, none of them is kept under a name that ends in a blank, and whatever
names there are, those of which this is not true are restored (`Variables.restored_readings`).
-/

set_option autoImplicit false

namespace PointAndClick

namespace Variables

variable {v : Variables}

/-! ## Sound variables -/

/-- Each variable is there once, under a kept name, with a number that is wrapped. -/
structure Sound (v : Variables) : Prop where
  distinct : (v.entries.map Prod.fst).Nodup
  kept : ∀ e ∈ v.entries, ∃ name, key name = e.1
  named : ∀ e ∈ v.entries, e.1 ≠ ""
  wrapped : ∀ e ∈ v.entries, wrap e.2 = e.2

theorem sound_empty : Sound {} := ⟨List.nodup_nil, nofun, nofun, nofun⟩

theorem wrap_wrap (n : Int) : wrap (wrap n) = wrap n := Int.bmod_bmod

theorem mem_insert {entries : List (String × Int)} {k : String} {value : Int} {e : String × Int}
    (h : e ∈ insert entries k value) : e = (k, value) ∨ e ∈ entries := by
  fun_induction insert entries k value with
  | case1 => exact Or.inl (List.mem_singleton.mp h)
  | case2 old rest =>
      rcases List.mem_cons.mp h with rfl | hrest
      · exact Or.inl rfl
      · exact Or.inr (List.mem_cons_of_mem _ hrest)
  | case3 l old rest hne ih =>
      rcases List.mem_cons.mp h with rfl | hrest
      · exact Or.inr List.mem_cons_self
      · exact (ih hrest).imp id (List.mem_cons_of_mem _)

theorem nodup_insert {entries : List (String × Int)} {k : String} {value : Int}
    (h : (entries.map Prod.fst).Nodup) : ((insert entries k value).map Prod.fst).Nodup := by
  fun_induction insert entries k value with
  | case1 => exact List.nodup_singleton k
  | case2 old rest => exact h
  | case3 l old rest hne ih =>
      obtain ⟨hfirst, hrest⟩ := List.nodup_cons.mp h
      refine List.nodup_cons.mpr ⟨?_, ih hrest⟩
      intro hl
      obtain ⟨e, he, hel⟩ := List.mem_map.mp hl
      rcases mem_insert he with rfl | hold
      · exact hne hel.symm
      · exact hfirst (List.mem_map.mpr ⟨e, hold, hel⟩)

theorem Sound.put (h : v.Sound) (name : String) (value : Int) : (v.put name value).Sound := by
  unfold Variables.put
  split
  · exact h
  · rename_i hname
    have hnew : ∀ {p : String × Int → Prop}, p (key name, wrap value) → (∀ e ∈ v.entries, p e) →
        ∀ e ∈ insert v.entries (key name) (wrap value), p e := by
      intro p hput hold e he
      rcases mem_insert he with rfl | he
      · exact hput
      · exact hold e he
    exact ⟨nodup_insert h.distinct, hnew ⟨name, rfl⟩ h.kept, hnew hname h.named,
      hnew (wrap_wrap value) h.wrapped⟩

theorem Sound.putAll (h : v.Sound) (entries : List (String × Int)) : (v.putAll entries).Sound := by
  induction entries generalizing v with
  | nil => exact h
  | cons e entries ih =>
      rw [putAll_cons]
      exact ih (h.put e.1 e.2)

theorem Sound.delete (h : v.Sound) (name : String) : (v.delete name).Sound :=
  ⟨h.distinct.sublist (List.filter_sublist.map Prod.fst),
    fun e he => h.kept e (List.mem_of_mem_filter he),
    fun e he => h.named e (List.mem_of_mem_filter he),
    fun e he => h.wrapped e (List.mem_of_mem_filter he)⟩

theorem Sound.operate (h : v.Sound) (op : Operation) : (v.operate op).1.Sound := by
  have hwrites : ∀ name, op.written? = some name → (v.operate op).1.Sound := by
    intro name hwritten
    obtain ⟨value, hoperate⟩ := exists_operate_eq_set (v := v) hwritten
    rw [hoperate, written_set]
    exact h.put name value
  cases op with
  | load initial =>
      rw [operate_load]
      exact h.putAll _
  | set name | increment name | decrement name => exact hwrites name rfl
  | delete name => exact h.delete name
  | clear => exact sound_empty
  | restore saved =>
      rw [operate_restore]
      exact sound_empty.putAll saved

theorem Sound.after (h : v.Sound) (ops : List Operation) : (v.after ops).Sound := by
  induction ops generalizing v with
  | nil => exact h
  | cons op ops ih => exact ih (h.operate op)

/-! ## What is restored -/

/-- Under a name there is the same in both. -/
def ReadsAs (w v : Variables) (name : String) : Prop :=
  w.get name = v.get name ∧ w.find? name = v.find? name ∧ w.contains name = v.contains name

theorem readsAs_of_find? {w : Variables} {name : String} (h : w.find? name = v.find? name) :
    w.ReadsAs v name := by
  refine ⟨?_, h, ?_⟩
  · unfold get
    rw [h]
  · unfold contains
    rw [h]

theorem contains_iff {name : String} :
    v.contains name = true ↔ ∃ e ∈ v.entries, e.1 = key name := by
  unfold contains find?
  rw [List.lookup_isSome_iff]
  constructor
  · rintro ⟨e, he, hkey⟩
    exact ⟨e, he, (beq_iff_eq.mp hkey).symm⟩
  · rintro ⟨e, he, hkey⟩
    exact ⟨e, he, beq_iff_eq.mpr hkey.symm⟩

/-- Nothing is put under a name that no entry has as its kept name. -/
theorem find?_putAll_of_ne {entries : List (String × Int)} {name : String}
    (h : ∀ e ∈ entries, key e.1 ≠ key name) : (v.putAll entries).find? name = v.find? name := by
  induction entries generalizing v with
  | nil => rfl
  | cons e entries ih =>
      rw [putAll_cons, ih fun e he => h e (List.mem_cons_of_mem _ he), find?_put,
        if_neg fun hboth => h e List.mem_cons_self hboth.2.symm]

/-- Entries of which a kept name names its own and no other are found under it. -/
theorem find?_putAll_of_iff {entries : List (String × Int)} {name : String}
    (hdistinct : (entries.map Prod.fst).Nodup) (hwrapped : ∀ e ∈ entries, wrap e.2 = e.2)
    (hnamed : ∀ e ∈ entries, key e.1 ≠ "")
    (hkey : ∀ e ∈ entries, key e.1 = key name ↔ e.1 = key name) :
    (v.putAll entries).find? name = (entries.lookup (key name)).or (v.find? name) := by
  induction entries generalizing v with
  | nil => rfl
  | cons e entries ih =>
      obtain ⟨hfirst, hrest⟩ := List.nodup_cons.mp hdistinct
      have hread := find?_put v e.1 name e.2
      rw [putAll_cons, lookup_cons_eq]
      by_cases he : key name = e.1
      · -- no entry behind has the same name
        have hother : ∀ d ∈ entries, key d.1 ≠ key name := by
          intro d hd hdname
          have hsame : d.1 = key name := (hkey d (List.mem_cons_of_mem e hd)).mp hdname
          exact hfirst (List.mem_map.mpr ⟨d, hd, hsame.trans he⟩)
        have hkept : key e.1 = key name := (hkey e List.mem_cons_self).mpr he.symm
        rw [find?_putAll_of_ne hother, hread,
          if_pos ⟨hnamed e List.mem_cons_self, hkept.symm⟩, hwrapped e List.mem_cons_self,
          if_pos he]
        rfl
      · have hkept : key name ≠ key e.1 :=
          fun hkept => he ((hkey e List.mem_cons_self).mp hkept.symm).symm
        rw [if_neg fun hboth => hkept hboth.2] at hread
        rw [if_neg he, ← hread]
        exact ih hrest (fun d hd => hwrapped d (List.mem_cons_of_mem e hd))
          (fun d hd => hnamed d (List.mem_cons_of_mem e hd))
          (fun d hd => hkey d (List.mem_cons_of_mem e hd))

/-- Every variable is saved as a number. -/
theorem ofSaved_save (v : Variables) : ofSaved v.save = (putAll {} v.entries, .ok ()) :=
  ofSaved_ints v.entries

theorem Sound.key_ne_empty (h : v.Sound) : ∀ e ∈ v.entries, key e.1 ≠ "" := by
  intro e he
  obtain ⟨name, hname⟩ := h.kept e he
  have hnamed : key name ≠ "" := hname ▸ h.named e he
  rw [← hname]
  exact key_key_ne_empty hnamed

/-- A kept name that ends in no blank is kept as it is. -/
theorem Sound.key_eq_self_iff (h : v.Sound) :
    ∀ e ∈ v.entries, key e.1 = e.1 ↔ ¬Text.EndsBlank e.1.toList := by
  intro e he
  obtain ⟨name, hname⟩ := h.kept e he
  rw [← hname]
  exact key_key_eq_self_iff name

/-- What is not kept under a name that ends in a blank, nor under what such a name becomes, is
restored. -/
theorem Sound.readsAs_of_forall (h : v.Sound) {name : String}
    (hname : ∀ e ∈ v.entries, Text.EndsBlank e.1.toList → key name ≠ e.1 ∧ key name ≠ key e.1) :
    ReadsAs (Variables.putAll {} v.entries) v name := by
  have hkey : ∀ e ∈ v.entries, key e.1 = key name ↔ e.1 = key name := by
    intro e he
    by_cases hends : Text.EndsBlank e.1.toList
    · obtain ⟨hne, hnot⟩ := hname e he hends
      exact ⟨fun heq => absurd heq.symm hnot, fun heq => absurd heq.symm hne⟩
    · rw [(h.key_eq_self_iff e he).mpr hends]
  apply readsAs_of_find?
  rw [find?_putAll_of_iff h.distinct h.wrapped h.key_ne_empty hkey]
  exact Option.or_none

/-- What is restored is kept under no name that ends in a blank. -/
theorem Sound.find?_of_endsBlank (h : v.Sound) {name : String}
    (hends : Text.EndsBlank (key name).toList) :
    (Variables.putAll {} v.entries).find? name = none := by
  have hother : ∀ e ∈ v.entries, key e.1 ≠ key name := by
    intro e he heq
    obtain ⟨other, hkept⟩ := h.kept e he
    rw [← heq, ← hkept] at hends
    exact not_endsBlank_key_key other hends
  exact find?_putAll_of_ne hother

/-- After whatever operations, what is saved of the variables can be restored. All of them read as
before if and only if none is kept under a name that ends in a blank. Such a name is as long as a
name may be; and every name that is neither such a name nor what such a name becomes reads as
before in any case. -/
theorem restored_readings (ops : List Operation) :
    let v := after {} ops
    ∃ restored, ofSaved v.save = (restored, .ok ()) ∧
      ((∀ name, restored.ReadsAs v name) ↔ ∀ e ∈ v.entries, ¬Text.EndsBlank e.1.toList) ∧
      (∀ e ∈ v.entries, Text.EndsBlank e.1.toList → e.1.toList.length = maxNameLength) ∧
      ∀ name, (∀ e ∈ v.entries, Text.EndsBlank e.1.toList → key name ≠ e.1 ∧ key name ≠ key e.1) →
        restored.ReadsAs v name := by
  intro v
  have hsound : v.Sound := sound_empty.after ops
  refine ⟨putAll {} v.entries, ofSaved_save v, ⟨?_, ?_⟩, ?_, fun name => hsound.readsAs_of_forall⟩
  · intro hreads e he hends
    obtain ⟨name, hname⟩ := hsound.kept e he
    have hthere : v.contains name = true := contains_iff.mpr ⟨e, he, hname.symm⟩
    rw [← hname] at hends
    rw [← (hreads name).2.2, contains, hsound.find?_of_endsBlank hends] at hthere
    nomatch hthere
  · intro hplain name
    apply hsound.readsAs_of_forall
    intro e he hends
    exact absurd hends (hplain e he)
  · intro e he hends
    obtain ⟨name, hname⟩ := hsound.kept e he
    rw [← hname] at hends ⊢
    exact length_key_of_endsBlank hends

/-- A name of 254 letters, a blank and another letter is cut behind the blank. Once restored, its
variable is no longer read under it. -/
theorem not_readsAs_cut :
    let name := String.ofList (List.replicate 254 'A' ++ [' ', 'B'])
    let v := after {} [.set name 5]
    v.get name = 5 ∧ (ofSaved v.save).2 = .ok () ∧ (ofSaved v.save).1.get name = 0 ∧
      ¬(ofSaved v.save).1.ReadsAs v name := by
  intro name v
  have hkey : (key name).toList = List.replicate 254 'A' ++ [' '] := by
    rw [toList_key, String.toList_ofList]
    decide +kernel
  have hends : Text.EndsBlank (key name).toList := by
    rw [hkey]
    refine ⟨List.append_ne_nil_of_right_ne_nil _ (by decide), ?_⟩
    rw [List.getLast_concat]
    rfl
  have hnamed : key name ≠ "" := by
    intro hempty
    rw [hempty] at hends
    exact hends.1 rfl
  have hget : v.get name = 5 := by
    have hset : after {} [.set name 5] = put {} name 5 := by
      rw [after, List.foldl_cons, List.foldl_nil, operate, written_set]
    show (after {} [.set name 5]).get name = 5
    rw [hset, get, find?_put, if_pos ⟨hnamed, rfl⟩]
    rfl
  have hrestored : (ofSaved v.save).1.get name = 0 := by
    rw [ofSaved_save, get, (sound_empty.after [.set name 5]).find?_of_endsBlank hends]
    rfl
  refine ⟨hget, ?_, hrestored, ?_⟩
  · rw [ofSaved_save]
  · intro hreads
    have hsame := hreads.1
    rw [hget, hrestored] at hsame
    cases hsame

end Variables

end PointAndClick
