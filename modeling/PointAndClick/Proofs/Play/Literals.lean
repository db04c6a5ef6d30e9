import PointAndClick.Proofs.Play.Changes
import PointAndClick.Proofs.Script.Condition
import PointAndClick.Proofs.Text.Numeral
import PointAndClick.Proofs.Variables.Saving

/-!
# Literals

A number is written in a script behind the variable that is set to it and behind the variable that
is compared with it. What is kept of the first is the number that it wraps to, while the second is
compared as it is written. So a variable that was just set to a number equals the number only if
that needs no wrapping (`Session.condition_of_setVariable`).
-/

set_option autoImplicit false

namespace PointAndClick

namespace Variables

/-- The numbers that wrapping leaves as they are. -/
theorem wrap_eq_self_iff (n : Int) : wrap n = n ↔ -0x80000000 ≤ n ∧ n < 0x80000000 := by
  constructor
  · intro h
    have hlow : -0x80000000 ≤ wrap n := Int.le_bmod (by decide)
    have hhigh : wrap n < 0x80000000 := Int.bmod_lt (by decide)
    rw [h] at hlow hhigh
    exact ⟨hlow, hhigh⟩
  · rintro ⟨hlow, hhigh⟩
    exact Int.bmod_eq_of_le hlow hhigh

theorem get_put {v : Variables} {name : String} (h : key name ≠ "") (value : Int) :
    (v.put name value).get name = wrap value := by
  rw [get, find?_put, if_pos ⟨h, rfl⟩]
  rfl

/-- A name with a character that is no blank is kept under some name. -/
theorem key_ne_empty {name : String} (h : ∃ c ∈ name.toList, Text.isBlank c = false) :
    key name ≠ "" := by
  obtain ⟨c, hc, hplain⟩ := h
  intro hempty
  have htrim : Text.trim name.toList ≠ [] := List.ne_nil_of_mem (Text.mem_trim hc hplain)
  have hupper : (Text.upper (Text.trim name.toList)).take maxNameLength = [] := by
    rw [← toList_key, hempty]
    rfl
  rcases List.take_eq_nil_iff.mp hupper with hzero | hnil
  · exact absurd hzero (by decide)
  · cases hcs : Text.trim name.toList with
    | nil => exact htrim hcs
    | cons d ds =>
        rw [hcs, Text.upper, List.flatMap_cons, List.append_eq_nil_iff] at hnil
        exact Text.upperChar_ne_nil d hnil.1

end Variables

/-! ## Payloads -/

/-- Sets a variable to a number. -/
def Instruction.assign (name : String) (n : Int) : Instruction :=
  ⟨"SET_VAR", s!"{name} {Text.decimal n}"⟩

/-- Runs one of two commands, the first if a variable equals a number. -/
def Instruction.ifEqual (name : String) (n : Int) (first second : String) : Instruction :=
  ⟨"IF", s!"{name} == {Text.decimal n} then {first} else {second}"⟩

/-- A name of letters `a` to `z` in either case and underscores. -/
def IsName (name : String) : Prop := Condition.IsRun Instruction.isVerbChar name.toList

/-- At least one character, and no blanks. -/
def IsSingleWord (text : String) : Prop := Condition.IsRun (!Text.isBlank ·) text.toList

variable {name first second word : String} {n : Int}

theorem isWordChar_of_isVerbChar {c : Char} (h : Instruction.isVerbChar c = true) :
    Text.isWordChar c = true := by
  simp only [Instruction.isVerbChar, Bool.or_eq_true, beq_iff_eq] at h
  rcases h with hletter | rfl
  · exact Condition.isWordChar_of_isAsciiLetter hletter
  · decide

theorem IsName.isRun (h : IsName name) : Condition.IsRun Text.isWordChar name.toList :=
  ⟨h.nonempty, fun c hc => isWordChar_of_isVerbChar (h.all c hc)⟩

theorem IsName.isBlank (h : IsName name) : ∀ c ∈ name.toList, Text.isBlank c = false :=
  fun c hc => Condition.isBlank_of_isWordChar (h.isRun.all c hc)

theorem IsName.key_ne_empty (h : IsName name) : Variables.key name ≠ "" := by
  obtain ⟨c, hc⟩ := List.exists_mem_of_ne_nil _ h.nonempty
  exact Variables.key_ne_empty ⟨c, hc, h.isBlank c hc⟩

theorem IsSingleWord.ne_empty (h : IsSingleWord word) : word ≠ "" := by
  rintro rfl
  exact h.nonempty rfl

theorem IsSingleWord.isBlank (h : IsSingleWord word) : ∀ c ∈ word.toList, Text.isBlank c = false :=
  fun c hc => by simpa using h.all c hc

theorem IsSingleWord.isBranch (h : IsSingleWord word) : Condition.IsBranch word.toList :=
  ⟨h.nonempty, Text.trim_eq_self h.isBlank⟩

theorem isRun_toDigits (k : Nat) : Condition.IsRun Text.isWordChar (Nat.toDigits 10 k) := by
  refine ⟨Nat.toDigits_ne_nil, fun c hc => ?_⟩
  have hcode := Text.toNat_of_isDigit (Text.isDigit_of_mem_toDigits hc)
  have hascii : c.toNat < 0x80 := by omega
  simp [Text.isWordChar, Text.isAlphanumeric, Text.isAsciiDigit, hascii, hcode]

/-- A written number is a value. -/
theorem isValue_decimal (n : Int) : Condition.IsValue (Text.decimal n).toList := by
  rw [Text.decimal, String.toList_ofList, Text.writeNumeral]
  split
  · exact .negative (isRun_toDigits _)
  · exact .word (isRun_toDigits _)

theorem parse_assign (hname : IsName name) (hn : n.natAbs < 10 ^ Text.maxDigits) :
    VariableArguments.parse (Instruction.assign name n).args = .ok { name, value := some n } := by
  have hnumeral : Text.wordsOf (Text.decimal n).toList = [(Text.decimal n).toList] := by
    rw [Text.decimal, String.toList_ofList]
    refine Text.wordsOf_eq_singleton ?_ fun c hc => Text.isBlank_of_mem_writeNumeral hc
    unfold Text.writeNumeral
    split
    · exact List.cons_ne_nil _ _
    · exact Nat.toDigits_ne_nil
  have hwords : Text.words (Instruction.assign name n).args = [name, Text.decimal n] := by
    have htext : (Instruction.assign name n).args.toList =
        name.toList ++ ' ' :: (Text.decimal n).toList := by
      simp [Instruction.assign, toString]
    have hgap : ∀ c ∈ (' ' :: (Text.decimal n).toList).head?, Text.isBlank c = true := by
      rintro c ⟨⟩
      rfl
    rw [Text.words, htext, Text.wordsOf_append hgap,
      Text.wordsOf_eq_singleton hname.nonempty hname.isBlank, Text.wordsOf_cons_of_blank rfl,
      hnumeral]
    simp
  simp only [VariableArguments.parse, hwords, Text.integer?_decimal hn]

/-- The condition that a test comes to. -/
def Condition.equality (name : String) (n : Int) (first second : String) : Condition :=
  ⟨name, "==", .eq, Text.decimal n, first, some second⟩

theorem parse_ifEqual (hname : IsName name) (hfirst : IsSingleWord first)
    (hsecond : IsSingleWord second) :
    Condition.parse (Instruction.ifEqual name n first second).args =
      .ok (Condition.equality name n first second) := by
  have hblank : Condition.IsRun Text.isBlank [' '] :=
    Condition.isRun_of_all (by decide) (by decide)
  have hwritable : (Condition.equality name n first second).IsWritable := {
    name := hname.isRun
    symbol := rfl
    value := isValue_decimal n
    thenBranch := hfirst.isBranch
    noElse := by
      show ∀ w ∈ (Text.wordsOf first.toList).tail, _
      rw [Text.wordsOf_eq_singleton hfirst.nonempty hfirst.isBlank]
      nofun
    elseBranch := by
      rintro _ ⟨⟩
      exact hsecond.isBranch }
  refine Condition.parse_of_written hwritable ?_
  have hwritten := @Condition.Written.mk (Condition.equality name n first second) [] [] [' '] [' ']
    [' '] ['t', 'h', 'e', 'n'] [' '] _ nofun .none hblank.all hblank.all hblank (by decide) hblank
    (@Condition.IsTail.other second [' '] ['e', 'l', 's', 'e'] [' '] hblank (by decide) hblank)
  simpa [Instruction.ifEqual, Condition.equality, toString] using hwritten

/-! ## Runs -/

namespace Session

/-- The variable is written also where the event of its change is refused. -/
theorem values_perform_assign (s : Session) (hname : IsName name)
    (hn : n.natAbs < 10 ^ Text.maxDigits) :
    (perform .setVariable (.assign name n) s).2.values = s.values.put name n := by
  have hset := Variables.set_of_key_ne (v := s.values) hname.key_ne_empty n
  simp only [perform, parse_assign hname hn, bind_apply, given_apply, writeVariable_apply, hset,
    emit, tell_apply]
  cases answer _ _ with
  | error e => simp only [values_told]
  | ok _ =>
      show (Session.told _ _).values = _
      rw [values_told]

/-- A condition that is true where a variable equals a number decides between its commands. -/
theorem select_equality (hn : n.natAbs < 10 ^ Text.maxDigits) (lookup : String → Int) :
    (Condition.equality name n first second).select lookup =
      some (if lookup name = n then first else second) := by
  have hvalue : Text.integer? (Text.decimal n) = some n := Text.integer?_decimal hn
  simp only [Condition.select, Condition.evaluate, Condition.equality, hvalue, Option.getD_some,
    Comparison.holds, beq_iff_eq]
  split <;> rfl

theorem perform_ifEqual (s : Session) (hname : IsName name) (hn : n.natAbs < 10 ^ Text.maxDigits)
    (hfirst : IsSingleWord first) (hsecond : IsSingleWord second) :
    perform .condition (.ifEqual name n first second) s =
      nest (if s.values.get name = n then first else second) s := by
  have hbranch : (if s.values.get name = n then first else second) ≠ "" := by
    split
    · exact hfirst.ne_empty
    · exact hsecond.ne_empty
  simp only [perform, parse_ifEqual hname hfirst hsecond, bind_apply, given_apply,
    select_equality hn]
  exact congrFun (if_neg hbranch) s

/-- A variable that was set to a number counts as equal to the same number where both are written
out if and only if the number is a signed 32-bit one. -/
theorem condition_of_setVariable (s : Session) (hname : IsName name)
    (hn : n.natAbs < 10 ^ Text.maxDigits) (hfirst : IsSingleWord first)
    (hsecond : IsSingleWord second) :
    let s' := (perform .setVariable (.assign name n) s).2
    perform .condition (.ifEqual name n first second) s' =
      nest (if -0x80000000 ≤ n ∧ n < 0x80000000 then first else second) s' := by
  intro s'
  have hget : s'.values.get name = Variables.wrap n := by
    rw [values_perform_assign s hname hn, Variables.get_put hname.key_ne_empty]
  rw [perform_ifEqual s' hname hn hfirst hsecond, hget]
  simp only [Variables.wrap_eq_self_iff]

/-- The greatest signed number is found again, in place of another one and although the event of
the change is refused. -/
theorem condition_of_setVariable_greatest :
    let s : Session := { navigation := { scenes := [] }, values := ⟨[("LAP", 3)]⟩,
                         presentation := { refusals := [("emit_event", "closed")] } }
    let s' := (perform .setVariable (.assign "lap" 0x7FFFFFFF) s).2
    perform .condition (.ifEqual "lap" 0x7FFFFFFF "next" "else") s' = nest "next" s' :=
  condition_of_setVariable _ (Condition.isRun_of_all (by decide) (by decide)) (by decide +kernel)
    (Condition.isRun_of_all (by decide) (by decide))
    (Condition.isRun_of_all (by decide) (by decide))

/-- A number that wraps to zero is not found again. -/
theorem not_forall_found_again :
    ¬∀ (s : Session) (name first second : String) (n : Int), IsName name →
      n.natAbs < 10 ^ 4000 → IsSingleWord first → IsSingleWord second → first ≠ second →
      let s' := (perform .setVariable (.assign name n) s).2
      perform .condition (.ifEqual name n first second) s' = nest first s' := by
  intro h
  let s : Session := { navigation := { scenes := [] } }
  have hsame := congrArg Prod.fst <| h s "X" "A" "B" 0x100000000
    (Condition.isRun_of_all (by decide) (by decide)) (by decide +kernel)
    (Condition.isRun_of_all (by decide) (by decide))
    (Condition.isRun_of_all (by decide) (by decide)) (by decide)
  exact absurd hsame (by decide +kernel)

end Session

end PointAndClick
