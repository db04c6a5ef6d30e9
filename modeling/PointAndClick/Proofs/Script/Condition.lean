import Mathlib.Data.Option.Basic
import PointAndClick.Proofs.Script.Branches

/-!
# Conditions that are read back

A condition may be written in several ways: with `if` before it or without, with its keywords in
any case, and with any blanks between its parts (`Condition.Written`). Whatever way is taken, the
same condition is read (`Condition.parse_written`).

An `if` that an operator follows is the variable (`readAfterIf?_eq_none`), so the name may be `if`
as well.
-/

set_option autoImplicit false

namespace PointAndClick

namespace Condition

variable {p q : Char → Bool} {c : Char} {cs ds word gap : List Char}

/-! ## Parts -/

/-- A value: a word, possibly with a minus sign before it. -/
inductive IsValue : List Char → Prop
  | word {cs : List Char} (h : IsRun Text.isWordChar cs) : IsValue cs
  | negative {cs : List Char} (h : IsRun Text.isWordChar cs) : IsValue ('-' :: cs)

theorem isWordChar_of_isSymbolChar (h : isSymbolChar c = true) : Text.isWordChar c = false := by
  cases hword : Text.isWordChar c with
  | false => rfl
  | true => simp [isSymbolChar, hword] at h

theorem isBlank_of_isSymbolChar (h : isSymbolChar c = true) : Text.isBlank c = false := by
  cases hblank : Text.isBlank c with
  | false => rfl
  | true => simp [isSymbolChar, hblank] at h

theorem isSymbolChar_of_isBlank (h : Text.isBlank c = true) : isSymbolChar c = false := by
  simp [isSymbolChar, h]

theorem isSymbolChar_of_isWordChar (h : Text.isWordChar c = true) : isSymbolChar c = false := by
  simp [isSymbolChar, h]

/-- The symbols have no other characters than those of a symbol. -/
theorem isRun_of_mem_symbols : ∀ e ∈ Comparison.symbols, IsRun isSymbolChar e.1.toList := by
  have h : ∀ e ∈ Comparison.symbols,
      e.1.toList ≠ [] ∧ e.1.toList.all isSymbolChar = true := by decide +kernel
  exact fun e he => isRun_of_all (h e he).1 (h e he).2

/-- A value begins with neither a blank nor a character of a symbol. -/
theorem IsValue.head? (h : IsValue cs) (ds : List Char) :
    ∀ d ∈ (cs ++ ds).head?, isSymbolChar d = false ∧ Text.isBlank d = false := by
  cases h with
  | word h =>
      exact fun d hd => ⟨h.head? (fun _ => isSymbolChar_of_isWordChar) ds d hd,
        h.head? (fun _ => isBlank_of_isWordChar) ds d hd⟩
  | negative h =>
      rintro d ⟨⟩
      decide

/-- Characters of a kind before others are read as they are. -/
theorem takeWhile_append_of_head? (hcs : ∀ c ∈ cs, p c = true)
    (hds : ∀ c ∈ ds.head?, p c = false) :
    (cs ++ ds).takeWhile p = cs ∧ (cs ++ ds).dropWhile p = ds := by
  rw [List.takeWhile_append_of_pos hcs, List.dropWhile_append_of_pos hcs]
  cases ds with
  | nil => simp
  | cons d ds => simp [hds d rfl]

theorem head?_append_of_blank (hgap : ∀ c ∈ gap, Text.isBlank c = true)
    (hq : ∀ c, Text.isBlank c = true → q c = false) (hcs : ∀ c ∈ cs.head?, q c = false) :
    ∀ c ∈ (gap ++ cs).head?, q c = false := by
  cases gap with
  | nil => exact hcs
  | cons d gap =>
      rintro c ⟨⟩
      exact hq d (hgap d List.mem_cons_self)

theorem readValue?_append (h : IsValue cs) (hds : ∀ c ∈ ds.head?, Text.isWordChar c = false) :
    readValue? (cs ++ ds) = some (cs, ds) := by
  cases h with
  | word h =>
      obtain ⟨htake, hdrop⟩ := takeWhile_append_of_head? h.all hds
      unfold readValue?
      split
      rename_i sign rest hmatch
      split at hmatch
      · -- no word begins with a minus sign
        rename_i heq
        cases cs with
        | nil => exact absurd rfl h.nonempty
        | cons c cs =>
            cases heq
            exact absurd (h.all '-' List.mem_cons_self) (by decide)
      · cases hmatch
        simp only [htake, hdrop, h.isEmpty]
        rfl
  | negative h =>
      obtain ⟨htake, hdrop⟩ := takeWhile_append_of_head? h.all hds
      simp only [List.cons_append, readValue?, htake, hdrop, h.isEmpty]
      rfl

/-! ## The `if` -/

/-- Behind `if` and blanks the condition is read without them. -/
theorem readAfterIf?_gap (hword : ReadsAs ['i', 'f'] word) (hgap : IsRun Text.isBlank gap)
    (hcs : Text.BeginsPlain cs) : readAfterIf? (word ++ (gap ++ cs)) = readParts? cs := by
  have hafter : afterKeyword? ['i', 'f'] (word ++ (gap ++ cs)) = some (gap ++ cs) :=
    afterKeyword?_eq_some_iff.mpr ⟨word, hword, rfl⟩
  unfold readAfterIf?
  simp only [hafter, any_head?_gap hgap, Text.dropBlanks_append hgap.all hcs, guard, if_true,
    Option.bind_eq_bind, Option.bind_some]
  rfl

theorem readParts?_eq_none (h : ∀ c ∈ cs.head?, Text.isWordChar c = false) :
    readParts? cs = none := by
  have hnone : cs.takeWhile Text.isWordChar = [] := by
    cases cs with
    | nil => rfl
    | cons c cs => simp [h c rfl]
  simp only [readParts?, hnone]
  rfl

/-- An `if` that an operator follows is a name. -/
theorem readAfterIf?_eq_none {name symbol : List Char} (hname : IsRun Text.isWordChar name)
    (hgap : ∀ c ∈ gap, Text.isBlank c = true) (hsymbol : IsRun isSymbolChar symbol) :
    readAfterIf? (name ++ (gap ++ (symbol ++ ds))) = none := by
  have hplain := hsymbol.head? (fun _ => isWordChar_of_isSymbolChar) ds
  unfold readAfterIf?
  cases hafter : afterKeyword? ['i', 'f'] (name ++ (gap ++ (symbol ++ ds))) with
  | none => rfl
  | some rest =>
      obtain ⟨word, hword, heq⟩ := afterKeyword?_eq_some_iff.mp hafter
      cases hrest : rest.head?.any Text.isBlank with
      | false => simp [hrest]
      | true =>
          -- the keyword is all of the name, so the operator stands where a name should
          have hblank : ∀ c ∈ rest.head?, Text.isWordChar c = false := by
            intro c hc
            rw [Option.mem_def.mp hc] at hrest
            exact isWordChar_of_isBlank hrest
          have hdrop := (takeWhile_append_of_head? hname.all
            (head?_append_of_blank hgap (fun _ => isWordChar_of_isBlank) hplain)).2
          rw [heq, (takeWhile_append_of_head? (hword.isRun isRun_if).all hblank).2] at hdrop
          have hstart : Text.dropBlanks rest = symbol ++ ds := by
            rw [hdrop]
            exact Text.dropBlanks_append hgap (hsymbol.head? (fun _ => isBlank_of_isSymbolChar) ds)
          simp [hstart, readParts?_eq_none hplain]

/-! ## Written forms -/

/-- The parts of a condition: its name and its value are words, its symbol is that of its relation,
and its commands have no blanks around them. -/
structure HasParts (c : Condition) : Prop where
  name : IsRun Text.isWordChar c.name.toList
  symbol : Comparison.ofSymbol? c.symbol = some c.comparison
  value : IsValue c.value.toList
  thenBranch : IsBranch c.thenBranch.toList
  elseBranch : ∀ other ∈ c.elseBranch, IsBranch other.toList

/-- A condition that can be written: the first command has no word that counts as `else`, its first
word apart. -/
structure IsWritable (c : Condition) : Prop extends HasParts c where
  noElse : ∀ w ∈ (Text.wordsOf c.thenBranch.toList).tail, ¬ReadsAs elseWord w

theorem HasParts.symbolChars {c : Condition} (hc : c.HasParts) :
    IsRun isSymbolChar c.symbol.toList := by
  obtain ⟨before, behind, heq, -⟩ := List.lookup_eq_some_iff.mp hc.symbol
  exact isRun_of_mem_symbols (c.symbol, c.comparison) (by rw [heq]; simp)

/-- What may stand before a condition: nothing, or `if`. -/
inductive IsLead : List Char → Prop
  | none : IsLead []
  | keyword {word gap : List Char} (hword : Spells ['i', 'f'] word)
      (hgap : IsRun Text.isBlank gap) : IsLead (word ++ gap)

/-- What stands behind the first command: nothing, or `else` and the second command. -/
inductive IsTail : Option String → List Char → Prop
  | none : IsTail none []
  | other {branch : String} {gap word gap' : List Char} (hgap : IsRun Text.isBlank gap)
      (hword : Spells elseWord word) (hgap' : IsRun Text.isBlank gap') :
      IsTail (some branch) (gap ++ (word ++ (gap' ++ branch.toList)))

/-- The written forms of a condition. Keywords have blanks around them; between the other parts
there may be some. -/
inductive Written (c : Condition) : List Char → Prop
  | mk {before lead gap₁ gap₂ gap₃ word gap₄ tail : List Char}
      (hbefore : ∀ d ∈ before, Text.isBlank d = true) (hlead : IsLead lead)
      (hgap₁ : ∀ d ∈ gap₁, Text.isBlank d = true) (hgap₂ : ∀ d ∈ gap₂, Text.isBlank d = true)
      (hgap₃ : IsRun Text.isBlank gap₃) (hword : Spells ['t', 'h', 'e', 'n'] word)
      (hgap₄ : IsRun Text.isBlank gap₄) (htail : IsTail c.elseBranch tail) :
      Written c (before ++ (lead ++ (c.name.toList ++ (gap₁ ++ (c.symbol.toList ++ (gap₂ ++
        (c.value.toList ++ (gap₃ ++ (word ++ (gap₄ ++ (c.thenBranch.toList ++ tail)))))))))))

theorem IsTail.head? {other : Option String} {tail : List Char} (h : IsTail other tail) :
    ∀ d ∈ tail.head?, Text.isBlank d = true := by
  cases h with
  | none => nofun
  | other hgap hword hgap' =>
      intro d hd
      rw [List.head?_append_of_ne_nil _ hgap.nonempty] at hd
      exact hgap.all d (List.mem_of_mem_head? hd)

/-- The first command ends where the tail begins. -/
theorem splitBranches_tail {c : Condition} (hc : c.IsWritable) {tail : List Char}
    (htail : IsTail c.elseBranch tail) :
    splitBranches (c.thenBranch.toList ++ tail) =
      (c.thenBranch.toList, c.elseBranch.map String.toList) := by
  rw [splitBranches_append htail.head? hc.thenBranch hc.noElse]
  have hother := hc.elseBranch
  generalize c.elseBranch = other at *
  cases htail with
  | none => simp [elseBranch?, splitBranches]
  | other hgap hword hgap' =>
      rw [elseBranch?_gap hgap (.of_spells hword) hgap' (hother _ rfl)]
      rfl

theorem readParts?_written {c : Condition} (hc : c.IsWritable)
    {gap₁ gap₂ gap₃ word gap₄ tail : List Char} (hgap₁ : ∀ d ∈ gap₁, Text.isBlank d = true)
    (hgap₂ : ∀ d ∈ gap₂, Text.isBlank d = true) (hgap₃ : IsRun Text.isBlank gap₃)
    (hword : ReadsAs ['t', 'h', 'e', 'n'] word) (hgap₄ : IsRun Text.isBlank gap₄)
    (htail : IsTail c.elseBranch tail) :
    readParts? (c.name.toList ++ (gap₁ ++ (c.symbol.toList ++ (gap₂ ++ (c.value.toList ++
      (gap₃ ++ (word ++ (gap₄ ++ (c.thenBranch.toList ++ tail))))))))) =
        some (c.name.toList, c.symbol.toList, c.value.toList, c.thenBranch.toList,
          c.elseBranch.map String.toList) := by
  have hsymbol := hc.symbolChars
  have hthen : IsRun Text.isWordChar word := hword.isRun isRun_then
  -- each part is read as it is, whatever stands behind the next one
  have hname (more : List Char) := takeWhile_append_of_head? hc.name.all <|
    head?_append_of_blank hgap₁ (fun _ => isWordChar_of_isBlank) <|
      hsymbol.head? (fun _ => isWordChar_of_isSymbolChar) more
  have hsymbolStart (more : List Char) := Text.dropBlanks_append hgap₁ <|
    hsymbol.head? (fun _ => isBlank_of_isSymbolChar) more
  have hsymbolEnd (more : List Char) := takeWhile_append_of_head? hsymbol.all <|
    head?_append_of_blank hgap₂ (fun _ => isSymbolChar_of_isBlank) fun d hd =>
      (hc.value.head? more d hd).1
  have hvalueStart (more : List Char) := Text.dropBlanks_append hgap₂ fun d hd =>
    (hc.value.head? more d hd).2
  have hvalue (more : List Char) := readValue?_append hc.value <|
    hgap₃.head? (fun _ => isWordChar_of_isBlank) more
  have hthenStart (more : List Char) := Text.dropBlanks_append hgap₃.all <|
    hthen.head? (fun _ => isBlank_of_isWordChar) more
  have hthenEnd (more : List Char) :
      afterKeyword? ['t', 'h', 'e', 'n'] (word ++ more) = some more :=
    afterKeyword?_eq_some_iff.mpr ⟨word, hword, rfl⟩
  have hbranch := branchStart?_gap hgap₄ hc.thenBranch tail
  unfold readParts?
  simp only [(hname _).1, (hname _).2, hsymbolStart, (hsymbolEnd _).1, (hsymbolEnd _).2,
    hvalueStart, hvalue, any_head?_gap hgap₃, hthenStart, hthenEnd, hbranch,
    splitBranches_tail hc htail, hc.thenBranch.trimmed, hc.name.isEmpty, hsymbol.isEmpty,
    Bool.not_false, guard, if_true, pure_bind, Option.bind_eq_bind, Option.bind_some]
  rfl

/-- The parts of a condition that can be written are read as they are. -/
theorem parse_of_readParts? {c : Condition} (hc : c.IsWritable) {text : String}
    (h : (readAfterIf? (Text.dropBlanks text.toList) <|> readParts? (Text.dropBlanks text.toList)) =
      some (c.name.toList, c.symbol.toList, c.value.toList, c.thenBranch.toList,
        c.elseBranch.map String.toList)) : parse text = .ok c := by
  have hother : (c.elseBranch.map String.toList).map String.ofList = c.elseBranch := by
    cases c.elseBranch <;> simp
  unfold parse
  dsimp only
  rw [h]
  simp only [String.ofList_toList, hc.symbol, hother]

theorem parse_of_written {c : Condition} (hc : c.IsWritable) {text : String}
    (h : c.Written text.toList) : parse text = .ok c := by
  refine parse_of_readParts? hc ?_
  generalize text.toList = cs at h
  obtain ⟨hbefore, hlead, hgap₁, hgap₂, hgap₃, hword, hgap₄, htail⟩ := h
  have hparts := readParts?_written hc hgap₁ hgap₂ hgap₃ (.of_spells hword) hgap₄ htail
  have hplain (more : List Char) : Text.BeginsPlain (c.name.toList ++ more) :=
    hc.name.head? (fun _ => isBlank_of_isWordChar) more
  cases hlead with
  | none =>
      rw [List.nil_append, Text.dropBlanks_append hbefore (hplain _),
        readAfterIf?_eq_none hc.name hgap₁ hc.symbolChars, hparts]
      rfl
  | @keyword keyword gap hif hgap =>
      have hif : ReadsAs ['i', 'f'] keyword := .of_spells hif
      have hstart (more : List Char) : Text.BeginsPlain (keyword ++ more) :=
        (hif.isRun isRun_if).head? (fun _ => isBlank_of_isWordChar) more
      rw [List.append_assoc, Text.dropBlanks_append hbefore (hstart _),
        readAfterIf?_gap hif hgap (hplain _), hparts]
      rfl

/-- A condition whose first command has characters of one byte each, and no word that is `else` in
whatever case, its first word apart. -/
structure IsPlain (c : Condition) : Prop extends HasParts c where
  latin : ∀ d ∈ c.thenBranch.toList, d.toNat < 0x100
  noElse : ∀ w ∈ (Text.wordsOf c.thenBranch.toList).tail, ¬Spells elseWord w

theorem IsPlain.isWritable {c : Condition} (hc : c.IsPlain) : c.IsWritable where
  toHasParts := hc.toHasParts
  noElse := by
    intro w hw h
    have hlatin : ∀ d ∈ w, d.toNat < 0x100 := fun d hd =>
      hc.latin d (Text.mem_of_mem_wordsOf (List.mem_of_mem_tail hw) hd).1
    exact hc.noElse w hw (h.spells isRun_else hlatin)

/-- However a condition is written, it is read back. -/
theorem parse_written {c : Condition} (hc : c.IsPlain) {text : String}
    (h : c.Written text.toList) : parse text = .ok c :=
  parse_of_written hc.isWritable h

/-- The name may be `if`, the value `then`, and the first command may begin with `else`. -/
theorem parse_written_keywords :
    parse "IF  if<> -then\tThEN else x eLSE else else" =
      .ok ⟨"if", "<>", .ne, "-then", "else x", some "else else"⟩ := by
  have hblank : IsRun Text.isBlank [' '] := isRun_of_all (by decide) (by decide)
  have hlatin : ("else x".toList.all fun d => d.toNat < 0x100) = true := by decide
  have hc : IsPlain ⟨"if", "<>", .ne, "-then", "else x", some "else else"⟩ := {
    name := isRun_of_all (by decide) (by decide)
    symbol := by decide
    value := @IsValue.negative ['t', 'h', 'e', 'n'] (isRun_of_all (by decide) (by decide))
    thenBranch := ⟨by decide, by decide +kernel⟩
    latin := by simpa only [List.all_eq_true, decide_eq_true_eq] using hlatin
    noElse := by decide +kernel
    elseBranch := by
      rintro _ ⟨⟩
      exact ⟨by decide, by decide +kernel⟩ }
  have hlead : IsLead ['I', 'F', ' ', ' '] :=
    @IsLead.keyword ['I', 'F'] [' ', ' '] (by decide) (isRun_of_all (by decide) (by decide))
  have htail : IsTail (some "else else") (" eLSE else else".toList) :=
    @IsTail.other "else else" [' '] ['e', 'L', 'S', 'E'] [' '] hblank (by decide) hblank
  exact parse_written hc <| @Written.mk _ [] ['I', 'F', ' ', ' '] [] [' '] ['\t']
    ['T', 'h', 'E', 'N'] [' '] _ nofun hlead nofun hblank.all
    (isRun_of_all (by decide) (by decide)) (by decide) hblank htail

end Condition

end PointAndClick
