import PointAndClick.Proofs.Boundary.Search

/-!
# When a search for boundaries fails

A search fails if bytes cannot stand for the text of the empty scene or of a known scene, or if
music is lost: from some marker on, the search for the music text gets to the end of the file, or
to the length of a text that bytes cannot stand for, before it gets to the text
(`candidates_eq_error_iff`).
-/

set_option autoImplicit false

namespace PointAndClick.Boundary

variable {b : Buffer} {p : BoundaryProfile} {start pos count : Nat} {text : String}
  {cs : List Candidate}

/-! ## Texts -/

/-- A text stands at a position: a word with its length, then one byte for each character. -/
structure TextAt (b : Buffer) (pos : Nat) (text : String) : Prop where
  inside : pos + 4 + text.length ≤ b.size
  length : b.wordAt pos = text.length
  chars : (b.slice (pos + 4) text.length).map Buffer.charOf = text.toList

theorem hasText_iff : hasText b pos text.toList = true ↔ TextAt b pos text := by
  simp only [hasText, String.length_toList, Bool.and_eq_true, decide_eq_true_eq]
  exact ⟨fun h => ⟨h.1.1, h.1.2, h.2⟩, fun h => ⟨⟨h.inside, h.length⟩, h.chars⟩⟩

/-- A text that is searched for: the fewest zeros before it, and what it is the boundary of. -/
structure Entry where
  text : String
  minZeros : Int
  kind : BoundaryKind

/-- The texts that are searched for, in their order. -/
def entries (p : BoundaryProfile) : List Entry :=
  ⟨p.emptyText, p.emptyMinZeros, .empty⟩ :: p.namedScenes.map fun e => ⟨e.1, e.2, .named⟩

/-! ## Searches in steps -/

section Searches

variable {α β ε : Type} {f : α → β → Except ε α} {xs : List β} {a a' : α}

theorem not_exists_ok_eq_error (a : α) : ¬∃ e, (.ok a : Except ε α) = .error e := by
  rintro ⟨_, ⟨⟩⟩

/-- Steps that fail whatever was found before them make a search fail where one of them does. -/
theorem foldlM_eq_error_iff {fails : β → Prop}
    (hstep : ∀ x ∈ xs, ∀ a, (∃ e, f a x = .error e) ↔ fails x) :
    (∃ e, xs.foldlM f a = .error e) ↔ ∃ x ∈ xs, fails x := by
  induction xs generalizing a with
  | nil =>
      simp only [List.foldlM_nil, List.not_mem_nil, false_and, exists_false, iff_false]
      exact not_exists_ok_eq_error a
  | cons x xs ih =>
      obtain ⟨hfirst, hrest⟩ := List.forall_mem_cons.mp hstep
      simp only [List.foldlM_cons, List.mem_cons, exists_eq_or_imp]
      rw [← hfirst a]
      cases hx : f a x with
      | error e => exact iff_of_true ⟨e, rfl⟩ (.inl ⟨e, rfl⟩)
      | ok a' => exact (ih hrest).trans (or_iff_right (not_exists_ok_eq_error a')).symm

theorem foldlM_eq_ok_foldl {g : α → β → α} (hstep : ∀ x ∈ xs, ∀ a, f a x = .ok (g a x)) :
    xs.foldlM f a = .ok (xs.foldl g a) := by
  induction xs generalizing a with
  | nil => rfl
  | cons x xs ih =>
      obtain ⟨hfirst, hrest⟩ := List.forall_mem_cons.mp hstep
      rw [List.foldlM_cons, hfirst, List.foldl_cons]
      exact ih hrest

/-- What each step of a search keeps holds at its end, if it gets there. -/
theorem holds_of_foldlM_eq_ok {holds : α → Prop}
    (hstep : ∀ x ∈ xs, ∀ a a', holds a → f a x = .ok a' → holds a') (h : holds a)
    (hok : xs.foldlM f a = .ok a') : holds a' := by
  induction xs generalizing a with
  | nil =>
      cases hok
      exact h
  | cons x xs ih =>
      obtain ⟨hfirst, hrest⟩ := List.forall_mem_cons.mp hstep
      rw [List.foldlM_cons] at hok
      cases hx : f a x with
      | error e => rw [hx] at hok; nomatch hok
      | ok a'' =>
          rw [hx] at hok
          exact ih hrest (hfirst _ _ h hx) hok

end Searches

/-! ## Music -/

/-- A search for the music text fails at a position: it is behind the last word of the file, or the
length of the text stands there and bytes cannot stand for the text. -/
def StopsAt (b : Buffer) (p : BoundaryProfile) (pos : Nat) : Prop :=
  b.size < pos + 4 ∨ HasWord b pos p.musicText.length ∧ isWritable p.musicText = false

/-- A search for the music text fails at one of `count` positions from `pos` on, and the text stands
at none before that. -/
def SearchFails (b : Buffer) (p : BoundaryProfile) (count pos : Nat) : Prop :=
  ∃ q, pos ≤ q ∧ q < pos + count ∧ StopsAt b p q ∧ ∀ r, pos ≤ r → r < q → ¬TextAt b r p.musicText

theorem searchFails_succ_iff :
    SearchFails b p (count + 1) pos ↔
      StopsAt b p pos ∨ ¬TextAt b pos p.musicText ∧ SearchFails b p count (pos + 1) := by
  constructor
  · rintro ⟨q, hfrom, hto, hstops, hbefore⟩
    by_cases hq : pos = q
    · exact .inl (hq ▸ hstops)
    · refine .inr ⟨hbefore pos (Nat.le_refl _) (by omega), q, by omega, by omega, hstops, ?_⟩
      exact fun r hr => hbefore r (by omega)
  · rintro (hstops | ⟨htext, q, hfrom, hto, hstops, hbefore⟩)
    · exact ⟨pos, Nat.le_refl _, by omega, hstops, fun r hfrom hto => by omega⟩
    · refine ⟨q, by omega, by omega, hstops, fun r hr hrq => ?_⟩
      by_cases hpos : pos = r
      · exact hpos ▸ htext
      · exact hbefore r (by omega) hrq

/-- Before the text is looked for at a position, the position is. -/
theorem searchMusic_of_stopsAt (h : StopsAt b p pos) :
    ∃ e, searchMusic b p (count + 1) pos = .error e := by
  unfold searchMusic
  by_cases hinside : b.size < pos + 4
  · exact ⟨_, if_pos hinside⟩
  · obtain ⟨hword, hunwritable⟩ := h.resolve_left hinside
    have hlength : b.wordAt pos = p.musicText.length := Int.ofNat_inj.mp hword.eq
    exact ⟨_, by rw [if_neg hinside, if_pos (by simp [hlength, hunwritable])]⟩

theorem searchMusic_of_not_stopsAt (h : ¬StopsAt b p pos) :
    searchMusic b p (count + 1) pos =
      if hasText b pos p.musicText.toList then .ok true else searchMusic b p count (pos + 1) := by
  have hinside : ¬b.size < pos + 4 := fun houtside => h (.inl houtside)
  have hwritable : ¬(b.wordAt pos = p.musicText.length && !isWritable p.musicText) = true := by
    simp only [Bool.and_eq_true, decide_eq_true_eq, Bool.not_eq_true']
    rintro ⟨hlength, hunwritable⟩
    exact h (.inr ⟨⟨by omega, by rw [hlength]⟩, hunwritable⟩)
  rw [searchMusic, if_neg hinside, if_neg hwritable]

theorem searchMusic_eq_error_iff :
    (∃ e, searchMusic b p count pos = .error e) ↔ SearchFails b p count pos := by
  induction count generalizing pos with
  | zero =>
      refine iff_of_false (not_exists_ok_eq_error false) ?_
      rintro ⟨q, hfrom, hto, -⟩
      omega
  | succ count ih =>
      rw [searchFails_succ_iff, ← ih]
      by_cases hstops : StopsAt b p pos
      · exact iff_of_true (searchMusic_of_stopsAt hstops) (.inl hstops)
      · rw [searchMusic_of_not_stopsAt hstops, or_iff_right hstops, ← hasText_iff]
        split
        · rename_i htext
          exact iff_of_false (not_exists_ok_eq_error true) fun h => h.1 htext
        · rename_i htext
          exact (and_iff_right htext).symm

/-- A marker of music stands at a position, and the search for the music text from there on fails
before it gets to the text. -/
def LosesMusic (b : Buffer) (p : BoundaryProfile) (pos : Nat) : Prop :=
  HasWord b pos p.musicMarker ∧ SearchFails b p p.musicWindow.toNat pos

theorem isMusic_eq_error_iff (hinside : pos + 4 ≤ b.size) :
    (∃ e, isMusic b p pos = .error e) ↔ LosesMusic b p pos := by
  unfold isMusic LosesMusic
  split
  · rename_i hmarker
    rw [searchMusic_eq_error_iff, and_iff_right ⟨hinside, hmarker⟩]
  · rename_i hmarker
    exact iff_of_false (not_exists_ok_eq_error false) fun h => hmarker h.1.eq

/-- What was found before makes no difference to whether a step fails. -/
theorem addMusicAt_eq_error_iff (hinside : pos + 4 ≤ b.size) :
    (∃ e, addMusicAt b p cs pos = .error e) ↔ LosesMusic b p pos := by
  rw [← isMusic_eq_error_iff hinside]
  unfold addMusicAt
  cases isMusic b p pos with
  | error e => exact iff_of_true ⟨e, rfl⟩ ⟨e, rfl⟩
  | ok isThere =>
      refine iff_of_false ?_ (not_exists_ok_eq_error isThere)
      simp only [bind, Except.bind]
      split <;> exact not_exists_ok_eq_error _

theorem addMusic_eq_error_iff (b : Buffer) (p : BoundaryProfile) (start : Nat)
    (cs : List Candidate) :
    (∃ e, addMusic b p start cs = .error e) ↔
      ∃ pos, start ≤ pos ∧ pos + 100 < b.size ∧ LosesMusic b p pos := by
  have hstep : ∀ pos ∈ positions start (b.size - 100), ∀ cs,
      (∃ e, addMusicAt b p cs pos = .error e) ↔ LosesMusic b p pos := fun pos hpos cs => by
    have hinside := mem_positions_iff.mp hpos
    exact addMusicAt_eq_error_iff (by omega)
  rw [addMusic, foldlM_eq_error_iff hstep]
  refine exists_congr fun pos => ?_
  rw [← and_assoc, mem_positions_iff, Nat.lt_sub_iff_add_lt]

/-! ## All of them -/

/-- A search fails: bytes cannot stand for one of the texts, or music is lost at one of the
positions that are searched for it. -/
def Fails (b : Buffer) (p : BoundaryProfile) (start : Nat) : Prop :=
  (∃ e ∈ entries p, isWritable e.text = false) ∨
    ∃ pos, start ≤ pos ∧ pos + 100 < b.size ∧ LosesMusic b p pos

/-- The places of one of the texts are added. -/
def addEntry (b : Buffer) (start : Nat) (cs : List Candidate) (e : Entry) :
    Except SearchFault (List Candidate) :=
  addTexts b start e.text e.minZeros e.kind cs

theorem addEntry_eq_error_iff {e : Entry} :
    (∃ fault, addEntry b start cs e = .error fault) ↔ isWritable e.text = false := by
  unfold addEntry addTexts
  cases hwritable : isWritable e.text with
  | true => exact iff_of_false (not_exists_ok_eq_error _) nofun
  | false => exact iff_of_true ⟨_, rfl⟩ rfl

/-- The delimiters that are found, in one list. -/
def delimiterList (b : Buffer) (p : BoundaryProfile) (start : Nat) : List Candidate :=
  (delimiters b p b.size start).foldl (fun cs c => put c cs) []

theorem found_eq : found b p start =
    addMusic b p start (delimiterList b p start) >>= (entries p).foldlM (addEntry b start) := by
  unfold found delimiterList entries
  refine bind_congr fun music => ?_
  rw [List.foldlM_cons]
  refine bind_congr fun empty => ?_
  rw [List.foldlM_map]
  rfl

theorem candidates_eq_error_iff :
    (∃ e, candidates b p start = .error e) ↔ Fails b p start := by
  have hfound : (∃ e, candidates b p start = .error e) ↔ ∃ e, found b p start = .error e := by
    unfold candidates
    cases found b p start with
    | error e => exact iff_of_true ⟨e, rfl⟩ ⟨e, rfl⟩
    | ok cs => exact iff_of_false (not_exists_ok_eq_error _) (not_exists_ok_eq_error cs)
  rw [hfound, found_eq, Fails, ← addMusic_eq_error_iff b p start (delimiterList b p start)]
  cases addMusic b p start (delimiterList b p start) with
  | error e => exact iff_of_true ⟨e, rfl⟩ (.inr ⟨e, rfl⟩)
  | ok music =>
      have hentries : (∃ e, (entries p).foldlM (addEntry b start) music = .error e) ↔
          ∃ e ∈ entries p, isWritable e.text = false :=
        foldlM_eq_error_iff fun _ _ _ => addEntry_eq_error_iff
      exact hentries.trans (or_iff_left (not_exists_ok_eq_error music)).symm

end PointAndClick.Boundary
