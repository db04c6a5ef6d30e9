import PointAndClick.Proofs.Boundary.Failures
import PointAndClick.Proofs.Boundary.Soundness

/-!
# Which texts are found

The texts of the empty scene and of the known scenes are searched for one after another. What such a
search finds is replaced by a later find at the same position, but never taken away, and as only one
text can stand at a position, a text that was found there stays found (`finds_foldl_addTextAt`).

The positions end one short: a text is found if and only if at least one byte follows it
(`candidates_texts`).
-/

set_option autoImplicit false

namespace PointAndClick.Boundary

variable {b : Buffer} {p : BoundaryProfile} {start pos q count : Nat} {text other : String}
  {c d : Candidate} {cs : List Candidate}

/-! ## Texts and zeros -/

/-- Only one text stands at a position. -/
theorem TextAt.eq (h : TextAt b pos text) (h' : TextAt b pos other) : text = other := by
  have hlength : text.length = other.length := h.length.symm.trans h'.length
  rw [← String.toList_inj, ← h.chars, ← h'.chars, hlength]

/-- At least so many bytes just before a position are zero. -/
def ZerosBefore (b : Buffer) (pos : Nat) (minZeros : Int) : Prop :=
  ∀ k : Nat, k < minZeros → k < pos ∧ b[pos - 1 - k]? = some 0

theorem le_zerosBefore_iff {minZeros : Int} (h : pos ≤ b.size) :
    minZeros ≤ zerosBefore b pos ↔ ZerosBefore b pos minZeros := by
  obtain ⟨hle, hzeros, hmaximal⟩ := zeroRun_zerosBefore h
  constructor
  · intro hmin k hk
    exact ⟨by omega, hzeros _ (by omega) (by omega)⟩
  · intro hmin
    refine Int.not_lt.mp fun hless => ?_
    obtain ⟨hpos, hzero⟩ := hmin (zerosBefore b pos) (by omega)
    exact hmaximal _ (by omega) hzero

/-! ## Finds of a text -/

/-- The kind of a boundary that is found by its text. -/
def IsTextual (kind : BoundaryKind) : Prop := kind = .empty ∨ kind = .named

theorem isTextual_of_mem_entries {e : Entry} (h : e ∈ entries p) : IsTextual e.kind := by
  rcases List.mem_cons.mp h with rfl | h
  · exact .inl rfl
  · obtain ⟨_, -, rfl⟩ := List.mem_map.mp h
    exact .inr rfl

/-- Among some candidates is one that was found by a text at a position. -/
def Finds (cs : List Candidate) (pos : Nat) (text : String) : Prop :=
  ∃ c ∈ cs, c.position = pos ∧ IsTextual c.kind ∧ c.content = some text

/-- Candidates in the order of their positions. Those that were found by a text have it as their
content. -/
structure Ordered (cs : List Candidate) : Prop where
  ordered : cs.Pairwise (·.position < ·.position)
  content : ∀ c ∈ cs, IsTextual c.kind → c.content ≠ none

theorem Ordered.put (h : Ordered cs) (hc : IsTextual c.kind → c.content ≠ none) :
    Ordered (put c cs) := by
  refine ⟨pairwise_put c h.ordered, fun d hd => ?_⟩
  rcases (mem_put_iff h.ordered).mp hd with rfl | ⟨hd, -⟩
  · exact hc
  · exact h.content d hd

theorem finds_put (h : Ordered cs) :
    Finds (put c cs) pos text ↔
      c.position = pos ∧ IsTextual c.kind ∧ c.content = some text ∨
        Finds cs pos text ∧ pos ≠ c.position := by
  constructor
  · rintro ⟨d, hd, hpos, hfind⟩
    rcases (mem_put_iff h.ordered).mp hd with rfl | ⟨hd, hne⟩
    · exact .inl ⟨hpos, hfind⟩
    · exact .inr ⟨⟨d, hd, hpos, hfind⟩, hpos ▸ hne⟩
  · rintro (hfind | ⟨⟨d, hd, hpos, hfind⟩, hne⟩)
    · exact ⟨c, (mem_put_iff h.ordered).mpr (.inl rfl), hfind⟩
    · exact ⟨d, (mem_put_iff h.ordered).mpr (.inr ⟨hd, hpos ▸ hne⟩), hpos, hfind⟩

/-! ## One text -/

/-- A search looks at one position: what was found stays found, and the text itself is found if it
stands there behind enough zeros. -/
theorem finds_addTextAt {e : Entry} (he : IsTextual e.kind) (hcs : Ordered cs)
    (htext : TextAt b pos text) :
    Ordered (addTextAt b e.text e.minZeros e.kind cs q) ∧
      (Finds (addTextAt b e.text e.minZeros e.kind cs q) pos text ↔
        Finds cs pos text ∨ q = pos ∧ e.text = text ∧ e.minZeros ≤ zerosBefore b pos) := by
  unfold addTextAt
  split
  · rename_i hadded
    rw [Bool.and_eq_true, decide_eq_true_eq, hasText_iff] at hadded
    obtain ⟨hthere, hzeros⟩ := hadded
    refine ⟨hcs.put fun _ => nofun, (finds_put hcs).trans ?_⟩
    by_cases hq : q = pos
    · subst hq
      obtain rfl := hthere.eq htext
      exact iff_of_true (.inl ⟨rfl, he, rfl⟩) (.inr ⟨rfl, rfl, hzeros⟩)
    · simp [hq, Ne.symm hq]
  · rename_i hnot
    refine ⟨hcs, Iff.symm (or_iff_left ?_)⟩
    rintro ⟨rfl, rfl, hzeros⟩
    exact hnot (by simp [hasText_iff.mpr htext, hzeros])

theorem finds_foldl_addTextAt {e : Entry} (he : IsTextual e.kind) (hcs : Ordered cs)
    (htext : TextAt b pos text) (qs : List Nat) :
    Ordered (qs.foldl (addTextAt b e.text e.minZeros e.kind) cs) ∧
      (Finds (qs.foldl (addTextAt b e.text e.minZeros e.kind) cs) pos text ↔
        Finds cs pos text ∨ pos ∈ qs ∧ e.text = text ∧ e.minZeros ≤ zerosBefore b pos) := by
  induction qs generalizing cs with
  | nil => simpa using hcs
  | cons q qs ih =>
      obtain ⟨hordered, hfirst⟩ := finds_addTextAt (q := q) he hcs htext
      obtain ⟨hordered', hrest⟩ := ih hordered
      refine ⟨hordered', hrest.trans ?_⟩
      rw [hfirst, or_assoc, ← or_and_right, List.mem_cons, @eq_comm _ pos q]

/-- The candidates with all places of a text, but for its place at the very end. -/
def withEntry (b : Buffer) (start : Nat) (cs : List Candidate) (e : Entry) : List Candidate :=
  (positions start (b.size - e.text.length - 4)).foldl (addTextAt b e.text e.minZeros e.kind) cs

theorem finds_withEntry {e : Entry} (he : IsTextual e.kind) (hcs : Ordered cs)
    (htext : TextAt b pos text) (hstart : start ≤ pos) :
    Ordered (withEntry b start cs e) ∧
      (Finds (withEntry b start cs e) pos text ↔
        Finds cs pos text ∨ pos + 4 + text.length < b.size ∧ e.text = text ∧
          e.minZeros ≤ zerosBefore b pos) := by
  obtain ⟨hordered, hfinds⟩ := finds_foldl_addTextAt he hcs htext
    (positions start (b.size - e.text.length - 4))
  refine ⟨hordered, hfinds.trans (or_congr_right ?_)⟩
  rw [← and_assoc, ← and_assoc]
  refine and_congr_left fun _ => and_congr_left ?_
  rintro rfl
  have hinside := htext.inside
  rw [mem_positions_iff]
  omega

/-! ## All texts -/

theorem finds_foldl_withEntry (es : List Entry) (hes : ∀ e ∈ es, IsTextual e.kind)
    (hcs : Ordered cs) (htext : TextAt b pos text) (hstart : start ≤ pos) :
    Ordered (es.foldl (withEntry b start) cs) ∧
      (Finds (es.foldl (withEntry b start) cs) pos text ↔
        Finds cs pos text ∨ pos + 4 + text.length < b.size ∧
          ∃ e ∈ es, e.text = text ∧ e.minZeros ≤ zerosBefore b pos) := by
  induction es generalizing cs with
  | nil => simpa using hcs
  | cons e es ih =>
      obtain ⟨he, hes⟩ := List.forall_mem_cons.mp hes
      obtain ⟨hordered, hfirst⟩ := finds_withEntry he hcs htext hstart
      obtain ⟨hordered', hrest⟩ := ih hes hordered
      refine ⟨hordered', hrest.trans ?_⟩
      simp only [List.mem_cons, exists_eq_or_imp]
      rw [hfirst, or_assoc, ← and_or_left]

theorem addEntry_eq_ok {e : Entry} (h : isWritable e.text = true) :
    addEntry b start cs e = .ok (withEntry b start cs e) := by
  unfold addEntry addTexts
  rw [h]
  rfl

/-! ## Candidates -/

/-- Candidates in the order of their positions, none of which was found by a text. -/
structure Textless (cs : List Candidate) : Prop where
  ordered : cs.Pairwise (·.position < ·.position)
  kinds : ∀ c ∈ cs, ¬IsTextual c.kind

theorem Textless.put (h : Textless cs) (hc : ¬IsTextual c.kind) : Textless (put c cs) := by
  refine ⟨pairwise_put c h.ordered, fun d hd => ?_⟩
  rcases (mem_put_iff h.ordered).mp hd with rfl | ⟨hd, -⟩
  · exact hc
  · exact h.kinds d hd

theorem Textless.isOrdered (h : Textless cs) : Ordered cs :=
  ⟨h.ordered, fun c hc hkind => absurd hkind (h.kinds c hc)⟩

theorem Textless.not_finds (h : Textless cs) : ¬Finds cs pos text := by
  rintro ⟨c, hc, -, hkind, -⟩
  exact h.kinds c hc hkind

theorem Textless.addMusicAt {cs' : List Candidate} (h : Textless cs)
    (hok : addMusicAt b p cs pos = .ok cs') : Textless cs' := by
  unfold Boundary.addMusicAt at hok
  cases hmusic : isMusic b p pos with
  | error e => rw [hmusic] at hok; nomatch hok
  | ok isThere =>
      rw [hmusic] at hok
      simp only [bind, Except.bind] at hok
      split at hok
      · cases hok
        exact h.put (by nofun)
      · cases hok
        exact h

/-- Neither delimiters nor music are found by a text. -/
theorem textless_of_addMusic {music : List Candidate}
    (h : addMusic b p start (delimiterList b p start) = .ok music) : Textless music := by
  have hdelimiters : Textless (delimiterList b p start) := by
    refine List.foldlRecOn _ _ ⟨.nil, nofun⟩ fun cs hcs c hc => hcs.put ?_
    rw [(delimiters_spec b p b.size start c hc).2.1]
    nofun
  exact holds_of_foldlM_eq_ok (fun _ _ _ _ hcs hok => hcs.addMusicAt hok) hdelimiters h

/-- What was found by a text is a candidate as it is. -/
theorem finds_filterMap (h : Ordered cs) :
    Finds (cs.filterMap (withContent? b p)) pos text ↔ Finds cs pos text := by
  constructor
  · rintro ⟨d, hd, hpos, hkind, hcontent⟩
    obtain ⟨c, hc, hd⟩ := List.mem_filterMap.mp hd
    obtain ⟨content, rfl, hnone | hsome⟩ := withContent?_eq_some hd
    · exact absurd hnone (h.content c hc hkind)
    · exact ⟨c, hc, hpos, hkind, hsome.trans hcontent⟩
  · rintro ⟨c, hc, hpos, hkind, hcontent⟩
    have hsame : withContent? b p c = some c := by
      rw [withContent?, hcontent]
    exact ⟨c, List.mem_filterMap.mpr ⟨c, hc, hsame⟩, hpos, hkind, hcontent⟩

/-- Where the search does not fail, all finds are known. -/
theorem candidates_eq_ok (h : ¬Fails b p start) :
    ∃ music, Textless music ∧ candidates b p start =
      .ok (((entries p).foldl (withEntry b start) music).filterMap (withContent? b p)) := by
  cases hmusic : addMusic b p start (delimiterList b p start) with
  | error e => exact absurd (.inr ((addMusic_eq_error_iff b p start _).mp ⟨e, hmusic⟩)) h
  | ok music =>
      have hwritable : ∀ e ∈ entries p, isWritable e.text = true := fun e he =>
        eq_true_of_ne_false fun hunwritable => h (.inl ⟨e, he, hunwritable⟩)
      have hentries : (entries p).foldlM (addEntry b start) music =
          .ok ((entries p).foldl (withEntry b start) music) :=
        foldlM_eq_ok_foldl fun e he _ => addEntry_eq_ok (hwritable e he)
      refine ⟨music, textless_of_addMusic hmusic, ?_⟩
      rw [candidates, found_eq, hmusic]
      show ((entries p).foldlM (addEntry b start) music >>= _) = _
      rw [hentries]
      rfl

/-- Every text of the profile that stands behind enough zeros, no matter where from the start on,
is found just if a byte follows it. The search fails only if bytes cannot stand for one of the
texts or music is lost. -/
theorem candidates_texts (b : Buffer) (p : BoundaryProfile) (start : Nat) :
    (Fails b p start ∧ ∃ e, candidates b p start = .error e) ∨
      ¬Fails b p start ∧ ∃ cs, candidates b p start = .ok cs ∧
        ∀ e ∈ entries p, ∀ pos, start ≤ pos → TextAt b pos e.text →
          ZerosBefore b pos e.minZeros →
            (Finds cs pos e.text ↔ pos + 4 + e.text.length < b.size) := by
  by_cases hfails : Fails b p start
  · exact .inl ⟨hfails, candidates_eq_error_iff.mpr hfails⟩
  · obtain ⟨music, hmusic, hok⟩ := candidates_eq_ok hfails
    refine .inr ⟨hfails, _, hok, fun e he pos hstart htext hzeros => ?_⟩
    have hbefore : e.minZeros ≤ zerosBefore b pos := by
      have hinside := htext.inside
      exact (le_zerosBefore_iff (by omega)).mpr hzeros
    obtain ⟨hordered, hfinds⟩ := finds_foldl_withEntry (entries p)
      (fun _ => isTextual_of_mem_entries) hmusic.isOrdered htext hstart
    rw [finds_filterMap hordered, hfinds, or_iff_right hmusic.not_finds, and_iff_left_iff_imp]
    exact fun _ => ⟨e, he, rfl, hbefore⟩

/-- The text of a known scene behind as many zeros as it needs, and some more bytes. -/
def toolbar (behind : List UInt8) : Buffer :=
  (List.replicate 5 0 ++ Encode.text "Toolbar" ++ behind).toArray

/-- With one byte behind it the text is found. -/
theorem candidates_texts_toolbar :
    ∃ cs, candidates (toolbar [7]) .usual 0 = .ok cs ∧ Finds cs 5 "Toolbar" := by
  have hok : candidates (toolbar [7]) .usual 0 = .ok [⟨5, .named, 5, some "Toolbar"⟩] := by rfl
  rcases candidates_texts (toolbar [7]) .usual 0 with ⟨-, e, he⟩ | ⟨-, cs, hcs, hfinds⟩
  · cases hok.symm.trans he
  · have htext : TextAt (toolbar [7]) 5 "Toolbar" := hasText_iff.mp (by decide +kernel)
    have hzeros : ZerosBefore (toolbar [7]) 5 5 := (le_zerosBefore_iff (by decide)).mp (by decide)
    exact ⟨cs, hcs, (hfinds ⟨"Toolbar", 5, .named⟩ (by simp [entries, BoundaryProfile.usual]) 5
      (Nat.zero_le _) htext hzeros).mpr (by decide +kernel)⟩

/-- A text that ends where the file ends is missed. -/
theorem not_forall_text_found :
    ¬∀ (b : Buffer) (p : BoundaryProfile) (start : Nat), ∀ e ∈ entries p, ∀ pos, start ≤ pos →
      TextAt b pos e.text → ZerosBefore b pos e.minZeros →
        ∃ cs, candidates b p start = .ok cs ∧ ∃ c ∈ cs, c.position = pos := by
  intro h
  have htext : TextAt (toolbar []) 5 "Toolbar" := hasText_iff.mp (by decide +kernel)
  have hzeros : ZerosBefore (toolbar []) 5 5 := (le_zerosBefore_iff (by decide)).mp (by decide)
  obtain ⟨cs, hcs, c, hc, -⟩ := h (toolbar []) .usual 0 ⟨"Toolbar", 5, .named⟩
    (by simp [entries, BoundaryProfile.usual]) 5 (Nat.zero_le _) htext hzeros
  have hnone : candidates (toolbar []) .usual 0 = .ok [] := by rfl
  cases hnone.symm.trans hcs
  nomatch hc

end PointAndClick.Boundary
