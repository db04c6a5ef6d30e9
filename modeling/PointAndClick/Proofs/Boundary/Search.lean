import PointAndClick.Boundary.Scan
import PointAndClick.Proofs.Encoding.Provenance

/-!
# What the searches for boundaries find

The four searches put what they find into one list. It is in the order of the positions, and a find
takes the place of an earlier one at its position (`mem_put_iff`). Whatever is in the list is what
it says it is, and music is far from delimiters and from other music (`Table`): no search breaks
this. If the window of the music text is not too long, a search fails only at a text that bytes
cannot stand for (`ends_found`).
-/

set_option autoImplicit false

namespace PointAndClick.Boundary

variable {b : Buffer} {p : BoundaryProfile} {start pos count : Nat} {text : String}
  {c d : Candidate} {cs : List Candidate}

/-! ## Bytes -/

/-- A word stands at a position. -/
structure HasWord (b : Buffer) (pos : Nat) (n : Int) : Prop where
  inside : pos + 4 ≤ b.size
  eq : b.wordAt pos = n

/-- Just before a position there are so many zero bytes, and no more. -/
structure ZeroRun (b : Buffer) (pos count : Nat) : Prop where
  le : count ≤ pos
  zeros : ∀ q, pos - count ≤ q → q < pos → b[q]? = some 0
  maximal : ∀ q, q + 1 = pos - count → b[q]? ≠ some 0

theorem zeroRun_zerosBefore (h : pos ≤ b.size) : ZeroRun b pos (zerosBefore b pos) := by
  induction pos with
  | zero =>
      exact ⟨Nat.le_refl _, fun q _ hq => absurd hq (Nat.not_lt_zero q), fun q hq => nomatch hq⟩
  | succ pos ih =>
      have hread : b[pos]? = some (.ofNat (b.byteAt pos)) := Buffer.getElem?_eq_byteAt h
      obtain ⟨hle, hzeros, hmaximal⟩ := ih (Nat.le_of_succ_le h)
      unfold zerosBefore
      split
      · rename_i hzero
        refine ⟨Nat.succ_le_succ hle, fun q hfrom hto => ?_, fun q hq => hmaximal q (by omega)⟩
        by_cases hlast : q = pos
        · rw [hlast, hread, hzero]
          rfl
        · exact hzeros q (by omega) (by omega)
      · rename_i hne
        refine ⟨Nat.zero_le _, fun q hfrom hto => by omega, fun q hq => ?_⟩
        obtain rfl : q = pos := by omega
        rw [hread]
        intro hzero
        have hbyte : UInt8.toNat (.ofNat (b.byteAt q)) = 0 :=
          congrArg UInt8.toNat (Option.some.inj hzero)
        rw [UInt8.toNat_ofNat', Nat.mod_eq_of_lt (b.byteAt_lt q)] at hbyte
        exact hne hbyte

theorem hasAt_of_hasText (h : hasText b pos text.toList = true) :
    b.HasAt pos (Encode.text text) := by
  simp only [hasText, String.length_toList, Bool.and_eq_true, decide_eq_true_eq] at h
  obtain ⟨⟨hinside, hlength⟩, hchars⟩ := h
  have htext : Buffer.textOf (b.slice (pos + 4) text.length) = text := by
    rw [Buffer.textOf, hchars, String.ofList_toList]
  have hword : b.HasAt pos (Encode.word (b.wordAt pos)) := Buffer.hasAt_word (by omega)
  rw [hlength] at hword
  refine Buffer.hasAt_append.mpr ⟨hword, ?_⟩
  rw [Encode.length_word, Buffer.HasAt, Encode.length_chars]
  calc b.slice (pos + 4) text.length
      = Encode.chars (Buffer.textOf (b.slice (pos + 4) text.length)) := (Buffer.chars_textOf _).symm
    _ = Encode.chars text := by rw [htext]

/-! ## Finds -/

/-- A text stands where a find is, behind enough zeros, and it is the content of the find. -/
structure Candidate.Names (b : Buffer) (c : Candidate) (text : String) (minZeros : Int) : Prop where
  content : c.content = some text
  hasAt : b.HasAt c.position (Encode.text text)
  zeros : ZeroRun b c.position c.zeros
  enough : minZeros ≤ c.zeros

/-- A find is what it says it is. -/
def Candidate.Fits (b : Buffer) (p : BoundaryProfile) (c : Candidate) : Prop :=
  match c.kind with
  | .delimiter =>
      HasWord b c.position 1 ∧ ZeroRun b c.position c.zeros ∧ p.delimiterMinZeros ≤ c.zeros
  | .music =>
      HasWord b c.position p.musicMarker ∧ c.zeros = 0 ∧
        ∃ pos, c.position ≤ pos ∧ pos < c.position + p.musicWindow ∧
          b.HasAt pos (Encode.text p.musicText)
  | .empty => c.Names b p.emptyText p.emptyMinZeros
  | .named => ∃ e ∈ p.namedScenes, c.Names b e.1 e.2

/-- A find is no music that is near to a delimiter or to other music. -/
def Candidate.Apart (p : BoundaryProfile) (c d : Candidate) : Prop :=
  c.kind = .music → d.kind = .music ∨ d.kind = .delimiter → d.position ≠ c.position →
    p.musicMinDistance ≤ ((c.position : Int) - d.position).natAbs

/-- Finds from a position on, in their order. Each is what it says it is, and no music is near to a
delimiter or to other music. -/
structure Table (b : Buffer) (p : BoundaryProfile) (start : Nat) (cs : List Candidate) : Prop where
  ordered : cs.Pairwise (·.position < ·.position)
  start_le : ∀ c ∈ cs, start ≤ c.position
  fits : ∀ c ∈ cs, c.Fits b p
  apart : ∀ c ∈ cs, ∀ d ∈ cs, c.Apart p d

theorem table_nil (b : Buffer) (p : BoundaryProfile) (start : Nat) : Table b p start [] :=
  ⟨.nil, nofun, nofun, nofun⟩

/-! ## Putting in finds -/

/-- Of the finds at the position of a new one none is left. -/
theorem mem_put_iff (h : cs.Pairwise (·.position < ·.position)) :
    d ∈ put c cs ↔ d = c ∨ d ∈ cs ∧ d.position ≠ c.position := by
  induction cs with
  | nil => simp [put]
  | cons e cs ih =>
      obtain ⟨hfirst, hrest⟩ := List.pairwise_cons.mp h
      unfold put
      split
      · rename_i hlt
        -- all of the finds are behind the new one
        have hbehind : ∀ x ∈ e :: cs, x.position ≠ c.position := by
          rintro x (_ | ⟨_, hx⟩)
          · exact Nat.ne_of_gt hlt
          · exact Nat.ne_of_gt (Nat.lt_trans hlt (hfirst x hx))
        rw [List.mem_cons]
        exact or_congr Iff.rfl (iff_self_and.mpr (hbehind d))
      · split
        · rename_i heq
          have hbehind : ∀ x ∈ cs, x.position ≠ c.position := fun x hx =>
            heq ▸ Nat.ne_of_gt (hfirst x hx)
          rw [List.mem_cons, List.mem_cons]
          refine or_congr Iff.rfl ⟨fun hd => ⟨.inr hd, hbehind d hd⟩, ?_⟩
          rintro ⟨rfl | hd, hne⟩
          · exact absurd heq.symm hne
          · exact hd
        · rename_i heq
          rw [List.mem_cons, ih hrest, List.mem_cons]
          constructor
          · rintro (rfl | rfl | ⟨hd, hne⟩)
            · exact .inr ⟨.inl rfl, Ne.symm heq⟩
            · exact .inl rfl
            · exact .inr ⟨.inr hd, hne⟩
          · rintro (rfl | ⟨rfl | hd, hne⟩)
            · exact .inr (.inl rfl)
            · exact .inl rfl
            · exact .inr (.inr ⟨hd, hne⟩)

theorem pairwise_put (c : Candidate) (h : cs.Pairwise (·.position < ·.position)) :
    (put c cs).Pairwise (·.position < ·.position) := by
  induction cs with
  | nil => simp [put]
  | cons e cs ih =>
      obtain ⟨hfirst, hrest⟩ := List.pairwise_cons.mp h
      unfold put
      split
      · rename_i hlt
        refine List.pairwise_cons.mpr ⟨?_, h⟩
        rintro x (_ | ⟨_, hx⟩)
        · exact hlt
        · exact Nat.lt_trans hlt (hfirst x hx)
      · split
        · rename_i heq
          exact List.pairwise_cons.mpr ⟨fun x hx => heq ▸ hfirst x hx, hrest⟩
        · refine List.pairwise_cons.mpr ⟨fun x hx => ?_, ih hrest⟩
          rcases (mem_put_iff hrest).mp hx with rfl | ⟨hx, -⟩
          · omega
          · exact hfirst x hx

theorem Table.put (h : Table b p start cs) (hstart : start ≤ c.position) (hfits : c.Fits b p)
    (hapart : ∀ d ∈ cs, c.Apart p d ∧ d.Apart p c) : Table b p start (put c cs) := by
  have hmem {d : Candidate} (hd : d ∈ Boundary.put c cs) : d = c ∨ d ∈ cs :=
    ((mem_put_iff h.ordered).mp hd).imp_right And.left
  refine ⟨pairwise_put c h.ordered, fun d hd => ?_, fun d hd => ?_, fun d hd e he => ?_⟩
  · rcases hmem hd with rfl | hd
    · exact hstart
    · exact h.start_le d hd
  · rcases hmem hd with rfl | hd
    · exact hfits
    · exact h.fits d hd
  · rcases hmem hd with rfl | hd' <;> rcases hmem he with rfl | he'
    · exact fun _ _ hne => absurd rfl hne
    · exact (hapart e he').1
    · exact (hapart d hd').2
    · exact h.apart d hd' e he'

/-! ## Delimiters -/

theorem fits_of_isDelimiter (h : isDelimiter b p pos = true) (hinside : pos + 4 ≤ b.size) :
    Candidate.Fits b p ⟨pos, .delimiter, zerosBefore b pos, none⟩ := by
  simp only [isDelimiter, Bool.and_eq_true, decide_eq_true_eq] at h
  have hword : (b.wordAt pos : Int) = 1 := by omega
  exact ⟨⟨hinside, hword⟩, zeroRun_zerosBefore (Nat.le_of_add_right_le hinside), h.2⟩

theorem delimiters_spec (b : Buffer) (p : BoundaryProfile) (fuel pos : Nat) :
    ∀ c ∈ delimiters b p fuel pos, pos ≤ c.position ∧ c.kind = .delimiter ∧ c.Fits b p := by
  fun_induction delimiters b p fuel pos with
  | case1 | case4 => nofun
  | case2 fuel pos hbefore hdelimiter ih =>
      rintro c (_ | ⟨_, hc⟩)
      · exact ⟨Nat.le_refl _, rfl, fits_of_isDelimiter hdelimiter (by omega)⟩
      · obtain ⟨hpos, hkind, hfits⟩ := ih c hc
        exact ⟨by omega, hkind, hfits⟩
  | case3 fuel pos hbefore hdelimiter ih =>
      intro c hc
      obtain ⟨hpos, hkind, hfits⟩ := ih c hc
      exact ⟨by omega, hkind, hfits⟩

/-- Delimiters among delimiters are no music. -/
theorem table_delimiters (b : Buffer) (p : BoundaryProfile) (start : Nat) :
    Table b p start ((delimiters b p b.size start).foldl (fun cs c => put c cs) []) := by
  suffices h : ∀ (ds cs : List Candidate), (∀ c ∈ ds, start ≤ c.position ∧ c.kind = .delimiter ∧
      c.Fits b p) → Table b p start cs → (∀ c ∈ cs, c.kind = .delimiter) →
        Table b p start (ds.foldl (fun cs c => put c cs) cs) from
    h _ [] (delimiters_spec b p b.size start) (table_nil b p start) nofun
  intro ds
  induction ds with
  | nil => exact fun cs _ htable _ => htable
  | cons c ds ih =>
      intro cs hds htable hkinds
      obtain ⟨⟨hstart, hkind, hfits⟩, hds⟩ := List.forall_mem_cons.mp hds
      refine ih (put c cs) hds (htable.put hstart hfits fun d hd => ⟨?_, ?_⟩) fun d hd => ?_
      · intro hmusic
        rw [hkind] at hmusic
        nomatch hmusic
      · intro hmusic
        rw [hkinds d hd] at hmusic
        nomatch hmusic
      · rcases (mem_put_iff htable.ordered).mp hd with rfl | ⟨hd, -⟩
        · exact hkind
        · exact hkinds d hd

/-! ## Searches that may fail -/

/-- The texts that a profile has searched for. -/
def texts (p : BoundaryProfile) : List String :=
  p.musicText :: p.emptyText :: p.namedScenes.map (·.1)

/-- A search ends with something of which a property holds, or it fails at a text of its profile
that bytes cannot stand for. -/
def Ends {α : Type} (p : BoundaryProfile) (holds : α → Prop) : Except SearchFault α → Prop
  | .ok a => holds a
  | .error e => ∃ text ∈ texts p, isWritable text = false ∧ e = .unwritable text

theorem Ends.imp {α : Type} {holds holds' : α → Prop} {r : Except SearchFault α}
    (h : Ends p holds r) (himp : ∀ a, holds a → holds' a) : Ends p holds' r := by
  cases r with
  | error e => exact h
  | ok a => exact himp a h

theorem Ends.bind {α β : Type} {holds : α → Prop} {holds' : β → Prop} {r : Except SearchFault α}
    {next : α → Except SearchFault β} (h : Ends p holds r)
    (hnext : ∀ a, holds a → Ends p holds' (next a)) : Ends p holds' (r >>= next) := by
  cases r with
  | error e => exact h
  | ok a => exact hnext a h

/-- What each step of a search keeps holds at its end. -/
theorem ends_foldlM {α β : Type} {holds : α → Prop} {f : α → β → Except SearchFault α}
    {xs : List β} {a : α} (hstep : ∀ x ∈ xs, ∀ a, holds a → Ends p holds (f a x)) (h : holds a) :
    Ends p holds (xs.foldlM f a) := by
  induction xs generalizing a with
  | nil => exact h
  | cons x xs ih =>
      obtain ⟨hfirst, hrest⟩ := List.forall_mem_cons.mp hstep
      rw [List.foldlM_cons]
      exact (hfirst a h).bind fun a' ha' => ih hrest ha'

theorem mem_positions_iff {stop : Nat} :
    pos ∈ positions start stop ↔ start ≤ pos ∧ pos < stop := by
  rw [positions, List.mem_range'_1]
  omega

/-! ## Music -/

/-- In a window within the file the music text is found only where it stands. -/
theorem ends_searchMusic (hinside : pos + count + 3 ≤ b.size) :
    Ends p (fun isThere => isThere = true →
      ∃ q, pos ≤ q ∧ q < pos + count ∧ b.HasAt q (Encode.text p.musicText))
      (searchMusic b p count pos) := by
  induction count generalizing pos with
  | zero => exact nofun
  | succ count ih =>
      have hword : ¬b.size < pos + 4 := by omega
      unfold searchMusic
      rw [if_neg hword]
      split
      · rename_i hunwritable
        simp only [Bool.and_eq_true, Bool.not_eq_true'] at hunwritable
        exact ⟨_, List.mem_cons_self, hunwritable.2, rfl⟩
      · split
        · rename_i htext
          exact fun _ => ⟨pos, Nat.le_refl _, by omega, hasAt_of_hasText htext⟩
        · have hnext : pos + 1 + count + 3 ≤ b.size := by omega
          have hrest := ih hnext
          refine hrest.imp fun isThere hthere h => ?_
          obtain ⟨q, hfrom, hto, hat⟩ := hthere h
          exact ⟨q, by omega, by omega, hat⟩

theorem ends_isMusic (hwindow : p.musicWindow ≤ 97) (hinside : pos < b.size - 100) :
    Ends p (fun isThere => isThere = true → Candidate.Fits b p ⟨pos, .music, 0, none⟩)
      (isMusic b p pos) := by
  unfold isMusic
  split
  · rename_i hmarker
    have hword : pos + 4 ≤ b.size := by omega
    have hlast : pos + p.musicWindow.toNat + 3 ≤ b.size := by omega
    refine (ends_searchMusic hlast).imp fun isThere hthere h => ⟨⟨hword, hmarker⟩, rfl, ?_⟩
    obtain ⟨q, hfrom, hto, hat⟩ := hthere h
    have hwithin : (q : Int) < pos + p.musicWindow := by omega
    exact ⟨q, hfrom, hwithin, hat⟩
  · exact nofun

/-- A position that is not too near to the end of the file is added only if music is there. -/
theorem ends_addMusicAt (hwindow : p.musicWindow ≤ 97) (hstart : start ≤ pos)
    (hinside : pos < b.size - 100) (h : Table b p start cs) :
    Ends p (Table b p start) (addMusicAt b p cs pos) := by
  refine (ends_isMusic hwindow hinside).bind fun isThere hthere => ?_
  split
  · rename_i hadded
    simp only [Bool.and_eq_true, Bool.not_eq_true', isNear, List.any_eq_false,
      decide_eq_true_eq] at hadded
    refine h.put hstart (hthere hadded.1) fun d hd => ?_
    have hfar := hadded.2 d hd
    exact ⟨fun _ _ _ => by dsimp only; omega, fun _ _ _ => by dsimp only; omega⟩
  · exact h

theorem ends_addMusic (hwindow : p.musicWindow ≤ 97) (h : Table b p start cs) :
    Ends p (Table b p start) (addMusic b p start cs) := by
  refine ends_foldlM (fun pos hpos cs hcs => ?_) h
  obtain ⟨hstart, hinside⟩ := mem_positions_iff.mp hpos
  exact ends_addMusicAt hwindow hstart hinside hcs

/-! ## Texts -/

theorem Table.addTextAt {kind : BoundaryKind} {minZeros : Int} (h : Table b p start cs)
    (hstart : start ≤ pos) (hmusic : kind ≠ .music) (hdelimiter : kind ≠ .delimiter)
    (hfits : ∀ c : Candidate, c.kind = kind → c.Names b text minZeros → c.Fits b p) :
    Table b p start (addTextAt b text minZeros kind cs pos) := by
  unfold Boundary.addTextAt
  split
  · rename_i hadded
    simp only [Bool.and_eq_true, decide_eq_true_eq] at hadded
    have hat := hasAt_of_hasText hadded.1
    have hinside : pos ≤ b.size :=
      Nat.le_of_add_right_le (hat.le_size (by simp [Encode.text, Encode.word]))
    refine h.put hstart (hfits _ rfl ⟨rfl, hat, zeroRun_zerosBefore hinside, hadded.2⟩) ?_
    -- a text is neither music nor a delimiter
    exact fun d _ => ⟨fun hkind => absurd hkind hmusic, fun _ hkind =>
      (hkind.elim hmusic hdelimiter).elim⟩
  · exact h

theorem ends_addTexts {kind : BoundaryKind} {minZeros : Int} (htext : text ∈ texts p)
    (hmusic : kind ≠ .music) (hdelimiter : kind ≠ .delimiter)
    (hfits : ∀ c : Candidate, c.kind = kind → c.Names b text minZeros → c.Fits b p)
    (h : Table b p start cs) :
    Ends p (Table b p start) (addTexts b start text minZeros kind cs) := by
  unfold addTexts
  split
  · show Table b p start _
    refine List.foldlRecOn _ _ h fun cs hcs pos hpos => ?_
    exact hcs.addTextAt (mem_positions_iff.mp hpos).1 hmusic hdelimiter hfits
  · rename_i hunwritable
    exact ⟨text, htext, eq_false_of_ne_true hunwritable, rfl⟩

/-! ## All of them -/

theorem fits_of_empty (hkind : c.kind = .empty) (h : c.Names b p.emptyText p.emptyMinZeros) :
    c.Fits b p := by
  unfold Candidate.Fits
  rw [hkind]
  exact h

theorem fits_of_named {e : String × Int} (he : e ∈ p.namedScenes) (hkind : c.kind = .named)
    (h : c.Names b e.1 e.2) : c.Fits b p := by
  unfold Candidate.Fits
  rw [hkind]
  exact ⟨e, he, h⟩

/-- The four searches one after another. -/
theorem ends_found (hwindow : p.musicWindow ≤ 97) (b : Buffer) (start : Nat) :
    Ends p (Table b p start) (found b p start) := by
  refine (ends_addMusic hwindow (table_delimiters b p start)).bind fun music hmusic => ?_
  refine Ends.bind (ends_addTexts (by simp [texts]) nofun nofun (fun _ => fits_of_empty) hmusic)
    fun empty hempty => ?_
  refine ends_foldlM (fun e he cs hcs => ?_) hempty
  have htext : e.1 ∈ texts p :=
    List.mem_cons_of_mem _ (List.mem_cons_of_mem _ (List.mem_map_of_mem he))
  exact ends_addTexts htext nofun nofun (fun _ => fits_of_named he) hcs

end PointAndClick.Boundary
