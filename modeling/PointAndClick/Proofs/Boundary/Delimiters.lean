import PointAndClick.Proofs.Boundary.Texts

/-!
# No delimiter is passed over

Behind a delimiter a search passes over some positions. Before each of them stands the first byte
of that delimiter, which is no zero, and so near that too few zeros can be between the two
(`isDelimiter_eq_false_of_passed`). So if no more positions are passed over than a delimiter needs
zeros, the delimiters that are found are all there are (`delimiterList_unskipped`).
-/

set_option autoImplicit false

namespace PointAndClick.Boundary

variable {b : Buffer} {p : BoundaryProfile} {start stop pos q next fuel : Nat} {c : Candidate}
  {cs ds : List Candidate}

/-! ## Zeros -/

/-- The zeros before a position begin behind any byte that is no zero. -/
theorem zerosBefore_le_of_ne (h : b.byteAt pos ≠ 0) (hlt : pos < q) :
    zerosBefore b q ≤ q - (pos + 1) := by
  induction q with
  | zero => nomatch hlt
  | succ q ih =>
      unfold zerosBefore
      split
      · rename_i hzero
        have hne : pos ≠ q := fun heq => h (heq ▸ hzero)
        have hbefore := ih (by omega)
        omega
      · exact Nat.zero_le _

/-- The run that the table goes on with behind a byte. -/
theorem zerosBefore_succ (h : pos < b.size) :
    zerosBefore b (pos + 1) = if b[pos] = 0 then zerosBefore b pos + 1 else 0 := by
  have hbyte : b.byteAt pos = 0 ↔ b[pos] = 0 := by
    rw [Buffer.byteAt, Array.getElem?_eq_getElem h, Option.getD_some, ← UInt8.toNat_inj]
    rfl
  rw [zerosBefore, if_congr hbyte rfl rfl]

theorem getElem?_zeroRunsFrom (b : Buffer) (pos k : Nat) (h : pos + k ≤ b.size) :
    (zeroRunsFrom (zerosBefore b pos) (b.toList.drop pos))[k]? =
      some (zerosBefore b (pos + k)) := by
  induction k generalizing pos with
  | zero => cases b.toList.drop pos <;> rfl
  | succ k ih =>
      have hinside : pos < b.size := by omega
      have hrest := ih (pos + 1) (by omega)
      rw [List.drop_eq_getElem_cons hinside, zeroRunsFrom, List.getElem?_cons_succ,
        Array.getElem_toList, ← zerosBefore_succ hinside, hrest, Nat.add_right_comm, Nat.add_assoc]

/-- The table has the number of zeros before each position. -/
theorem getElem?_zeroRuns (h : pos ≤ b.size) : (zeroRuns b)[pos]? = some (zerosBefore b pos) := by
  have htable := getElem?_zeroRunsFrom b 0 pos (by omega)
  rwa [Nat.zero_add] at htable

/-! ## Passed positions -/

theorem isDelimiter_iff (h : pos + 20 < b.size) :
    isDelimiter b p pos = true ↔ HasWord b pos 1 ∧ ZerosBefore b pos p.delimiterMinZeros := by
  have hword : b.wordAt pos = 1 ↔ HasWord b pos 1 :=
    ⟨fun hone => ⟨by omega, by rw [hone]; rfl⟩, fun hone => Int.ofNat_inj.mp hone.eq⟩
  have hzeros : p.delimiterMinZeros ≤ zerosBefore b pos ↔ ZerosBefore b pos p.delimiterMinZeros :=
    le_zerosBefore_iff (by omega)
  rw [isDelimiter, Bool.and_eq_true, decide_eq_true_eq, decide_eq_true_eq, hword, hzeros]

/-- The first byte of a delimiter is no zero. -/
theorem byteAt_ne_of_isDelimiter (h : isDelimiter b p pos = true) : b.byteAt pos ≠ 0 := by
  rw [isDelimiter, Bool.and_eq_true, decide_eq_true_eq] at h
  have hword := h.1
  unfold Buffer.wordAt Buffer.halfAt at hword
  omega

/-- No delimiter stands so near behind another that the zeros before it reach over that. -/
theorem isDelimiter_eq_false_of_passed (hskip : p.delimiterSkip ≤ p.delimiterMinZeros)
    (h : isDelimiter b p pos = true) (hlt : pos < q) (hle : q ≤ pos + p.delimiterSkip) :
    isDelimiter b p q = false := by
  have hzeros := zerosBefore_le_of_ne (byteAt_ne_of_isDelimiter h) hlt
  have hfew : ¬p.delimiterMinZeros ≤ zerosBefore b q := by omega
  rw [isDelimiter, decide_eq_false hfew, Bool.and_false]

theorem positions_eq_cons (h : pos < stop) :
    positions pos stop = pos :: positions (pos + 1) stop := by
  have hcount : stop - pos = (stop - (pos + 1)) + 1 := by omega
  rw [positions, hcount, List.range'_succ, positions]

theorem positions_eq_nil (h : stop ≤ pos) : positions pos stop = [] := by
  rw [positions, Nat.sub_eq_zero_of_le h, List.range'_zero]

/-- Positions at which nothing is found may be passed over. -/
theorem filter_positions_of_passed {f : Nat → Bool} (hle : pos ≤ next)
    (h : ∀ q, pos ≤ q → q < next → f q = false) :
    (positions pos stop).filter f = (positions next stop).filter f := by
  induction hle with
  | refl => rfl
  | @step next hle ih =>
      rw [ih fun q hfrom hto => h q hfrom (by omega)]
      rcases Nat.lt_or_ge next stop with hlt | hge
      · rw [positions_eq_cons hlt, List.filter_cons_of_neg]
        rw [h next hle (Nat.lt_succ_self next)]
        exact Bool.false_ne_true
      · rw [positions_eq_nil hge, positions_eq_nil (Nat.le_succ_of_le hge)]

/-! ## All delimiters -/

/-- The find at a delimiter. -/
def delimiterAt (b : Buffer) (pos : Nat) : Candidate :=
  ⟨pos, .delimiter, zerosBefore b pos, none⟩

/-- The delimiters from a position on, but for the last 20 bytes. Each position is looked at. -/
def everyDelimiter (b : Buffer) (p : BoundaryProfile) (start : Nat) : List Candidate :=
  ((positions start (b.size - 20)).filter (isDelimiter b p)).map (delimiterAt b)

theorem delimiters_eq_everyDelimiter (hskip : p.delimiterSkip ≤ p.delimiterMinZeros)
    (hfuel : b.size ≤ pos + fuel) : delimiters b p fuel pos = everyDelimiter b p pos := by
  unfold everyDelimiter
  fun_induction delimiters b p fuel pos with
  | case1 pos => rw [positions_eq_nil (by omega), List.filter_nil, List.map_nil]
  | case2 fuel pos hbefore hdelimiter ih =>
      rw [positions_eq_cons (by omega), List.filter_cons_of_pos hdelimiter, List.map_cons,
        ih (by omega)]
      have hpassed : ∀ q, pos + 1 ≤ q → q < pos + p.delimiterSkip + 1 →
          isDelimiter b p q = false := fun q hfrom hto =>
        isDelimiter_eq_false_of_passed hskip hdelimiter hfrom (Nat.le_of_lt_succ hto)
      rw [filter_positions_of_passed (by omega) hpassed]
      rfl
  | case3 fuel pos hbefore hdelimiter ih =>
      rw [positions_eq_cons (by omega), List.filter_cons_of_neg hdelimiter, ih (by omega)]
  | case4 fuel pos hbefore =>
      rw [positions_eq_nil (by omega), List.filter_nil, List.map_nil]

/-- A find behind all others is put at the end. -/
theorem put_eq_append (h : ∀ d ∈ cs, d.position < c.position) : put c cs = cs ++ [c] := by
  induction cs with
  | nil => rfl
  | cons d cs ih =>
      obtain ⟨hfirst, hrest⟩ := List.forall_mem_cons.mp h
      rw [put, if_neg (by omega), if_neg (by omega), ih hrest, List.cons_append]

/-- Finds in the order of their positions are put in as they are. -/
theorem foldl_put_of_pairwise (h : (cs ++ ds).Pairwise (·.position < ·.position)) :
    ds.foldl (fun cs c => put c cs) cs = cs ++ ds := by
  induction ds generalizing cs with
  | nil => rw [List.foldl_nil, List.append_nil]
  | cons d ds ih =>
      have hbefore : ∀ c ∈ cs, c.position < d.position := fun c hc =>
        (List.pairwise_append.mp h).2.2 c hc d List.mem_cons_self
      have hsplit : cs ++ d :: ds = (cs ++ [d]) ++ ds := by simp
      rw [hsplit] at h ⊢
      rw [List.foldl_cons, put_eq_append hbefore, ih h]

theorem pairwise_everyDelimiter (b : Buffer) (p : BoundaryProfile) (start : Nat) :
    (everyDelimiter b p start).Pairwise (·.position < ·.position) :=
  List.pairwise_map.mpr (List.Pairwise.filter _ List.pairwise_lt_range')

theorem delimiterList_eq_everyDelimiter (hskip : p.delimiterSkip ≤ p.delimiterMinZeros) :
    delimiterList b p start = everyDelimiter b p start := by
  rw [delimiterList, delimiters_eq_everyDelimiter hskip (Nat.le_add_left _ _),
    foldl_put_of_pairwise (pairwise_everyDelimiter b p start), List.nil_append]

theorem mem_everyDelimiter :
    c ∈ everyDelimiter b p start ↔ c = delimiterAt b c.position ∧ start ≤ c.position ∧
      c.position + 20 < b.size ∧ HasWord b c.position 1 ∧
        ZerosBefore b c.position p.delimiterMinZeros := by
  simp only [everyDelimiter, List.mem_map, List.mem_filter, mem_positions_iff,
    Nat.lt_sub_iff_add_lt]
  constructor
  · rintro ⟨pos, ⟨⟨hstart, hbefore⟩, hdelimiter⟩, rfl⟩
    exact ⟨rfl, hstart, hbefore, (isDelimiter_iff hbefore).mp hdelimiter⟩
  · rintro ⟨heq, hstart, hbefore, hdelimiter⟩
    exact ⟨c.position, ⟨⟨hstart, hbefore⟩, (isDelimiter_iff hbefore).mpr hdelimiter⟩, heq.symm⟩

/-- If no more positions are passed over behind a delimiter than a delimiter needs zeros, a search
finds the same as one that looks at every position: a word 1 behind enough zeros, wherever it stands
from the start on but for the last 20 bytes, with the number of zeros that the table has for it. -/
theorem delimiterList_unskipped (b : Buffer) (p : BoundaryProfile) (start : Nat)
    (hskip : p.delimiterSkip ≤ p.delimiterMinZeros) :
    delimiterList b p start = delimiterList b { p with delimiterSkip := 0 } start ∧
      (∀ pos, pos ∈ (delimiterList b p start).map (·.position) ↔
        start ≤ pos ∧ pos + 20 < b.size ∧ HasWord b pos 1 ∧
          ZerosBefore b pos p.delimiterMinZeros) ∧
      ∀ c ∈ delimiterList b p start, c.kind = .delimiter ∧
        (zeroRuns b)[c.position]? = some c.zeros := by
  have hevery : delimiterList b p start = everyDelimiter b p start :=
    delimiterList_eq_everyDelimiter hskip
  have hunskipped :
      delimiterList b { p with delimiterSkip := 0 } start = everyDelimiter b p start :=
    delimiterList_eq_everyDelimiter (by show (0 : Int) ≤ p.delimiterMinZeros; omega)
  rw [hunskipped, hevery]
  refine ⟨rfl, fun pos => ?_, fun c hc => ?_⟩
  · rw [List.mem_map]
    constructor
    · rintro ⟨c, hc, rfl⟩
      exact (mem_everyDelimiter.mp hc).2
    · exact fun hpos => ⟨delimiterAt b pos, mem_everyDelimiter.mpr ⟨rfl, hpos⟩, rfl⟩
  · obtain ⟨heq, -, hbefore, -⟩ := mem_everyDelimiter.mp hc
    have hinside : c.position ≤ b.size := by omega
    rw [heq]
    exact ⟨rfl, getElem?_zeroRuns hinside⟩

/-- Two delimiters, the second of them as near behind the first as its zeros allow. -/
def twoDelimiters : Buffer :=
  (List.replicate 12 0 ++ Encode.word 1 ++ List.replicate 9 0 ++ Encode.word 1 ++
    List.replicate 20 0xff).toArray

/-- The second delimiter is found also if as many positions are passed over as it needs zeros. -/
theorem delimiterList_unskipped_near :
    ((12 : Nat) : Int) ≤ 12 ∧
      delimiterList twoDelimiters { delimiterSkip := 12 } 0 =
        [⟨12, .delimiter, 12, none⟩, ⟨25, .delimiter, 12, none⟩] ∧
      HasWord twoDelimiters 25 1 ∧ ZerosBefore twoDelimiters 25 12 := by
  have hlist : delimiterList twoDelimiters { delimiterSkip := 12 } 0 =
      [⟨12, .delimiter, 12, none⟩, ⟨25, .delimiter, 12, none⟩] := by rfl
  obtain ⟨-, hpositions, -⟩ :=
    delimiterList_unskipped twoDelimiters { delimiterSkip := 12 } 0 (by decide)
  obtain ⟨-, -, hword, hzeros⟩ := (hpositions 25).mp (by rw [hlist]; decide)
  exact ⟨by decide, hlist, hword, hzeros⟩

end PointAndClick.Boundary
