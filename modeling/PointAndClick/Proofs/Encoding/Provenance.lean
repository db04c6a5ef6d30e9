import PointAndClick.Proofs.Encoding.Bytes

/-!
# Where what is read comes from

The other direction of `Proofs.Encoding.Bytes`: whatever the decoders of words and texts read, its
written form stands where it was read, and nothing but the written form was taken. So each of these
decoders succeeds just where a written form stands, and with what it stands for.
-/

set_option autoImplicit false

namespace PointAndClick

namespace Buffer

variable {b : Buffer} {pos stop : Nat}

/-! ## Bytes between two positions -/

/-- Some bytes, and nothing else, stand between two positions of a buffer. -/
structure HasBetween (b : Buffer) (pos stop : Nat) (bytes : List UInt8) : Prop where
  hasAt : b.HasAt pos bytes
  stop_eq : stop = pos + bytes.length

theorem hasBetween_nil (b : Buffer) (pos : Nat) : b.HasBetween pos pos [] :=
  ⟨b.hasAt_nil pos, rfl⟩

theorem HasBetween.append {mid : Nat} {xs ys : List UInt8} (hx : b.HasBetween pos mid xs)
    (hy : b.HasBetween mid stop ys) : b.HasBetween pos stop (xs ++ ys) := by
  obtain ⟨hx, rfl⟩ := hx
  obtain ⟨hy, rfl⟩ := hy
  exact ⟨hasAt_append.mpr ⟨hx, hy⟩, by rw [List.length_append, Nat.add_assoc]⟩

/-! ## Words -/

theorem getElem?_eq_byteAt (h : pos < b.size) : b[pos]? = some (.ofNat (b.byteAt pos)) := by
  rw [byteAt, Array.getElem?_eq_getElem h, Option.getD_some, UInt8.ofNat_toNat]

/-- A byte of a word says no more than its lowest eight bits. -/
theorem ofNat_eq_of_mod_eq {m n : Nat} (h : m % 256 = n % 256) : UInt8.ofNat m = UInt8.ofNat n :=
  UInt8.toNat_inj.mp (by rwa [UInt8.toNat_ofNat', UInt8.toNat_ofNat'])

theorem hasAt_word (h : pos + 4 ≤ b.size) : b.HasAt pos (Encode.word (b.wordAt pos)) := by
  have h0 := b.byteAt_lt pos
  have h1 := b.byteAt_lt (pos + 1)
  have h2 := b.byteAt_lt (pos + 2)
  have hword : b.wordAt pos = b.byteAt pos + 0x100 * b.byteAt (pos + 1) +
      0x10000 * (b.byteAt (pos + 2) + 0x100 * b.byteAt (pos + 3)) := rfl
  -- each byte of the written form is the one that was read
  have hbyte {k n : Nat} (hk : k < 4) (hn : n % 256 = b.byteAt (pos + k) % 256) :
      b[pos + k]? = some (.ofNat n) := by
    rw [getElem?_eq_byteAt (by omega), ofNat_eq_of_mod_eq hn]
  unfold Encode.word
  refine hasAt_cons.mpr ⟨hbyte (k := 0) (by omega) (by rw [Nat.add_zero]; omega), ?_⟩
  refine hasAt_cons.mpr ⟨hbyte (k := 1) (by omega) (by omega), ?_⟩
  refine hasAt_cons.mpr ⟨hbyte (k := 2) (by omega) (by omega), ?_⟩
  exact hasAt_cons.mpr ⟨hbyte (k := 3) (by omega) (by omega), hasAt_nil b _⟩

theorem isSignedWord_signedAt (b : Buffer) (pos : Nat) : IsSignedWord (b.signedAt pos) := by
  have hlt := b.wordAt_lt pos
  simp only [signedAt, IsSignedWord]
  split <;> omega

theorem hasAt_signed (h : pos + 4 ≤ b.size) : b.HasAt pos (Encode.signed (b.signedAt pos)) := by
  have hlt := b.wordAt_lt pos
  have hword : (b.signedAt pos % 0x100000000).toNat = b.wordAt pos := by
    simp only [signedAt]
    split <;> omega
  rw [Encode.signed, hword]
  exact hasAt_word h

/-! ## Texts -/

theorem toNat_charOf (x : UInt8) : (charOf x).toNat = x.toNat := by
  have hvalid : x.toNat.isValidChar := Or.inl (Nat.lt_trans x.toNat_lt (by decide))
  rw [charOf, Char.ofNat, dif_pos hvalid]
  rfl

@[simp] theorem chars_textOf (bytes : List UInt8) : Encode.chars (textOf bytes) = bytes := by
  have hchar (x : UInt8) : UInt8.ofNat (charOf x).toNat = x := by
    rw [toNat_charOf, UInt8.ofNat_toNat]
  rw [Encode.chars, textOf, String.toList_ofList, List.map_map]
  exact List.map_id'' hchar bytes

theorem length_textOf (bytes : List UInt8) : (textOf bytes).length = bytes.length := by
  rw [← Encode.length_chars, chars_textOf]

theorem isStorable_textOf {bytes : List UInt8} (h : bytes.length ≤ maxTextLength) :
    IsStorable (textOf bytes) := by
  refine ⟨length_textOf bytes ▸ h, fun c hc => ?_⟩
  rw [textOf, String.toList_ofList] at hc
  obtain ⟨x, -, rfl⟩ := List.mem_map.mp hc
  rw [toNat_charOf]
  exact x.toNat_lt

/-- A text is there just where its written form stands. -/
theorem textAt?_eq_some_iff {s : String} :
    b.textAt? pos = some (s, stop) ↔
      IsStorable s ∧ b.HasBetween pos stop (Encode.text s) := by
  constructor
  · intro h
    simp only [textAt?] at h
    split at h
    · cases h
    · split at h
      · cases h
      · rename_i hword hbounds
        cases h
        have hlen : (b.slice (pos + 4) (b.wordAt pos)).length = b.wordAt pos := by
          rw [length_slice]
          omega
        have htext : (textOf (b.slice (pos + 4) (b.wordAt pos))).length = b.wordAt pos := by
          rw [length_textOf, hlen]
        refine ⟨isStorable_textOf (by omega), ?_, ?_⟩
        · rw [Encode.text, htext, chars_textOf]
          refine hasAt_append.mpr ⟨hasAt_word (by omega), ?_⟩
          rw [Encode.length_word, HasAt, hlen]
        · rw [Encode.length_text, htext, Nat.add_assoc]
  · rintro ⟨hs, hat, rfl⟩
    rw [hat.textAt? hs, Encode.length_text]

end Buffer

/-! ## What a decoder took -/

namespace Decoder

variable {b : Buffer} {pos stop : Nat}

theorem fixed_eq_ok_iff {α : Type} {width : Nat} {value : Buffer → Nat → α} {a : α} :
    fixed width value b pos = .ok (a, stop) ↔
      pos + width ≤ b.size ∧ value b pos = a ∧ stop = pos + width := by
  unfold fixed
  by_cases hsize : pos + width ≤ b.size
  · rw [if_neg (by omega), Except.ok.injEq, Prod.mk.injEq, and_iff_right hsize, eq_comm (a := stop)]
  · rw [if_pos (by omega)]
    simp [hsize]

theorem word_eq_ok_iff {n : Nat} :
    word b pos = .ok (n, stop) ↔
      IsWord n ∧ b.HasBetween pos stop (Encode.word n) := by
  constructor
  · intro h
    obtain ⟨hsize, rfl, rfl⟩ := fixed_eq_ok_iff.mp h
    exact ⟨b.wordAt_lt pos, Buffer.hasAt_word hsize, rfl⟩
  · rintro ⟨hn, hat, rfl⟩
    exact readsAt_word hn pos b hat

theorem signed_eq_ok_iff {i : Int} :
    signed b pos = .ok (i, stop) ↔
      IsSignedWord i ∧ b.HasBetween pos stop (Encode.signed i) := by
  constructor
  · intro h
    obtain ⟨hsize, rfl, rfl⟩ := fixed_eq_ok_iff.mp h
    exact ⟨b.isSignedWord_signedAt pos, Buffer.hasAt_signed hsize, rfl⟩
  · rintro ⟨hi, hat, rfl⟩
    exact readsAt_signed hi pos b hat

theorem text_eq_ok_iff {absent : Nat → DecodeError} {s : String} :
    text absent b pos = .ok (s, stop) ↔
      IsStorable s ∧ b.HasBetween pos stop (Encode.text s) := by
  rw [← Buffer.textAt?_eq_some_iff, text]
  cases b.textAt? pos with
  | none => simp
  | some r => simp

/-- An absent text is empty, and in both cases as many bytes are taken as the written form of the
text has. -/
theorem stop_of_textOrEmpty {s : String} (h : textOrEmpty b pos = .ok (s, stop)) :
    stop = pos + 4 + s.length := by
  obtain ⟨found, after, hfound, hrest⟩ := bind_eq_ok.mp h
  unfold text? at hfound
  cases htext : b.textAt? pos with
  | some r =>
      rw [htext] at hfound
      cases hfound
      cases hrest
      have hstop := (Buffer.textAt?_eq_some_iff.mp htext).2.stop_eq
      rw [Encode.length_text] at hstop
      omega
  | none =>
      rw [htext] at hfound
      cases hfound
      -- the length field is passed over, and nothing else
      obtain ⟨_, last, hskip, hpure⟩ := bind_eq_ok.mp hrest
      cases hpure
      unfold skip at hskip
      split at hskip <;> cases hskip
      rfl

end Decoder

end PointAndClick
