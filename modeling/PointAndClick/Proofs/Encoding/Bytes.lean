import PointAndClick.Decoder

/-!
# The bytes that stand for words and texts

The written forms of words, signed words and texts, and what the decoders make of them. That some
bytes stand at a position of a buffer is `HasAt`; whatever else the buffer holds, a decoder that
`ReadsAt` those bytes gives its value and stops behind them.
-/

set_option autoImplicit false

namespace PointAndClick

namespace Buffer

/-! ## Bytes at a position -/

/-- Some bytes stand at a position of a buffer. -/
def HasAt (b : Buffer) (pos : Nat) (bytes : List UInt8) : Prop :=
  b.slice pos bytes.length = bytes

theorem slice_eq (b : Buffer) (pos count : Nat) :
    b.slice pos count = (b.toList.drop pos).take count := by
  simp [slice, Array.toList_extract]

theorem length_slice (b : Buffer) (pos count : Nat) :
    (b.slice pos count).length = min count (b.size - pos) := by
  simp [slice_eq]

theorem slice_add (b : Buffer) (pos m n : Nat) :
    b.slice pos (m + n) = b.slice pos m ++ b.slice (pos + m) n := by
  rw [slice_eq, slice_eq, slice_eq, List.take_add, List.drop_drop]

theorem hasAt_nil (b : Buffer) (pos : Nat) : b.HasAt pos [] := by
  simp [HasAt, slice_eq]

/-- Bytes that stand at a position are inside the buffer. -/
theorem HasAt.le_size {b : Buffer} {pos : Nat} {bytes : List UInt8} (h : b.HasAt pos bytes)
    (hne : bytes ≠ []) : pos + bytes.length ≤ b.size := by
  have hlen := congrArg List.length h
  rw [length_slice] at hlen
  have hpos : 0 < bytes.length := List.length_pos_iff.mpr hne
  omega

theorem HasAt.length_le_size {b : Buffer} {pos : Nat} {bytes : List UInt8}
    (h : b.HasAt pos bytes) : bytes.length ≤ b.size := by
  have hlen := congrArg List.length h
  rw [length_slice] at hlen
  omega

theorem hasAt_append {b : Buffer} {pos : Nat} {xs ys : List UInt8} :
    b.HasAt pos (xs ++ ys) ↔ b.HasAt pos xs ∧ b.HasAt (pos + xs.length) ys := by
  unfold HasAt
  rw [List.length_append, slice_add]
  constructor
  · intro h
    have hlen := congrArg List.length h
    simp only [List.length_append, length_slice] at hlen
    -- the first slice is as long as the first list: it is not cut short by the end of the buffer
    exact List.append_inj h (by rw [length_slice]; omega)
  · rintro ⟨hx, hy⟩
    rw [hx, hy]

theorem hasAt_cons {b : Buffer} {pos : Nat} {x : UInt8} {xs : List UInt8} :
    b.HasAt pos (x :: xs) ↔ b[pos]? = some x ∧ b.HasAt (pos + 1) xs := by
  rw [← List.singleton_append, hasAt_append]
  refine and_congr ?_ Iff.rfl
  rw [HasAt, slice_eq, List.length_singleton, List.take_one, List.head?_drop,
    Array.getElem?_toList]
  cases b[pos]? <;> simp

/-- Bytes stand where they were put. -/
theorem hasAt_of_append (before bytes after : List UInt8) :
    HasAt (before ++ bytes ++ after).toArray before.length bytes := by
  rw [HasAt, slice_eq, List.append_assoc, List.drop_left, List.take_left]

theorem HasAt.byteAt {b : Buffer} {pos : Nat} {x : UInt8} {xs : List UInt8}
    (h : b.HasAt pos (x :: xs)) : b.byteAt pos = x.toNat := by
  rw [Buffer.byteAt, (hasAt_cons.mp h).1, Option.getD_some]

end Buffer

/-! ## Written forms -/

namespace Encode

/-- A word, its lowest byte first. -/
def word (n : Nat) : List UInt8 :=
  [.ofNat n, .ofNat (n / 0x100), .ofNat (n / 0x10000), .ofNat (n / 0x1000000)]

/-- A signed word in two's complement. -/
def signed (i : Int) : List UInt8 := word (i % 0x100000000).toNat

/-- Some zero words. -/
def zeroWords (n : Nat) : List UInt8 := List.replicate (4 * n) 0

/-- The characters of a text, a byte each. -/
def chars (s : String) : List UInt8 := s.toList.map fun c => .ofNat c.toNat

/-- A text with its length before it. -/
def text (s : String) : List UInt8 := word s.length ++ chars s

@[simp] theorem length_word (n : Nat) : (word n).length = 4 := rfl

@[simp] theorem length_signed (i : Int) : (signed i).length = 4 := rfl

@[simp] theorem length_zeroWords (n : Nat) : (zeroWords n).length = 4 * n := by
  simp [zeroWords]

@[simp] theorem length_chars (s : String) : (chars s).length = s.length := by
  rw [chars, List.length_map, String.length_toList]

@[simp] theorem length_text (s : String) : (text s).length = 4 + s.length := by
  simp [text]

theorem word_ne_nil (n : Nat) : word n ≠ [] := List.cons_ne_nil _ _

theorem zeroWords_add (m n : Nat) : zeroWords (m + n) = zeroWords m ++ zeroWords n := by
  rw [zeroWords, zeroWords, zeroWords, Nat.mul_add, List.replicate_append_replicate]

theorem zeroWords_one : zeroWords 1 = word 0 := rfl

end Encode

/-- A number fits a word. -/
def IsWord (n : Nat) : Prop := n < 0x100000000

/-- A number fits a signed word. -/
def IsSignedWord (i : Int) : Prop := -0x80000000 ≤ i ∧ i < 0x80000000

/-- A text fits a length-prefixed field: it is not too long, and a byte holds each character. -/
def IsStorable (s : String) : Prop :=
  s.length ≤ Buffer.maxTextLength ∧ ∀ c ∈ s.toList, c.toNat < 0x100

instance (n : Nat) : Decidable (IsWord n) := inferInstanceAs (Decidable (_ < _))

instance (i : Int) : Decidable (IsSignedWord i) := inferInstanceAs (Decidable (_ ∧ _))

instance (s : String) : Decidable (IsStorable s) :=
  have : Decidable (∀ c ∈ s.toList, c.toNat < 0x100) := List.decidableBAll _ _
  inferInstanceAs (Decidable (_ ∧ _))

/-! ## What stands at a position -/

namespace Buffer

theorem HasAt.wordAt {b : Buffer} {pos n : Nat} (h : b.HasAt pos (Encode.word n))
    (hn : IsWord n) : b.wordAt pos = n := by
  unfold Encode.word at h
  obtain ⟨-, h1⟩ := hasAt_cons.mp h
  obtain ⟨-, h2⟩ := hasAt_cons.mp h1
  obtain ⟨-, h3⟩ := hasAt_cons.mp h2
  rw [Buffer.wordAt, halfAt, halfAt, h.byteAt, h1.byteAt, h2.byteAt, h3.byteAt]
  simp only [UInt8.toNat_ofNat']
  unfold IsWord at hn
  omega

theorem HasAt.signedAt {b : Buffer} {pos : Nat} {i : Int} (h : b.HasAt pos (Encode.signed i))
    (hi : IsSignedWord i) : b.signedAt pos = i := by
  obtain ⟨hlow, hhigh⟩ := hi
  have hword : b.wordAt pos = (i % 0x100000000).toNat :=
    HasAt.wordAt h (by unfold IsWord; omega)
  simp only [Buffer.signedAt, hword]
  split <;> omega

theorem textOf_chars {s : String} (h : ∀ c ∈ s.toList, c.toNat < 0x100) :
    textOf (Encode.chars s) = s := by
  -- a character that fits a byte is the one of that byte
  have hchar : ∀ c ∈ s.toList, (charOf ∘ fun c : Char => UInt8.ofNat c.toNat) c = c := by
    intro c hc
    rw [Function.comp_apply, charOf, UInt8.toNat_ofNat', Nat.mod_eq_of_lt (h c hc),
      Char.ofNat_toNat]
  rw [textOf, Encode.chars, List.map_map, List.map_congr_left hchar, List.map_id',
    String.ofList_toList]

theorem HasAt.textAt? {b : Buffer} {pos : Nat} {s : String} (h : b.HasAt pos (Encode.text s))
    (hs : IsStorable s) : b.textAt? pos = some (s, pos + (4 + s.length)) := by
  have hsize := h.le_size (by simp [Encode.text, Encode.word])
  rw [Encode.length_text] at hsize
  obtain ⟨hword, hchars⟩ := hasAt_append.mp h
  rw [Encode.length_word] at hchars
  -- the length is no more than a text may have, and all characters are there
  have hlong : s.length ≤ 10000 := hs.1
  have hlen : b.wordAt pos = s.length := hword.wordAt (by unfold IsWord; omega)
  rw [Buffer.textAt?, if_neg (by omega)]
  simp only [hlen, maxTextLength]
  rw [if_neg (by omega)]
  rw [HasAt, Encode.length_chars] at hchars
  rw [hchars, textOf_chars hs.2, Nat.add_assoc]

theorem HasAt.zeroWord {b : Buffer} {pos n k : Nat} (h : b.HasAt pos (Encode.zeroWords n))
    (hk : k < n) : b.wordAt (pos + 4 * k) = 0 ∧ pos + 4 * n ≤ b.size := by
  have hsize := h.le_size (by
    intro hnil
    have := congrArg List.length hnil
    simp at this
    omega)
  rw [Encode.length_zeroWords] at hsize
  -- the words before the one in question, that word, and the words behind it
  have hsplit : n = k + (1 + (n - k - 1)) := by omega
  rw [hsplit, Encode.zeroWords_add, Encode.zeroWords_add, hasAt_append, hasAt_append] at h
  have hword := h.2.1
  rw [Encode.length_zeroWords, Encode.zeroWords_one] at hword
  exact ⟨hword.wordAt (by decide), hsize⟩

end Buffer

/-! ## What the decoders make of it -/

namespace Decoder

variable {α β : Type}

/-- The decoder reads a value from some bytes at a position and stops behind them, whatever the
buffer holds besides. -/
def ReadsAt (d : Decoder α) (pos : Nat) (bytes : List UInt8) (a : α) : Prop :=
  ∀ b : Buffer, b.HasAt pos bytes → d b pos = .ok (a, pos + bytes.length)

theorem readsAt_pure (a : α) (pos : Nat) : ReadsAt (pure a) pos [] a :=
  fun _ _ => rfl

theorem ReadsAt.bind {d : Decoder α} {next : α → Decoder β} {pos : Nat} {xs ys : List UInt8}
    {a : α} {c : β} (hd : ReadsAt d pos xs a) (hnext : ReadsAt (next a) (pos + xs.length) ys c) :
    ReadsAt (d >>= next) pos (xs ++ ys) c := by
  intro b h
  obtain ⟨hx, hy⟩ := Buffer.hasAt_append.mp h
  rw [List.length_append, ← Nat.add_assoc]
  exact bind_eq_ok.mpr ⟨a, _, hd b hx, hnext b hy⟩

/-- The last step of a decoder that puts its value together. -/
theorem ReadsAt.map {d : Decoder α} {f : α → β} {pos : Nat} {xs : List UInt8} {a : α}
    (hd : ReadsAt d pos xs a) : ReadsAt (d >>= fun x => pure (f x)) pos xs (f a) := by
  rw [← List.append_nil xs]
  exact hd.bind (readsAt_pure (f a) _)

/-- A step that takes no bytes. -/
theorem ReadsAt.bind_nil {d : Decoder α} {next : α → Decoder β} {pos : Nat} {ys : List UInt8}
    {a : α} {c : β} (hd : ReadsAt d pos [] a) (hnext : ReadsAt (next a) pos ys c) :
    ReadsAt (d >>= next) pos ys c :=
  ReadsAt.bind hd hnext

theorem readsAt_position (pos : Nat) : ReadsAt position pos [] pos :=
  fun _ _ => rfl

theorem readsAt_skip {count : Nat} {xs : List UInt8} (hlen : xs.length = count)
    (hcount : 0 < count) (pos : Nat) : ReadsAt (skip count) pos xs () := by
  intro b h
  have hsize := h.le_size (List.ne_nil_of_length_pos (by omega))
  rw [skip, if_neg (by omega), hlen]

/-- A value of fixed width that the bytes determine. -/
theorem readsAt_fixed {width pos : Nat} {value : Buffer → Nat → α} {xs : List UInt8} {a : α}
    (hlen : xs.length = width) (hwidth : 0 < width)
    (hvalue : ∀ b : Buffer, b.HasAt pos xs → value b pos = a) :
    ReadsAt (fixed width value) pos xs a := by
  intro b h
  have hsize := h.le_size (List.ne_nil_of_length_pos (by omega))
  rw [fixed, if_neg (by omega), hvalue b h, hlen]

theorem readsAt_bytes {count : Nat} {xs : List UInt8} (hlen : xs.length = count)
    (hcount : 0 < count) (pos : Nat) : ReadsAt (bytes count) pos xs xs := by
  refine readsAt_fixed hlen hcount fun b h => ?_
  rw [← hlen]
  exact h

theorem readsAt_byte (x : UInt8) (pos : Nat) : ReadsAt byte pos [x] x.toNat :=
  readsAt_fixed rfl (by decide) fun _ h => h.byteAt

theorem readsAt_word {n : Nat} (hn : IsWord n) (pos : Nat) : ReadsAt word pos (Encode.word n) n :=
  readsAt_fixed rfl (by decide) fun _ h => h.wordAt hn

theorem readsAt_signed {i : Int} (hi : IsSignedWord i) (pos : Nat) :
    ReadsAt signed pos (Encode.signed i) i :=
  readsAt_fixed rfl (by decide) fun _ h => h.signedAt hi

theorem readsAt_text {s : String} (hs : IsStorable s) (absent : Nat → DecodeError) (pos : Nat) :
    ReadsAt (text absent) pos (Encode.text s) s := by
  intro b h
  rw [text, h.textAt? hs, Encode.length_text]

theorem readsAt_textOrEmpty {s : String} (hs : IsStorable s) (pos : Nat) :
    ReadsAt textOrEmpty pos (Encode.text s) s := by
  intro b h
  refine bind_eq_ok.mpr ⟨some s, pos + (Encode.text s).length, ?_, rfl⟩
  rw [text?, h.textAt? hs, Encode.length_text]

end Decoder

end PointAndClick
