import Mathlib.Data.List.TakeWhile
import Mathlib.Order.Bounds.Defs
import PointAndClick.Proofs.Encoding.Provenance
import PointAndClick.Proofs.Encoding.SceneTable

/-!
# Finding and reading descriptors

The search for the next descriptor, the test whether one may start at a position, and the reader
each look at the name, the lengths and the end of the buffer in a way of their own. They agree
(`Descriptor.next?_agrees_decode`): the search gives the first position that passes the test, and a
position passes it just where the reader gives a plausible descriptor that ends inside the buffer.
-/

set_option autoImplicit false

namespace PointAndClick

open Buffer Decoder

/-! ## Printable texts -/

/-- The characters of a text are printable just when its bytes are. -/
theorem forall_isPrintable_textOf_iff {bytes : List UInt8} :
    (∀ c ∈ (textOf bytes).toList, IsPrintable c) ↔
      bytes.all Descriptor.isPrintableByte = true := by
  have hchar (x : UInt8) : IsPrintable (charOf x) ↔ Descriptor.isPrintableByte x = true := by
    rw [IsPrintable, toNat_charOf, UInt8.ofNat_toNat, and_iff_right x.toNat_lt]
  rw [textOf, String.toList_ofList, List.forall_mem_map, List.all_eq_true]
  exact forall₂_congr fun x _ => hchar x

theorem textOf_eq_empty_iff {bytes : List UInt8} : textOf bytes = "" ↔ bytes = [] := by
  rw [textOf, String.ofList_eq_empty_iff, List.map_eq_nil_iff]

/-! ## Padded names -/

namespace Decoder

/-- Nothing but zeros is taken from the end. -/
theorem exists_dropZerosEnd_append (bytes : List UInt8) :
    ∃ n, bytes = dropZerosEnd bytes ++ List.replicate n 0 := by
  induction bytes with
  | nil => exact ⟨0, rfl⟩
  | cons x xs ih =>
      obtain ⟨n, hn⟩ := ih
      rw [dropZerosEnd]
      cases hxs : dropZerosEnd xs with
      | nil =>
          rw [hxs, List.nil_append] at hn
          by_cases hx : x = 0
          · exact ⟨n + 1, by rw [if_pos hx, hn, hx]; rfl⟩
          · exact ⟨n, by rw [if_neg hx, hn]; rfl⟩
      | cons y ys =>
          rw [hxs] at hn
          exact ⟨n, congrArg (x :: ·) hn⟩

/-! ## Backgrounds -/

variable {b : Buffer} {pos stop : Nat} {s : String}

theorem textOrEmpty_of_textAt? (h : b.textAt? pos = some (s, stop)) :
    textOrEmpty b pos = .ok (s, stop) :=
  bind_eq_ok.mpr ⟨some s, stop, by rw [text?, h], rfl⟩

/-- A text that is read with the length that its field announces is there. -/
theorem textAt?_of_textOrEmpty (h : textOrEmpty b pos = .ok (s, stop))
    (hlength : b.wordAt pos = s.length) : b.textAt? pos = some (s, stop) := by
  obtain ⟨found, after, hfound, hrest⟩ := bind_eq_ok.mp h
  rw [text?] at hfound
  cases htext : b.textAt? pos with
  | some r =>
      rw [htext] at hfound
      cases hfound
      cases hrest
      rfl
  -- an absent text is read as an empty one, and a field that announces an empty text is one
  | none =>
      rw [htext] at hfound
      cases hfound
      obtain ⟨_, last, hskip, hpure⟩ := bind_eq_ok.mp hrest
      cases hpure
      rw [skip] at hskip
      split at hskip
      · cases hskip
      · have hzero : b.wordAt pos = 0 := hlength
        simp only [textAt?, hzero] at htext
        rw [if_neg (by omega), if_neg (by omega)] at htext
        cases htext

end Decoder

namespace Descriptor

variable {b : Buffer} {index pos stop : Nat} {d : Descriptor}

/-- The bytes are a padded name just when a printable one is left without the zeros at their
end. -/
theorem isPaddedName_iff {bytes : List UInt8} :
    isPaddedName bytes = true ↔
      dropZerosEnd bytes ≠ [] ∧ (dropZerosEnd bytes).all isPrintableByte = true := by
  constructor
  · intro h
    simp only [isPaddedName, Bool.and_eq_true, Bool.not_eq_true', List.isEmpty_eq_false_iff] at h
    obtain ⟨⟨hne, hprintable⟩, hzeros⟩ := h
    have hrest : bytes.dropWhile (· ≠ 0) = List.replicate (bytes.dropWhile (· ≠ 0)).length 0 :=
      List.eq_replicate_iff.mpr ⟨rfl, fun x hx => by simpa using List.all_eq_true.mp hzeros x hx⟩
    have hname : dropZerosEnd bytes = bytes.takeWhile (· ≠ 0) :=
      calc dropZerosEnd bytes
          = dropZerosEnd (bytes.takeWhile (· ≠ 0) ++ bytes.dropWhile (· ≠ 0)) := by
            rw [List.takeWhile_append_dropWhile]
        _ = bytes.takeWhile (· ≠ 0) := by
            rw [hrest]
            exact dropZerosEnd_append (fun x hx => by simpa using List.mem_takeWhile_imp hx) _
    rw [hname]
    exact ⟨hne, hprintable⟩
  · rintro ⟨hne, hprintable⟩
    obtain ⟨n, hn⟩ := exists_dropZerosEnd_append bytes
    rw [hn]
    exact isPaddedName_append hne hprintable n

/-! ## What the reader makes of a position -/

/-- A descriptor with a name that is not empty, a flag that is in use, and printable texts. -/
structure IsPlausible (d : Descriptor) : Prop where
  name_ne : d.name ≠ ""
  name_printable : ∀ c ∈ d.name.toList, IsPrintable c
  flag_le : d.flag ≤ maxFlag
  background_printable : ∀ c ∈ d.background.toList, IsPrintable c

/-- The descriptor that is read at a position, with its background and the position behind it. -/
def readAt (b : Buffer) (index pos : Nat) (background : String) (stop : Nat) : Descriptor where
  index := index
  name := textOf (dropZerosEnd (b.slice pos nameWidth))
  flag := b.byteAt (pos + 50)
  background := background
  offset := pos
  stop := stop

/-- A descriptor is read where its background can be read and is followed by enough bytes. -/
theorem decode_eq_ok_iff :
    decode index b pos = .ok (d, stop) ↔
      pos + 51 ≤ b.size ∧ ∃ background mid, textOrEmpty b (pos + 51) = .ok (background, mid) ∧
        mid + reservedWidth ≤ b.size ∧ stop = mid + reservedWidth ∧
          d = readAt b index pos background stop := by
  constructor
  · intro h
    obtain ⟨start, _, hstart, h⟩ := bind_eq_ok.mp h
    cases hstart
    obtain ⟨name, pos₁, hname, h⟩ := bind_eq_ok.mp h
    obtain ⟨bytes, pos₂, hbytes, hpure⟩ := bind_eq_ok.mp hname
    cases hpure
    obtain ⟨flag, pos₃, hflag, h⟩ := bind_eq_ok.mp h
    obtain ⟨background, mid, hbackground, h⟩ := bind_eq_ok.mp h
    obtain ⟨_, pos₄, hskip, h⟩ := bind_eq_ok.mp h
    cases h
    obtain ⟨-, rfl, rfl⟩ := fixed_eq_ok_iff.mp hbytes
    obtain ⟨hsize, rfl, rfl⟩ := fixed_eq_ok_iff.mp hflag
    rw [skip] at hskip
    split at hskip
    · cases hskip
    · cases hskip
      exact ⟨hsize, background, mid, hbackground, by omega, rfl, rfl⟩
  · rintro ⟨hsize, background, mid, hbackground, hmid, rfl, rfl⟩
    have hname : paddedText nameWidth b pos =
        .ok (textOf (dropZerosEnd (b.slice pos nameWidth)), pos + 50) :=
      bind_eq_ok.mpr ⟨_, _, fixed_eq_ok_iff.mpr ⟨Nat.le_of_succ_le hsize, rfl, rfl⟩, rfl⟩
    have hflag : byte b (pos + 50) = .ok (b.byteAt (pos + 50), pos + 51) :=
      fixed_eq_ok_iff.mpr ⟨hsize, rfl, rfl⟩
    have hskip : skip reservedWidth b mid = .ok ((), mid + reservedWidth) :=
      if_neg (Nat.not_lt.mpr hmid)
    refine bind_eq_ok.mpr ⟨pos, pos, rfl, bind_eq_ok.mpr ⟨_, _, hname, ?_⟩⟩
    refine bind_eq_ok.mpr ⟨_, _, hflag, bind_eq_ok.mpr ⟨_, _, hbackground, ?_⟩⟩
    exact bind_eq_ok.mpr ⟨_, _, hskip, rfl⟩

/-! ## What the test makes of it -/

/-- A position passes the test where a printable name, a flag in use and a printable background
stand, with the reserved bytes behind it. -/
theorem looksLike_iff :
    looksLike b pos = true ↔
      isPaddedName (b.slice pos nameWidth) = true ∧ b.byteAt (pos + 50) ≤ maxFlag ∧
        ∃ background mid, b.textAt? (pos + 51) = some (background, mid) ∧
          mid + reservedWidth ≤ b.size ∧ ∀ c ∈ background.toList, IsPrintable c := by
  constructor
  · intro h
    simp only [looksLike, Bool.and_eq_true, decide_eq_true_eq] at h
    obtain ⟨⟨⟨⟨⟨hsize, hname⟩, hflag⟩, hlength⟩, hroom⟩, hbackground⟩ := h
    refine ⟨hname, hflag, _, _, ?_, hroom, forall_isPrintable_textOf_iff.mpr hbackground⟩
    rw [textAt?, if_neg (by omega), if_neg (by omega)]
  · rintro ⟨hname, hflag, background, mid, htext, hroom, hprintable⟩
    simp only [textAt?] at htext
    split at htext
    · cases htext
    · split at htext
      · cases htext
      · cases htext
        simp only [looksLike, Bool.and_eq_true, decide_eq_true_eq]
        have hbackground := forall_isPrintable_textOf_iff.mp hprintable
        exact ⟨⟨⟨⟨⟨by omega, hname⟩, hflag⟩, by omega⟩, hroom⟩, hbackground⟩

/-- A position passes the test just where the reader gives a plausible descriptor whose background
is all there. -/
theorem looksLike_iff_decode :
    looksLike b pos = true ↔
      ∃ d, decode index b pos = .ok (d, pos + (87 + d.background.length)) ∧ d.IsPlausible ∧
        b.wordAt (pos + 51) = d.background.length := by
  rw [looksLike_iff]
  constructor
  · rintro ⟨hname, hflag, background, mid, htext, hroom, hprintable⟩
    obtain ⟨hstorable, hat, hmid⟩ := textAt?_eq_some_iff.mp htext
    obtain ⟨hword, -⟩ := hasAt_append.mp hat
    rw [Encode.length_text] at hmid
    have hreserved : reservedWidth = 32 := rfl
    have hlong : background.length ≤ 10000 := hstorable.1
    have hstop : pos + (87 + background.length) = mid + reservedWidth := by omega
    refine ⟨readAt b index pos background (mid + reservedWidth), ?_, ?_, ?_⟩
    · exact decode_eq_ok_iff.mpr
        ⟨by omega, background, mid, textOrEmpty_of_textAt? htext, hroom, hstop,
          congrArg (readAt b index pos background) hstop.symm⟩
    · obtain ⟨hne, hnamePrintable⟩ := isPaddedName_iff.mp hname
      exact ⟨fun h => hne (textOf_eq_empty_iff.mp h),
        forall_isPrintable_textOf_iff.mpr hnamePrintable, hflag, hprintable⟩
    · exact hword.wordAt (by unfold IsWord; omega)
  · rintro ⟨d, hdecode, hplausible, hlength⟩
    obtain ⟨-, background, mid, hbackground, hroom, hstop, hread⟩ := decode_eq_ok_iff.mp hdecode
    rw [hstop] at hread
    subst hread
    obtain ⟨hne, hnamePrintable, hflag, hprintable⟩ := hplausible
    refine ⟨isPaddedName_iff.mpr ⟨fun h => hne (textOf_eq_empty_iff.mpr h), ?_⟩, hflag,
      background, mid, textAt?_of_textOrEmpty hbackground hlength, hroom, hprintable⟩
    exact forall_isPrintable_textOf_iff.mp hnamePrintable

/-! ## What the search finds -/

theorem looksLike_eq_false_of_search {count : Nat} (h : search b count pos = none) :
    ∀ p, pos ≤ p → p < pos + count → looksLike b p = false := by
  induction count generalizing pos with
  | zero => exact fun p hle hlt => absurd hlt (Nat.not_lt.mpr hle)
  | succ count ih =>
      rw [search_succ] at h
      intro p hle hlt
      cases hlooks : looksLike b pos with
      | true =>
          rw [hlooks, if_pos rfl] at h
          nomatch h
      | false =>
          rw [hlooks, if_neg Bool.false_ne_true] at h
          rcases Nat.eq_or_lt_of_le hle with rfl | hlater
          · exact hlooks
          · exact ih h p hlater (by omega)

/-- Where the search gives nothing, there is nothing to be found, at the end of the buffer neither:
what passes the test has more bytes behind it than the search leaves out. -/
theorem looksLike_eq_false_of_next? {start p : Nat} (h : next? b start = none) (hp : start ≤ p) :
    looksLike b p = false := by
  refine Bool.eq_false_iff.mpr fun hlooks => ?_
  have hsize := le_size_of_looksLike hlooks
  have hwidth : nameWidth = 50 := rfl
  have hfalse := looksLike_eq_false_of_search h p hp (by omega)
  rw [hlooks] at hfalse
  nomatch hfalse

/-- The search for a descriptor gives the first position that passes the test, if there is one; and
a position passes it just where the reader gives a plausible descriptor, takes the 87 bytes of its
fixed parts and those of its background, and the background is all there. -/
theorem next?_agrees_decode (b : Buffer) :
    (∀ start, match next? b start with
      | some q => IsLeast {p | start ≤ p ∧ looksLike b p = true} q
      | none => ∀ p, start ≤ p → looksLike b p = false) ∧
    ∀ pos index, looksLike b pos = true ↔
      ∃ d, decode index b pos = .ok (d, pos + (87 + d.background.length)) ∧ d.IsPlausible ∧
        b.wordAt (pos + 51) = d.background.length := by
  refine ⟨fun start => ?_, fun pos index => looksLike_iff_decode⟩
  cases hnext : next? b start with
  | some q =>
      obtain ⟨hle, -, hlooks, hbefore⟩ := search_eq_some_iff.mp hnext
      refine ⟨⟨hle, hlooks⟩, fun p hp => Nat.le_of_not_lt fun hlt => ?_⟩
      have hfalse := hbefore p hp.1 hlt
      rw [hp.2] at hfalse
      nomatch hfalse
  | none =>
      intro p hp
      exact looksLike_eq_false_of_next? hnext hp

/-- Four bytes before a descriptor are passed over. -/
example : next? (#[1, 2, 3, 4] ++ "Garden".toUTF8.data ++ Array.replicate 81 0) 0 = some 4 := by
  decide +kernel

end Descriptor

end PointAndClick
