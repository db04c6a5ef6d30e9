import PointAndClick.Proofs.Encoding.Header
import PointAndClick.Proofs.Encoding.Provenance

/-!
# Headers and variables of any file

A header and the variables behind it are read back from their written forms. Of a file that is no
written form two things are still known: the header takes 73 bytes and those of its texts, whether
these were there or not (`Header.stop_of_decode`), and the variable table is the longest row of
written forms that stands there (`Variable.exists_isLongest_table`).
-/

set_option autoImplicit false

namespace PointAndClick

/-! ## Where a decoder stops -/

namespace Decoder

variable {α β : Type} {b : Buffer} {pos : Nat}

/-- Whatever a decoder reads at a position, the value and the position behind it have a property. -/
def Ends (d : Decoder α) (b : Buffer) (pos : Nat) (post : α → Nat → Prop) : Prop :=
  ∀ a stop, d b pos = .ok (a, stop) → post a stop

theorem ends_pure {a : α} {post : α → Nat → Prop} (h : post a pos) :
    Ends (pure a) b pos post := by
  intro a' stop hpure
  obtain ⟨rfl, rfl⟩ := Prod.mk.inj (Except.ok.inj hpure)
  exact h

theorem ends_bind {d : Decoder α} {next : α → Decoder β} {post : β → Nat → Prop}
    (h : Ends d b pos fun a mid => Ends (next a) b mid post) : Ends (d >>= next) b pos post := by
  intro c stop hbind
  obtain ⟨a, mid, hread, hnext⟩ := bind_eq_ok.mp hbind
  exact h a mid hread c stop hnext

theorem ends_fixed {width : Nat} {value : Buffer → Nat → α} {post : α → Nat → Prop}
    (h : ∀ a, post a (pos + width)) : Ends (fixed width value) b pos post := by
  intro a stop hread
  obtain ⟨-, -, rfl⟩ := fixed_eq_ok_iff.mp hread
  exact h a

theorem ends_textOrEmpty {post : String → Nat → Prop} (h : ∀ s, post s (pos + 4 + s.length)) :
    Ends textOrEmpty b pos post := by
  intro s stop hread
  rw [stop_of_textOrEmpty hread]
  exact h s

end Decoder

/-! ## Headers -/

namespace Header

open Decoder

/-- The length of the eight texts of a header. -/
def textLength (h : Header) : Nat :=
  h.magic.length + h.version.length + h.projectName.length + h.editor.length + h.serial.length +
    h.projectId.length + h.registry.length + h.dllPath.length

/-- A header takes 73 bytes and those of its texts. -/
theorem stop_of_decode {b : Buffer} {pos stop : Nat} {h : Header}
    (hdecode : decode b pos = .ok (h, stop)) : stop = pos + 73 + h.textLength := by
  suffices hends : Ends decode b pos fun h stop => stop = pos + 73 + h.textLength from
    hends h stop hdecode
  -- one part after another: each moves on by its width, a text by that of its length field too
  refine ends_bind (ends_fixed fun flags => ?_)
  refine ends_bind (ends_textOrEmpty fun magic => ?_)
  refine ends_bind (ends_textOrEmpty fun version => ?_)
  refine ends_bind (ends_fixed fun formatType => ?_)
  refine ends_bind (ends_textOrEmpty fun projectName => ?_)
  refine ends_bind (ends_textOrEmpty fun editor => ?_)
  refine ends_bind (ends_textOrEmpty fun serial => ?_)
  refine ends_bind (ends_textOrEmpty fun projectId => ?_)
  refine ends_bind (ends_textOrEmpty fun registry => ?_)
  refine ends_bind (ends_fixed fun width => ?_)
  refine ends_bind (ends_fixed fun height => ?_)
  refine ends_bind (ends_fixed fun depth => ?_)
  refine ends_bind (ends_fixed fun flag => ?_)
  refine ends_bind (ends_fixed fun reserved₁ => ?_)
  refine ends_bind (ends_fixed fun reserved₂ => ?_)
  refine ends_bind (ends_fixed fun reserved₃ => ?_)
  refine ends_bind (ends_textOrEmpty fun dllPath => ?_)
  refine ends_bind (ends_fixed fun variableCount => ?_)
  refine ends_pure ?_
  simp only [textLength]
  omega

end Header

/-! ## Variables -/

namespace Variable

variable {b : Buffer} {pos stop : Nat}

/-- A variable is there just where its written form stands. -/
theorem at?_eq_some {name : String} {value : Int} {offset : Nat}
    (h : at? b pos = some (⟨name, value, offset⟩, stop)) :
    IsStorable (name, value) ∧ b.HasBetween pos stop (encode (name, value)) ∧ offset = pos := by
  unfold at? at h
  split at h
  · nomatch h
  · rename_i text after hname
    split at h
    · nomatch h
    · rename_i hsize
      simp only [Option.some.injEq, Prod.mk.injEq, mk.injEq] at h
      obtain ⟨⟨rfl, rfl, rfl⟩, rfl⟩ := h
      obtain ⟨hfits, hnameAt⟩ := Buffer.textAt?_eq_some_iff.mp hname
      have hvalueAt : b.HasBetween after (after + 4) (Encode.signed (b.signedAt after)) :=
        ⟨Buffer.hasAt_signed (Nat.not_lt.mp hsize), rfl⟩
      exact ⟨⟨hfits, b.isSignedWord_signedAt after⟩, hnameAt.append hvalueAt, rfl⟩

/-- Some variables have written forms, which stand in a row from a position on, and there are no
more of them than a bound allows. -/
structure IsRow (b : Buffer) (count pos : Nat) (vs : List (String × Int)) : Prop where
  length_le : vs.length ≤ count
  storable : ∀ v ∈ vs, IsStorable v
  hasAt : b.HasAt pos (encodeAll vs)

theorem isRow_nil (b : Buffer) (count pos : Nat) : IsRow b count pos [] :=
  ⟨Nat.zero_le count, by simp, b.hasAt_nil pos⟩

theorem isRow_cons_iff {count : Nat} {v : String × Int} {vs : List (String × Int)} :
    IsRow b (count + 1) pos (v :: vs) ↔
      (IsStorable v ∧ b.HasAt pos (encode v)) ∧ IsRow b count (pos + (encode v).length) vs := by
  constructor
  · rintro ⟨hlength, hstorable, hat⟩
    obtain ⟨hv, hvs⟩ := List.forall_mem_cons.mp hstorable
    obtain ⟨hat, hrest⟩ := Buffer.hasAt_append.mp hat
    exact ⟨⟨hv, hat⟩, Nat.le_of_succ_le_succ hlength, hvs, hrest⟩
  · rintro ⟨⟨hv, hat⟩, hlength, hvs, hrest⟩
    exact ⟨Nat.succ_le_succ hlength, List.forall_mem_cons.mpr ⟨hv, hvs⟩,
      Buffer.hasAt_append.mpr ⟨hat, hrest⟩⟩

/-- The longest of all such rows: each of them is a part of its beginning. -/
structure IsLongest (b : Buffer) (count pos : Nat) (vs : List (String × Int)) : Prop
    extends IsRow b count pos vs where
  isPrefix : ∀ ws, IsRow b count pos ws → ws <+: vs

/-- Where no variable is there, none is read. -/
theorem isLongest_nil {count : Nat} (h : count = 0 ∨ at? b pos = none) :
    IsLongest b count pos [] := by
  refine ⟨isRow_nil b count pos, fun ws hws => ?_⟩
  cases ws with
  | nil => exact List.prefix_refl []
  | cons w ws =>
      cases count with
      | zero => exact absurd hws.length_le (by simp)
      | succ count =>
          obtain ⟨⟨hw, hat⟩, -⟩ := isRow_cons_iff.mp hws
          rw [at?_of_hasAt hw hat] at h
          simp at h

/-- A row that begins with the variable that is there, and goes on with the longest one behind
it. -/
theorem IsLongest.cons {count : Nat} {v : String × Int} {vs : List (String × Int)}
    (hv : IsStorable v) (hat : b.HasAt pos (encode v))
    (h : IsLongest b count (pos + (encode v).length) vs) :
    IsLongest b (count + 1) pos (v :: vs) := by
  refine ⟨isRow_cons_iff.mpr ⟨⟨hv, hat⟩, h.toIsRow⟩, fun ws hws => ?_⟩
  cases ws with
  | nil => exact List.nil_prefix
  | cons w ws =>
      obtain ⟨⟨hw, hwat⟩, hrest⟩ := isRow_cons_iff.mp hws
      -- only one variable is there
      have hsame := (at?_of_hasAt hv hat).symm.trans (at?_of_hasAt hw hwat)
      simp only [Option.some.injEq, Prod.mk.injEq, mk.injEq] at hsame
      obtain rfl : v = w := Prod.ext hsame.1.1 hsame.1.2.1
      exact List.cons_prefix_cons.mpr ⟨rfl, h.isPrefix ws hrest⟩

/-- The longest row is read, where the fuel is enough for what is left of the buffer. -/
theorem exists_isLongest_collect (fuel count pos : Nat) (hfuel : b.size < pos + 8 * fuel) :
    ∃ vs, IsLongest b count pos vs ∧
      collect b fuel count pos = (placed pos vs, pos + (encodeAll vs).length) := by
  induction fuel generalizing count pos with
  | zero =>
      have hnone : at? b pos = none := by
        rw [Option.eq_none_iff_forall_not_mem]
        rintro ⟨⟨name, value, offset⟩, after⟩ hat
        obtain ⟨⟨hasAt, -⟩, -⟩ := (at?_eq_some hat).2
        have hsize := hasAt.le_size (by simp [encode, Encode.text, Encode.word])
        omega
      exact ⟨[], isLongest_nil (.inr hnone), rfl⟩
  | succ fuel ih =>
      cases count with
      | zero => exact ⟨[], isLongest_nil (.inl rfl), rfl⟩
      | succ count =>
          cases hat : at? b pos with
          | none =>
              refine ⟨[], isLongest_nil (.inr hat), ?_⟩
              rw [collect, hat]
              rfl
          | some r =>
              obtain ⟨⟨name, value, offset⟩, after⟩ := r
              obtain ⟨hv, ⟨hasAt, hafter⟩, hoffset⟩ := at?_eq_some hat
              subst hafter hoffset
              -- a variable takes the eight bytes that a step of the fuel allows for
              have hlen : 8 ≤ (encode (name, value)).length := by
                rw [length_encode]
                exact Nat.le_add_right 8 _
              obtain ⟨vs, hlongest, hrest⟩ :=
                ih count (offset + (encode (name, value)).length) (by omega)
              refine ⟨_, hlongest.cons hv hasAt, ?_⟩
              rw [collect, hat]
              simp only [hrest, placed]
              rw [encodeAll_cons, List.length_append, Nat.add_assoc]

/-- A variable takes eight bytes at least, so the fuel of a table is enough. -/
theorem exists_isLongest_table (b : Buffer) (count pos : Nat) :
    ∃ vs, IsLongest b count pos vs ∧
      table b count pos = (placed pos vs, pos + (encodeAll vs).length) :=
  exists_isLongest_collect _ count pos (by omega)

end Variable

/-! ## A header and its variables -/

/-- A header and its variables are read back from their written forms, wherever these stand, up to
the first byte behind them. Of any file, a header that is read takes 73 bytes and those of its
texts; and the variable table that is read is the longest one that stands there, and ends behind its
last variable. -/
theorem Header.decode_table :
    (∀ (before after : List UInt8) (h : Header) (vs : List (String × Int)),
      h.IsStorable → (∀ v ∈ vs, Variable.IsStorable v) → h.variableCount = vs.length →
      let b : Buffer := (before ++ (h.encode ++ Variable.encodeAll vs) ++ after).toArray
      let last := before.length + h.encode.length
      decode b before.length = .ok (h, last) ∧
        Variable.table b h.variableCount last =
          (Variable.placed last vs, last + (Variable.encodeAll vs).length)) ∧
    (∀ (b : Buffer) (pos stop : Nat) (h : Header), decode b pos = .ok (h, stop) →
      stop = pos + 73 + h.textLength) ∧
    ∀ (b : Buffer) (count pos : Nat), ∃ vs, Variable.IsLongest b count pos vs ∧
      Variable.table b count pos =
        (Variable.placed pos vs, pos + (Variable.encodeAll vs).length) := by
  refine ⟨fun before after h vs hh hvs hcount => ?_, fun b pos stop h => stop_of_decode,
    Variable.exists_isLongest_table⟩
  obtain ⟨hheader, htable⟩ := Buffer.hasAt_append.mp
    (Buffer.hasAt_of_append before (h.encode ++ Variable.encodeAll vs) after)
  refine ⟨readsAt_decode hh before.length _ hheader, ?_⟩
  rw [hcount]
  exact Variable.table_of_hasAt hvs htable

end PointAndClick
