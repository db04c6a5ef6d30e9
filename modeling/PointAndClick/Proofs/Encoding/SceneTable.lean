import PointAndClick.Proofs.Decoding.Progress
import PointAndClick.Proofs.Encoding.Record

/-!
# The bytes that stand for scene tables

A table is written as the number of its scenes and, for each, its descriptor and its records. The
records of a scene carry no length: they end where the next descriptor is found, which is the first
position that looks like one. A table is therefore read back as it was written just when no
position among the records of a scene, the last one apart, looks like a descriptor.
-/

set_option autoImplicit false

namespace PointAndClick

open Buffer Decoder

/-! ## Written forms -/

/-- A byte holds the character, and it is no control character. -/
def IsPrintable (c : Char) : Prop :=
  c.toNat < 0x100 ∧ Descriptor.isPrintableByte (.ofNat c.toNat) = true

instance (c : Char) : Decidable (IsPrintable c) := inferInstanceAs (Decidable (_ ∧ _))

instance (s : String) : Decidable (∀ c ∈ s.toList, IsPrintable c) := List.decidableBAll _ _

/-- The record is a command with a printable text, or a shape. -/
def Payload.IsPlain : Payload → Prop
  | .wrapper _ text | .complex _ text | .simple _ text => ∀ c ∈ text.toList, IsPrintable c
  | .shape .. => True
  | .null | .marker => False

instance : (p : Payload) → Decidable p.IsPlain
  | .wrapper .. | .complex .. | .simple .. => inferInstanceAs (Decidable (∀ c ∈ _, _))
  | .shape .. => inferInstanceAs (Decidable True)
  | .null | .marker => inferInstanceAs (Decidable False)

/-- A scene of a table and its records. -/
structure TableEntry where
  name : String
  flag : UInt8
  background : String
  reserved : List UInt8
  records : List Payload
  name_pos : 0 < name.length
  name_le : name.length ≤ Descriptor.nameWidth
  name_printable : ∀ c ∈ name.toList, IsPrintable c
  flag_le : flag.toNat ≤ Descriptor.maxFlag
  background_le : background.length ≤ Buffer.maxTextLength
  background_printable : ∀ c ∈ background.toList, IsPrintable c
  length_reserved : reserved.length = Descriptor.reservedWidth
  storable : ∀ p ∈ records, p.IsStorable

namespace TableEntry

/-- A name padded with zeros. -/
def encodeName (e : TableEntry) : List UInt8 :=
  Encode.chars e.name ++ List.replicate (Descriptor.nameWidth - e.name.length) 0

/-- A descriptor. -/
def encodeHead (e : TableEntry) : List UInt8 :=
  e.encodeName ++ ([e.flag] ++ (Encode.text e.background ++ e.reserved))

/-- A scene. -/
def encode (e : TableEntry) : List UInt8 := e.encodeHead ++ Payload.encodeAll e.records

/-- Some scenes in a row. -/
def encodeAll (es : List TableEntry) : List UInt8 := es.flatMap encode

@[simp] theorem encodeAll_nil : encodeAll [] = [] := rfl

@[simp] theorem encodeAll_cons (e : TableEntry) (es : List TableEntry) :
    encodeAll (e :: es) = e.encode ++ encodeAll es := rfl

/-- The position of the records of a scene at a position. -/
def recordsPos (e : TableEntry) (pos : Nat) : Nat := pos + e.encodeHead.length

/-- The descriptor of a scene at a position. -/
def descriptor (e : TableEntry) (pos index : Nat) : Descriptor where
  index := index
  name := e.name
  flag := e.flag.toNat
  background := e.background
  offset := pos
  stop := e.recordsPos pos

/-- What a flat run of the scene's own records is put together to. -/
def assembled (e : TableEntry) (pos : Nat) : Assembler :=
  (((Record.placed (e.recordsPos pos) e.records).filter Record.isKept).foldl Assembler.add
    { flat := true }).finish

/-- The scene at a position. -/
def scene (e : TableEntry) (pos index : Nat) : Scene where
  index := index
  name := e.name
  flag := e.flag.toNat
  background := e.background
  hotspots := (e.assembled pos).hotspots
  onEnter := (e.assembled pos).preamble
  offset := pos

/-- The descriptors of some scenes in a row, the first one at a position and with an index. -/
def descriptors : Nat → Nat → List TableEntry → List Descriptor
  | _, _, [] => []
  | pos, index, e :: es =>
      e.descriptor pos index :: descriptors (pos + e.encode.length) (index + 1) es

/-- Some scenes in a row, the first one at a position and with an index. -/
def scenes : Nat → Nat → List TableEntry → List Scene
  | _, _, [] => []
  | pos, index, e :: es => e.scene pos index :: scenes (pos + e.encode.length) (index + 1) es

end TableEntry

/-- No position among the records of a scene, the last one apart, looks like a descriptor. -/
def TableEntry.Unmistakable (b : Buffer) : Nat → List TableEntry → Prop
  | _, [] => True
  | _, [_] => True
  | pos, e :: next :: es =>
      (∀ p, e.recordsPos pos ≤ p → p < pos + e.encode.length →
        Descriptor.looksLike b p = false) ∧
      Unmistakable b (pos + e.encode.length) (next :: es)

/-- A scene table. -/
structure StoredTable where
  entries : List TableEntry
  length_isWord : IsWord entries.length

namespace StoredTable

/-- A table: the number of its scenes, and the scenes. -/
def encode (t : StoredTable) : List UInt8 :=
  Encode.word t.entries.length ++ TableEntry.encodeAll t.entries

/-- The table that stands at a position. -/
def table (t : StoredTable) (pos : Nat) : SceneTable where
  count := t.entries.length
  descriptors := TableEntry.descriptors (pos + 4) 0 t.entries
  scenes := TableEntry.scenes (pos + 4) 0 t.entries

end StoredTable

/-! ## Reading a descriptor -/

namespace TableEntry

theorem length_chars_name (e : TableEntry) :
    (Encode.chars e.name).length + (Descriptor.nameWidth - e.name.length) =
      Descriptor.nameWidth := by
  have hle := e.name_le
  rw [Encode.length_chars]
  omega

@[simp] theorem length_encodeName (e : TableEntry) :
    e.encodeName.length = Descriptor.nameWidth := by
  rw [encodeName, List.length_append, List.length_replicate, e.length_chars_name]

theorem length_encodeHead (e : TableEntry) : e.encodeHead.length = 87 + e.background.length := by
  have hreserved : e.reserved.length = 32 := e.length_reserved
  simp only [encodeHead, List.length_append, length_encodeName, List.length_singleton,
    Encode.length_text, hreserved, Descriptor.nameWidth]
  omega

end TableEntry

theorem Encode.isPrintableByte_of_mem_chars {s : String} (h : ∀ c ∈ s.toList, IsPrintable c)
    {x : UInt8} (hx : x ∈ Encode.chars s) : Descriptor.isPrintableByte x = true := by
  obtain ⟨c, hc, rfl⟩ := List.mem_map.mp hx
  exact (h c hc).2

theorem Descriptor.ne_zero_of_isPrintableByte {x : UInt8}
    (h : Descriptor.isPrintableByte x = true) : x ≠ 0 := by
  rintro rfl
  exact absurd h (by decide)

/-- A printable name with zeros behind it is a padded one. -/
theorem Descriptor.isPaddedName_append {name : List UInt8} (hne : name ≠ [])
    (hprintable : name.all isPrintableByte = true) (n : Nat) :
    isPaddedName (name ++ List.replicate n 0) = true := by
  have hzero : ∀ x ∈ name, decide (x ≠ 0) = true := fun x hx =>
    decide_eq_true (ne_zero_of_isPrintableByte (List.all_eq_true.mp hprintable x hx))
  -- the name ends at the first zero byte, behind which there are only zeros
  have htake : (name ++ List.replicate n 0).takeWhile (· ≠ 0) = name := by
    rw [List.takeWhile_append_of_pos hzero]
    simp
  have hdrop : (name ++ List.replicate n 0).dropWhile (· ≠ 0) = List.replicate n 0 := by
    rw [List.dropWhile_append_of_pos hzero]
    simp
  simp only [isPaddedName, htake, hdrop, List.isEmpty_eq_false_iff.mpr hne, hprintable]
  simp

namespace Decoder

theorem dropZerosEnd_replicate (n : Nat) : dropZerosEnd (List.replicate n 0) = [] := by
  induction n with
  | zero => rfl
  | succ n ih => simp [List.replicate_succ, dropZerosEnd, ih]

theorem dropZerosEnd_append {xs : List UInt8} (hxs : ∀ x ∈ xs, x ≠ 0) (n : Nat) :
    dropZerosEnd (xs ++ List.replicate n 0) = xs := by
  induction xs with
  | nil => exact dropZerosEnd_replicate n
  | cons x xs ih =>
      have ih := ih fun y hy => hxs y (List.mem_cons_of_mem x hy)
      have hx := hxs x List.mem_cons_self
      rw [List.cons_append, dropZerosEnd, ih]
      cases xs with
      -- a byte that only zeros follow is kept if it is none itself
      | nil => simp [hx]
      | cons y ys => rfl

end Decoder

namespace TableEntry

/-- A descriptor is read back from its written form. -/
theorem readsAt_decode (e : TableEntry) (pos index : Nat) :
    ReadsAt (Descriptor.decode index) pos e.encodeHead (e.descriptor pos index) := by
  have hname : textOf (dropZerosEnd e.encodeName) = e.name := by
    rw [encodeName, dropZerosEnd_append, textOf_chars fun c hc => (e.name_printable c hc).1]
    intro x hx
    exact Descriptor.ne_zero_of_isPrintableByte
      (Encode.isPrintableByte_of_mem_chars e.name_printable hx)
  have hpadded : ReadsAt (paddedText Descriptor.nameWidth) pos e.encodeName e.name := by
    have hread := (readsAt_bytes e.length_encodeName (by decide) pos).map
      (f := fun bytes => textOf (dropZerosEnd bytes))
    rwa [hname] at hread
  have hbackground : IsStorable e.background :=
    ⟨e.background_le, fun c hc => (e.background_printable c hc).1⟩
  refine (readsAt_position pos).bind_nil (hpadded.bind ?_)
  refine (readsAt_byte e.flag _).bind ?_
  refine (readsAt_textOrEmpty hbackground _).bind ?_
  rw [← List.append_nil e.reserved]
  refine (readsAt_skip e.length_reserved (by decide) _).bind ?_
  refine (readsAt_position _).bind_nil ?_
  have hstop : pos + e.encodeName.length + [e.flag].length + (Encode.text e.background).length +
      e.reserved.length = e.recordsPos pos := by
    simp only [recordsPos, encodeHead, List.length_append]
    omega
  rw [hstop]
  exact readsAt_pure _ _

theorem isPaddedName_encodeName (e : TableEntry) :
    Descriptor.isPaddedName e.encodeName = true := by
  refine Descriptor.isPaddedName_append (List.ne_nil_of_length_pos ?_) ?_ _
  · rw [Encode.length_chars]
    exact e.name_pos
  · exact List.all_eq_true.mpr fun x hx =>
      Encode.isPrintableByte_of_mem_chars e.name_printable hx

/-- A descriptor looks like one. -/
theorem looksLike {b : Buffer} {e : TableEntry} {pos : Nat} (h : b.HasAt pos e.encodeHead) :
    Descriptor.looksLike b pos = true := by
  have hlen := e.length_encodeHead
  have hsize := h.le_size (List.ne_nil_of_length_pos (by omega))
  have hword : IsWord e.background.length := by
    have hle : e.background.length ≤ 10000 := e.background_le
    unfold IsWord
    omega
  obtain ⟨hname, hrest⟩ := hasAt_append.mp h
  obtain ⟨hflag, hrest⟩ := hasAt_append.mp hrest
  obtain ⟨htext, -⟩ := hasAt_append.mp hrest
  obtain ⟨hcount, hchars⟩ := hasAt_append.mp htext
  rw [length_encodeName] at hflag hcount hchars
  have hslice : b.slice pos Descriptor.nameWidth = e.encodeName := by
    rw [← e.length_encodeName]
    exact hname
  have hbyte : b.byteAt (pos + 50) = e.flag.toNat := hflag.byteAt
  have hbackground : b.wordAt (pos + 51) = e.background.length := hcount.wordAt hword
  have hresource : b.slice (pos + 55) e.background.length = Encode.chars e.background := by
    rw [← Encode.length_chars e.background]
    exact hchars
  have hprintable : (Encode.chars e.background).all Descriptor.isPrintableByte = true :=
    List.all_eq_true.mpr fun x hx =>
      Encode.isPrintableByte_of_mem_chars e.background_printable hx
  have hreserved : Descriptor.reservedWidth = 32 := rfl
  simp only [Descriptor.looksLike, hslice, hbyte, hbackground, hresource, hprintable,
    e.isPaddedName_encodeName, Bool.and_true, Bool.and_eq_true, decide_eq_true_eq]
  exact ⟨⟨⟨by omega, e.flag_le⟩, e.background_le⟩, by omega⟩

end TableEntry

/-! ## Finding the next descriptor -/

namespace Descriptor

theorem search_eq_some_iff {b : Buffer} {count pos q : Nat} :
    search b count pos = some q ↔
      pos ≤ q ∧ q < pos + count ∧ looksLike b q = true ∧
        ∀ p, pos ≤ p → p < q → looksLike b p = false := by
  induction count generalizing pos with
  | zero =>
      simp only [search]
      constructor
      · intro h
        cases h
      · rintro ⟨h₁, h₂, -⟩
        omega
  | succ count ih =>
      rw [search_succ]
      cases hlooks : looksLike b pos with
      | true =>
          rw [if_pos rfl, Option.some.injEq]
          constructor
          · rintro rfl
            exact ⟨Nat.le_refl _, by omega, hlooks, fun p h₁ h₂ => by omega⟩
          · rintro ⟨h₁, -, -, hbefore⟩
            by_cases heq : pos = q
            · exact heq
            · have hfalse := hbefore pos (Nat.le_refl _) (by omega)
              rw [hlooks] at hfalse
              cases hfalse
      | false =>
          -- the position itself is not the one, and need not be looked at again
          rw [if_neg (by decide), ih]
          constructor
          · rintro ⟨h₁, h₂, h₃, hbefore⟩
            refine ⟨by omega, by omega, h₃, fun p hp hq => ?_⟩
            by_cases heq : p = pos
            · rw [heq]
              exact hlooks
            · exact hbefore p (by omega) hq
          · rintro ⟨h₁, h₂, h₃, hbefore⟩
            have hne : pos ≠ q := by
              rintro rfl
              rw [hlooks] at h₃
              cases h₃
            exact ⟨by omega, by omega, h₃, fun p hp hq => hbefore p (by omega) hq⟩

/-- The next descriptor is the one that stands at a position just when none is seen before. -/
theorem next?_eq_some_iff {b : Buffer} {start q : Nat} (hle : start ≤ q)
    (hlooks : looksLike b q = true) :
    next? b start = some q ↔ ∀ p, start ≤ p → p < q → looksLike b p = false := by
  have hsize := le_size_of_looksLike hlooks
  have hwidth : nameWidth = 50 := rfl
  rw [next?, search_eq_some_iff]
  constructor
  · rintro ⟨-, -, -, hbefore⟩
    exact hbefore
  · intro hbefore
    exact ⟨hle, by omega, hlooks, hbefore⟩

end Descriptor

namespace TableEntry

theorem length_le_length_encodeAll (es : List TableEntry) :
    87 * es.length ≤ (encodeAll es).length := by
  induction es with
  | nil => exact Nat.le_refl _
  | cons e es ih =>
      have hlen := e.length_encodeHead
      rw [encodeAll_cons, List.length_append, List.length_cons, encode, List.length_append]
      omega

theorem recordsPos_le (e : TableEntry) (pos : Nat) : e.recordsPos pos ≤ pos + e.encode.length := by
  rw [recordsPos, encode, List.length_append]
  omega

/-- Behind the descriptor of a scene the descriptors of the other scenes are found just when no
position among its records looks like one, and none among theirs. -/
theorem collect_eq_iff {b : Buffer} {e : TableEntry} {es : List TableEntry} {pos : Nat}
    (h : b.HasAt pos (encodeAll (e :: es))) {fuel : Nat} (hfuel : es.length ≤ fuel) (index : Nat) :
    Descriptor.collect b fuel es.length (index + 1) (e.recordsPos pos) =
        descriptors (pos + e.encode.length) (index + 1) es ↔
      Unmistakable b pos (e :: es) := by
  induction es generalizing e pos fuel index with
  | nil =>
      have hnil : Descriptor.collect b fuel 0 (index + 1) (e.recordsPos pos) = [] := by
        cases fuel <;> rfl
      simp only [List.length_nil, hnil, descriptors, Unmistakable]
  | cons next es ih =>
      cases fuel with
      | zero => simp at hfuel
      | succ fuel =>
          obtain ⟨-, hrest⟩ := hasAt_append.mp h
          have hhead := (hasAt_append.mp (hasAt_append.mp hrest).1).1
          have ih := ih hrest (Nat.le_of_succ_le_succ hfuel) (index + 1)
          have hnext := Descriptor.next?_eq_some_iff (e.recordsPos_le pos) (looksLike hhead)
          rw [List.length_cons, Descriptor.collect, if_neg (by omega), Unmistakable]
          by_cases hclear : ∀ p, e.recordsPos pos ≤ p → p < pos + e.encode.length →
              Descriptor.looksLike b p = false
          · rw [hnext.mpr hclear, and_iff_right hclear]
            simp only [next.readsAt_decode _ (index + 1) b hhead]
            rw [descriptors, List.cons.injEq, and_iff_right rfl]
            exact ih
          · refine iff_of_false (fun heq => hclear (hnext.mp ?_)) fun hboth => hclear hboth.1
            -- the descriptor that is found elsewhere gives its own position away
            cases hfound : Descriptor.next? b (e.recordsPos pos) with
            | none =>
                rw [hfound] at heq
                cases heq
            | some start =>
                rw [hfound] at heq
                cases hread : Descriptor.decode (index + 1) b start with
                | error e =>
                    simp only [hread] at heq
                    cases heq
                | ok r =>
                    obtain ⟨d, after⟩ := r
                    simp only [hread, descriptors, List.cons.injEq] at heq
                    have hoffset := (Descriptor.decode_eq_ok hread).2.1
                    rw [heq.1] at hoffset
                    exact congrArg some hoffset.symm

/-- The records of a scene are put together as far as the next descriptor. -/
theorem sceneOf_eq {b : Buffer} {e : TableEntry} {pos stop : Nat} (h : b.HasAt pos e.encode)
    (hstop : stop = pos + e.encode.length) (hsize : stop ≤ b.size) (maxDistance index : Nat) :
    SceneTable.sceneOf b maxDistance (e.descriptor pos index) stop = e.scene pos index := by
  have hrecords := (hasAt_append.mp h).2
  have hend : stop = e.recordsPos pos + (Payload.encodeAll e.records).length := by
    rw [hstop, encode, List.length_append, recordsPos, Nat.add_assoc]
  have hall := Record.all_of_hasAt e.storable maxDistance hend hsize hrecords
  have hdescriptor : (e.descriptor pos index).stop = e.recordsPos pos := rfl
  rw [SceneTable.sceneOf, hdescriptor, hall]
  rfl

theorem scenesOf_eq {b : Buffer} {es : List TableEntry} {pos : Nat}
    (h : b.HasAt pos (encodeAll es)) (hsize : pos + (encodeAll es).length = b.size)
    (maxDistance index : Nat) :
    SceneTable.scenesOf b maxDistance (descriptors pos index es) = scenes pos index es := by
  induction es generalizing pos index with
  | nil => rfl
  | cons e es ih =>
      obtain ⟨he, hrest⟩ := hasAt_append.mp h
      rw [encodeAll_cons, List.length_append, ← Nat.add_assoc] at hsize
      have ih := ih hrest hsize (index + 1)
      cases es with
      | nil =>
          have hlast : b.size = pos + e.encode.length := hsize.symm
          have hscene := sceneOf_eq he hlast (Nat.le_refl _) maxDistance index
          simp only [descriptors, SceneTable.scenesOf, scenes, hscene]
      | cons next es =>
          have hscene := sceneOf_eq he rfl (by omega) maxDistance index
          rw [scenes, ← ih]
          simp only [descriptors, SceneTable.scenesOf]
          rw [← hscene]
          rfl

end TableEntry

/-! ## Reading a table -/

namespace StoredTable

theorem descriptors_eq_iff {b : Buffer} {es : List TableEntry} {pos : Nat}
    (h : b.HasAt pos (TableEntry.encodeAll es)) :
    Descriptor.all b es.length pos = TableEntry.descriptors pos 0 es ↔
      TableEntry.Unmistakable b pos es := by
  cases es with
  | nil =>
      simp only [TableEntry.Unmistakable, TableEntry.descriptors, List.length_nil, iff_true]
      rfl
  | cons e es =>
      have hlen := TableEntry.length_le_length_encodeAll (e :: es)
      have hsize := h.length_le_size
      have hhead := (hasAt_append.mp (hasAt_append.mp h).1).1
      rw [List.length_cons] at hlen
      have hfuel : es.length ≤ b.size / 87 := by omega
      rw [← TableEntry.collect_eq_iff h hfuel 0, List.length_cons, Descriptor.all,
        Descriptor.collect, if_pos rfl]
      simp only [e.readsAt_decode pos 0 b hhead]
      rw [TableEntry.descriptors, List.cons.injEq, and_iff_right rfl]
      exact Iff.rfl

theorem decode_eq_iff (t : StoredTable) {b : Buffer} {pos : Nat} (h : b.HasAt pos t.encode)
    (hsize : pos + t.encode.length = b.size) (maxDistance : Nat) :
    SceneTable.decode maxDistance b pos = .ok (t.table pos, b.size) ↔
      TableEntry.Unmistakable b (pos + 4) t.entries := by
  obtain ⟨hcount, hentries⟩ := hasAt_append.mp h
  rw [Encode.length_word] at hentries
  rw [encode, List.length_append, Encode.length_word, ← Nat.add_assoc] at hsize
  have hread : SceneTable.decode maxDistance b pos =
      .ok ({ count := t.entries.length
             descriptors := Descriptor.all b t.entries.length (pos + 4)
             scenes := SceneTable.scenesOf b maxDistance
              (Descriptor.all b t.entries.length (pos + 4)) }, b.size) :=
    bind_eq_ok.mpr ⟨_, _, readsAt_word t.length_isWord pos b hcount, rfl⟩
  -- the scenes are made from the descriptors, so that these decide
  rw [← descriptors_eq_iff hentries, hread]
  constructor
  · intro heq
    simp only [Except.ok.injEq, Prod.mk.injEq, and_true, table, SceneTable.mk.injEq] at heq
    exact heq.2.1
  · intro heq
    rw [heq, TableEntry.scenesOf_eq hentries hsize]
    rfl

/-- A table is read back as it was written just when no position among the records of a scene, the
last one apart, looks like a descriptor. -/
theorem decode_encode_iff (t : StoredTable) (before : List UInt8) (maxDistance : Nat) :
    SceneTable.decode maxDistance (before ++ t.encode).toArray before.length =
        .ok (t.table before.length, (before ++ t.encode).length) ↔
      TableEntry.Unmistakable (before ++ t.encode).toArray (before.length + 4) t.entries := by
  have h : HasAt (before ++ t.encode).toArray before.length t.encode := by
    simpa using hasAt_of_append before t.encode []
  exact t.decode_eq_iff h (by simp) maxDistance

/-- The last character of a text before a descriptor may pass for the first one of its name: here
the second scene is found under the name xB, a byte too early. -/
def ambiguous : StoredTable where
  entries :=
    [{ name := "A", flag := 0, background := "", reserved := List.replicate 32 0
       records := [.simple Command.playWav "x"]
       name_pos := by decide, name_le := by decide, name_printable := by decide
       flag_le := by decide, background_le := by decide, background_printable := by decide
       length_reserved := rfl, storable := by decide },
     { name := "B", flag := 0, background := "", reserved := List.replicate 32 0
       records := []
       name_pos := by decide, name_le := by decide, name_printable := by decide
       flag_le := by decide, background_le := by decide, background_printable := by decide
       length_reserved := rfl, storable := by decide }]
  length_isWord := by decide

/-- Tables are not always read back, not even those of a few scenes that hold printable commands
and shapes only. -/
theorem not_forall_decode_encode :
    ¬∀ t : StoredTable, 1 ≤ t.entries.length → t.entries.length ≤ 99 →
      (∀ e ∈ t.entries, ∀ p ∈ e.records, p.IsPlain) →
        SceneTable.decode Record.defaultDistance t.encode.toArray 0 =
          .ok (t.table 0, t.encode.length) := by
  intro hall
  have hread := hall ambiguous (by decide) (by decide) (by decide)
  have hat : HasAt ambiguous.encode.toArray 0 ambiguous.encode := by
    simpa using hasAt_of_append [] ambiguous.encode []
  have hclear := (ambiguous.decode_eq_iff hat (by simp) 4096).mp hread
  -- at 99 stands the text of the only command, and behind it the name of the second scene
  have hlooks : Descriptor.looksLike ambiguous.encode.toArray 99 = true := by decide +kernel
  rw [hclear.1 99 (by decide +kernel) (by decide +kernel)] at hlooks
  cases hlooks

end StoredTable

end PointAndClick
