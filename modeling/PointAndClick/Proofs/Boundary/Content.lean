import PointAndClick.Proofs.Boundary.Failures
import PointAndClick.Proofs.Text.Blank

/-!
# Where a content comes from

A content is the name in the first text of its window that has one (`content?_eq_some_iff`). It is
the whole text or the start of its first word, as long as possible (`nameIn?_eq_some_iff`).

A text may be longer than what the file has behind its length. Then it is searched as far as it
goes, so that a content comes from a complete text of the file unless such a text comes first
(`content_of_first`).
-/

set_option autoImplicit false

namespace PointAndClick.Boundary

variable {b : Buffer} {p : BoundaryProfile} {start pos count : Nat} {cs word text name : List Char}

/-! ## Names of videos -/

/-- A text ends in the name of a video, with something before the suffix. -/
def EndsInVideo (name : List Char) : Prop := ∃ stem, stem ≠ [] ∧ name = stem ++ videoSuffix

/-- Some start of a text ends in the name of a video, and it is the longest that does. -/
structure LongestVideo (text name : List Char) : Prop where
  start : name <+: text
  endsInVideo : EndsInVideo name
  longest : ∀ other, other <+: text → EndsInVideo other → other.length ≤ name.length

theorem endsInVideo_cons_iff {c : Char} :
    EndsInVideo (c :: cs) ↔ cs = videoSuffix ∨ EndsInVideo cs := by
  constructor
  · rintro ⟨_ | ⟨d, stem⟩, hne, heq⟩
    · exact absurd rfl hne
    · obtain ⟨rfl, rfl⟩ := List.cons.inj heq
      cases stem with
      | nil => exact .inl rfl
      | cons e stem => exact .inr ⟨e :: stem, List.cons_ne_nil _ _, rfl⟩
  · rintro (rfl | ⟨stem, -, rfl⟩)
    · exact ⟨[c], List.cons_ne_nil _ _, rfl⟩
    · exact ⟨c :: stem, List.cons_ne_nil _ _, rfl⟩

theorem not_endsInVideo_nil : ¬EndsInVideo [] := by
  rintro ⟨stem, hne, heq⟩
  exact hne (List.append_eq_nil_iff.mp heq.symm).1

/-- What is given is the longest start that ends in the name of a video. Nothing is given only where
there is no such start. -/
theorem videoStart?_spec (word : List Char) :
    (∃ name, videoStart? word = some name ∧ LongestVideo word name) ∨
      videoStart? word = none ∧ ∀ other, other <+: word → ¬EndsInVideo other := by
  induction word with
  | nil =>
      refine .inr ⟨rfl, fun other hother => ?_⟩
      rw [List.prefix_nil.mp hother]
      exact not_endsInVideo_nil
  | cons c cs ih =>
      -- such a start of the longer word is its first character before a start of the rest
      have hsplit {other : List Char} (hends : EndsInVideo other) (hother : other <+: c :: cs) :
          ∃ rest, other = c :: rest ∧ rest <+: cs ∧ (rest = videoSuffix ∨ EndsInVideo rest) := by
        rcases List.prefix_cons_iff.mp hother with rfl | ⟨rest, rfl, hrest⟩
        · exact absurd hends not_endsInVideo_nil
        · exact ⟨rest, rfl, hrest, endsInVideo_cons_iff.mp hends⟩
      rcases ih with ⟨name, hname, hlongest⟩ | ⟨hnone, hnot⟩
      · refine .inl ⟨c :: name, by rw [videoStart?, hname], ?_, ?_, fun other hother hends => ?_⟩
        · exact List.prefix_cons_iff.mpr (.inr ⟨name, rfl, hlongest.start⟩)
        · exact endsInVideo_cons_iff.mpr (.inr hlongest.endsInVideo)
        · obtain ⟨rest, rfl, hrest, rfl | hends⟩ := hsplit hends hother
          · -- the suffix of a name is no longer than the name
            obtain ⟨stem, -, rfl⟩ := hlongest.endsInVideo
            simp
          · exact Nat.succ_le_succ (hlongest.longest rest hrest hends)
      · by_cases hsuffix : videoSuffix <+: cs
        · refine .inl ⟨c :: videoSuffix, ?_, ?_, ?_, fun other hother hends => ?_⟩
          · rw [videoStart?, hnone]
            simp [hsuffix]
          · exact List.prefix_cons_iff.mpr (.inr ⟨_, rfl, hsuffix⟩)
          · exact endsInVideo_cons_iff.mpr (.inl rfl)
          · obtain ⟨rest, rfl, hrest, rfl | hends⟩ := hsplit hends hother
            · exact Nat.le_refl _
            · exact absurd hends (hnot rest hrest)
        · refine .inr ⟨?_, fun other hother hends => ?_⟩
          · rw [videoStart?, hnone]
            simp [hsuffix]
          · obtain ⟨rest, rfl, hrest, rfl | hends⟩ := hsplit hends hother
            · exact hsuffix hrest
            · exact hnot rest hrest hends

theorem videoStart?_eq_some_iff : videoStart? word = some name ↔ LongestVideo word name := by
  rcases videoStart?_spec word with ⟨found, hfound, hlongest⟩ | ⟨hnone, hnot⟩
  · rw [hfound, Option.some.injEq]
    constructor
    · rintro rfl
      exact hlongest
    · intro h
      have hle := hlongest.longest name h.start h.endsInVideo
      have hge := h.longest found hlongest.start hlongest.endsInVideo
      exact (List.prefix_of_prefix_length_le hlongest.start h.start hge).eq_of_length_le hle
  · rw [hnone]
    exact iff_of_false nofun fun h => hnot name h.start h.endsInVideo

theorem videoStart?_eq_none_iff :
    videoStart? word = none ↔ ∀ other, other <+: word → ¬EndsInVideo other := by
  rcases videoStart?_spec word with ⟨found, hfound, hlongest⟩ | ⟨hnone, hnot⟩
  · rw [hfound]
    exact iff_of_false nofun fun h => h found hlongest.start hlongest.endsInVideo
  · exact iff_of_true hnone hnot

/-! ## Names in texts -/

/-- There is a name of an image or a video in a text. -/
def HasName (text : List Char) : Prop := imageSuffix <:+ text ∨ videoSuffix <:+: text

/-- What counts as the name in a text that has one. A text that ends in a name counts as a whole.
Any other counts up to the last name of a video that ends in its first word, or as a whole if there
is none. -/
inductive NameIn : List Char → List Char → Prop
  | image {text : List Char} (h : imageSuffix <:+ text) : NameIn text text
  | video {text : List Char} (h : videoSuffix <:+ text) : NameIn text text
  | start {text name : List Char} (hinside : videoSuffix <:+: text) (himage : ¬imageSuffix <:+ text)
      (hvideo : ¬videoSuffix <:+ text) (h : LongestVideo (Text.takeWord text) name) :
      NameIn text name
  | whole {text : List Char} (hinside : videoSuffix <:+: text) (himage : ¬imageSuffix <:+ text)
      (hvideo : ¬videoSuffix <:+ text)
      (h : ∀ other, other <+: Text.takeWord text → ¬EndsInVideo other) : NameIn text text

theorem not_video_of_image (h : imageSuffix <:+ text) : ¬videoSuffix <:+ text := by
  intro hvideo
  have heq := (List.suffix_of_suffix_length_le h hvideo (Nat.le_refl 4)).eq_of_length rfl
  exact absurd heq (by decide)

theorem nameIn?_of_image (h : imageSuffix <:+ text) : nameIn? text = some text := by
  simp [nameIn?, h]

theorem nameIn?_of_video (h : videoSuffix <:+ text) : nameIn? text = some text := by
  have himage : ¬imageSuffix <:+ text := fun himage => not_video_of_image himage h
  simp [nameIn?, himage, h, Text.occursIn_iff.mpr h.isInfix]

theorem nameIn?_of_inside (h : videoSuffix <:+: text) (himage : ¬imageSuffix <:+ text)
    (hvideo : ¬videoSuffix <:+ text) :
    nameIn? text = some ((videoStart? (Text.takeWord text)).getD text) := by
  simp [nameIn?, himage, hvideo, Text.occursIn_iff.mpr h]

theorem nameIn?_of_not_hasName (h : ¬HasName text) : nameIn? text = none := by
  obtain ⟨himage, hinside⟩ := not_or.mp h
  simp [nameIn?, himage, mt Text.occursIn_iff.mp hinside]

theorem nameIn?_of_nameIn (h : NameIn text name) : nameIn? text = some name := by
  cases h with
  | image h => exact nameIn?_of_image h
  | video h => exact nameIn?_of_video h
  | start hinside himage hvideo h =>
      rw [nameIn?_of_inside hinside himage hvideo, videoStart?_eq_some_iff.mpr h, Option.getD_some]
  | whole hinside himage hvideo h =>
      rw [nameIn?_of_inside hinside himage hvideo, videoStart?_eq_none_iff.mpr h, Option.getD_none]

/-- Every text with a name has just one that counts. -/
theorem exists_nameIn (h : HasName text) : ∃ name, NameIn text name := by
  by_cases himage : imageSuffix <:+ text
  · exact ⟨text, .image himage⟩
  · have hinside := h.resolve_left himage
    by_cases hvideo : videoSuffix <:+ text
    · exact ⟨text, .video hvideo⟩
    · rcases videoStart?_spec (Text.takeWord text) with ⟨name, -, hlongest⟩ | ⟨-, hnot⟩
      · exact ⟨name, .start hinside himage hvideo hlongest⟩
      · exact ⟨text, .whole hinside himage hvideo hnot⟩

theorem nameIn?_eq_some_iff : nameIn? text = some name ↔ NameIn text name := by
  refine ⟨fun hsome => ?_, nameIn?_of_nameIn⟩
  have hhas : HasName text := by
    by_contra h
    rw [nameIn?_of_not_hasName h] at hsome
    nomatch hsome
  obtain ⟨other, hother⟩ := exists_nameIn hhas
  obtain rfl : other = name := Option.some.inj ((nameIn?_of_nameIn hother).symm.trans hsome)
  exact hother

theorem NameIn.hasName (h : NameIn text name) : HasName text := by
  cases h with
  | image h => exact .inl h
  | video h => exact .inr h.isInfix
  | start hinside _ _ _ => exact .inr hinside
  | whole hinside _ _ _ => exact .inr hinside

/-- What counts is the whole text, or a start of it that ends in the name of a video. -/
theorem NameIn.eq_or_prefix (h : NameIn text name) :
    name = text ∨ name <+: text ∧ videoSuffix <:+ name := by
  cases h with
  | image | video | whole => exact .inl rfl
  | start _ _ _ h =>
      obtain ⟨stem, -, heq⟩ := h.endsInVideo
      exact .inr ⟨h.start.trans (List.takeWhile_prefix _), stem, heq.symm⟩

/-! ## Texts in the file -/

/-- A text that begins at a position is longer than the rest of the file, which is all that is there
of it. -/
structure CutAt (b : Buffer) (pos : Nat) (text : String) : Prop where
  inside : pos + 4 ≤ b.size
  beyond : b.size < pos + 4 + b.wordAt pos
  chars : (b.slice (pos + 4) (b.size - (pos + 4))).map Buffer.charOf = text.toList

/-- The length at a position is one of a content. -/
def HasContentLength (b : Buffer) (p : BoundaryProfile) (pos : Nat) : Prop :=
  p.contentMinLength ≤ b.wordAt pos ∧ b.wordAt pos ≤ p.contentMaxLength

/-- A text with the length of a content begins at a position. It is complete, or the end of the file
cuts it. -/
def BeginsAt (b : Buffer) (p : BoundaryProfile) (pos : Nat) (text : String) : Prop :=
  HasContentLength b p pos ∧ (TextAt b pos text ∨ CutAt b pos text)

/-- Behind the end of the file there is nothing more to take. -/
theorem slice_eq_rest (h : b.size ≤ pos + count) :
    b.slice pos count = b.slice pos (b.size - pos) := by
  have hlength : (b.toList.drop pos).length = b.size - pos := by simp
  rw [Buffer.slice_eq, Buffer.slice_eq, List.take_of_length_le (by omega),
    List.take_of_length_le hlength.le]

theorem textAt_or_cutAt_iff {text : String} :
    TextAt b pos text ∨ CutAt b pos text ↔
      pos + 4 ≤ b.size ∧ (b.slice (pos + 4) (b.wordAt pos)).map Buffer.charOf = text.toList := by
  constructor
  · rintro (⟨hinside, hlength, hchars⟩ | ⟨hinside, hover, hchars⟩)
    · exact ⟨by omega, by rw [hlength, hchars]⟩
    · exact ⟨hinside, by rw [slice_eq_rest hover.le, hchars]⟩
  · rintro ⟨hinside, hchars⟩
    have hlength := congrArg List.length hchars
    rw [List.length_map, Buffer.length_slice, String.length_toList] at hlength
    rcases Nat.lt_or_ge b.size (pos + 4 + b.wordAt pos) with hover | hwhole
    · exact .inr ⟨hinside, hover, by rw [← slice_eq_rest (Nat.le_of_lt hover), hchars]⟩
    · have hword : b.wordAt pos = text.length := by omega
      exact .inl ⟨by omega, hword, by rw [← hword, hchars]⟩

theorem nameAt?_of_hasContentLength (h : HasContentLength b p pos) :
    nameAt? b p pos = nameIn? ((b.slice (pos + 4) (b.wordAt pos)).map Buffer.charOf) :=
  if_pos h

/-- There is no name in what is behind the end of the file. -/
theorem lt_size_of_hasName (h : HasName ((b.slice pos count).map Buffer.charOf)) :
    pos < b.size := by
  have hlength : 4 ≤ ((b.slice pos count).map Buffer.charOf).length :=
    h.elim (·.length_le) (·.length_le)
  rw [List.length_map, Buffer.length_slice] at hlength
  omega

theorem nameAt?_eq_some_iff :
    nameAt? b p pos = some name ↔ ∃ text, BeginsAt b p pos text ∧ NameIn text.toList name := by
  constructor
  · intro h
    have hlen : HasContentLength b p pos := by
      by_contra hnot
      nomatch (if_neg hnot).symm.trans h
    have hname := nameIn?_eq_some_iff.mp ((nameAt?_of_hasContentLength hlen).symm.trans h)
    have hinside := Nat.le_of_lt (lt_size_of_hasName hname.hasName)
    refine ⟨_, ⟨hlen, textAt_or_cutAt_iff.mpr ⟨hinside, String.toList_ofList.symm⟩⟩, ?_⟩
    rwa [String.toList_ofList]
  · rintro ⟨text, ⟨hlen, htext⟩, hname⟩
    rw [nameAt?_of_hasContentLength hlen, (textAt_or_cutAt_iff.mp htext).2]
    exact nameIn?_eq_some_iff.mpr hname

theorem nameAt?_eq_none_iff :
    nameAt? b p pos = none ↔ ∀ text, BeginsAt b p pos text → ¬HasName text.toList := by
  constructor
  · intro hnone text htext hhas
    obtain ⟨name, hname⟩ := exists_nameIn hhas
    rw [nameAt?_eq_some_iff.mpr ⟨text, htext, hname⟩] at hnone
    nomatch hnone
  · intro h
    by_contra hsome
    obtain ⟨name, hname⟩ := Option.ne_none_iff_exists'.mp hsome
    obtain ⟨text, htext, hin⟩ := nameAt?_eq_some_iff.mp hname
    exact h text htext hin.hasName

/-! ## The first name -/

theorem searchName_eq_some_iff :
    searchName b p count pos = some name ↔
      ∃ q, pos ≤ q ∧ q < pos + count ∧ nameAt? b p q = some name ∧
        ∀ r, pos ≤ r → r < q → nameAt? b p r = none := by
  induction count generalizing pos with
  | zero =>
      refine iff_of_false nofun ?_
      rintro ⟨q, hfrom, hto, -⟩
      omega
  | succ count ih =>
      unfold searchName
      cases hfirst : nameAt? b p pos with
      | some found =>
          constructor
          · rintro ⟨rfl⟩
            exact ⟨pos, Nat.le_refl _, by omega, hfirst, fun r hr hlt => by omega⟩
          · rintro ⟨q, hfrom, -, hname, hnone⟩
            rcases Nat.eq_or_lt_of_le hfrom with rfl | hlt
            · exact hfirst.symm.trans hname
            · nomatch hfirst.symm.trans (hnone pos (Nat.le_refl _) hlt)
      | none =>
          show searchName b p count (pos + 1) = some name ↔ _
          rw [ih]
          constructor
          · rintro ⟨q, hfrom, hto, hname, hnone⟩
            refine ⟨q, by omega, by omega, hname, fun r hr hlt => ?_⟩
            rcases Nat.eq_or_lt_of_le hr with rfl | hr
            · exact hfirst
            · exact hnone r hr hlt
          · rintro ⟨q, hfrom, hto, hname, hnone⟩
            rcases Nat.eq_or_lt_of_le hfrom with rfl | hfrom
            · nomatch hfirst.symm.trans hname
            · exact ⟨q, hfrom, by omega, hname, fun r hr hlt => hnone r (by omega) hlt⟩

/-- The first text of a window that has a name. -/
structure FirstNamed (b : Buffer) (p : BoundaryProfile) (start pos : Nat) (text : String) :
    Prop where
  start_le : start ≤ pos
  inWindow : pos < start + p.contentWindow
  begins : BeginsAt b p pos text
  hasName : HasName text.toList
  first : ∀ q, start ≤ q → q < pos → ∀ other, BeginsAt b p q other → ¬HasName other.toList

theorem content?_eq_some_iff {content : String} :
    content? b p start = some content ↔
      ∃ pos text, FirstNamed b p start pos text ∧ NameIn text.toList content.toList := by
  unfold content?
  simp only [Option.map_eq_some_iff, searchName_eq_some_iff]
  constructor
  · rintro ⟨name, ⟨q, hfrom, hto, hname, hnone⟩, rfl⟩
    obtain ⟨text, htext, hin⟩ := nameAt?_eq_some_iff.mp hname
    refine ⟨q, text, ⟨hfrom, by omega, htext, hin.hasName, fun r hr hlt => ?_⟩, ?_⟩
    · exact nameAt?_eq_none_iff.mp (hnone r hr hlt)
    · rwa [String.toList_ofList]
  · rintro ⟨q, text, ⟨hfrom, hwindow, htext, hhas, hfirst⟩, hin⟩
    -- a text with a name has something behind its length
    have hinside : q + 4 < b.size := by
      rw [← (textAt_or_cutAt_iff.mp htext.2).2] at hhas
      exact lt_size_of_hasName hhas
    refine ⟨content.toList, ⟨q, hfrom, by omega, ?_, fun r hr hlt => ?_⟩, String.ofList_toList⟩
    · exact nameAt?_eq_some_iff.mpr ⟨text, htext, hin⟩
    · exact nameAt?_eq_none_iff.mpr (hfirst r hr hlt)

/-! ## Contents from complete texts -/

/-- A content is a complete text of the file with a name, or the start of one that ends in the name
of a video, and no complete text with a name comes before it in the window. -/
structure FromComplete (b : Buffer) (p : BoundaryProfile) (start : Nat) (content : String)
    (pos : Nat) (text : String) : Prop where
  start_le : start ≤ pos
  inWindow : pos < start + p.contentWindow
  contentLength : HasContentLength b p pos
  complete : TextAt b pos text
  hasName : HasName text.toList
  isName : content = text ∨ content.toList <+: text.toList ∧ videoSuffix <:+ content.toList
  first : ∀ q, start ≤ q → q < pos → HasContentLength b p q →
    ∀ other, TextAt b q other → ¬HasName other.toList

theorem FirstNamed.fromComplete {content text : String} (h : FirstNamed b p start pos text)
    (hcomplete : TextAt b pos text) (hname : NameIn text.toList content.toList) :
    FromComplete b p start content pos text where
  start_le := h.start_le
  inWindow := h.inWindow
  contentLength := h.begins.1
  complete := hcomplete
  hasName := h.hasName
  isName := hname.eq_or_prefix.imp_left String.toList_inj.mp
  first q hfrom hto hlen other hother := h.first q hfrom hto other ⟨hlen, .inl hother⟩

/-- A content is the name in the first text of its window that has one. If the end of the file does
not cut that text, the content comes from a complete text of the file. -/
theorem content_of_first (b : Buffer) (p : BoundaryProfile) (start : Nat) (content : String) :
    content? b p start = some content ↔
      ∃ pos text, FirstNamed b p start pos text ∧ NameIn text.toList content.toList ∧
        (CutAt b pos text ∨ FromComplete b p start content pos text) := by
  rw [content?_eq_some_iff]
  constructor
  · rintro ⟨pos, text, hfirst, hname⟩
    refine ⟨pos, text, hfirst, hname, ?_⟩
    rcases hfirst.begins.2 with hcomplete | hcut
    · exact .inr (hfirst.fromComplete hcomplete hname)
    · exact .inl hcut
  · rintro ⟨pos, text, hfirst, hname, -⟩
    exact ⟨pos, text, hfirst, hname⟩

/-- The name of an image where a text of 79 characters should be. -/
def cutImage : Buffer := (Encode.word 79 ++ Encode.chars "a.bmp").toArray

/-- What the end of the file leaves of a text is a content, too. -/
theorem not_forall_fromComplete :
    ¬∀ (b : Buffer) (p : BoundaryProfile) (start : Nat) (content : String),
      content? b p start = some content →
        ∃ pos text, FromComplete b p start content pos text := by
  intro h
  have hcontent : content? cutImage .usual 0 = some "a.bmp" := by rfl
  obtain ⟨pos, text, hfrom⟩ := h cutImage .usual 0 "a.bmp" hcontent
  have hsize : pos + 4 + text.length ≤ 9 := hfrom.complete.inside
  have hword := hfrom.complete.length
  have hlong : (5 : Int) ≤ cutImage.wordAt pos := hfrom.contentLength.1
  -- only at the start are there enough bytes for a text of five characters
  obtain rfl : pos = 0 := by omega
  have hlength : cutImage.wordAt 0 = 79 := by rfl
  omega

end PointAndClick.Boundary
