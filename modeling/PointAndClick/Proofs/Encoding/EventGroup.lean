import PointAndClick.Proofs.Encoding.Padding
import PointAndClick.Proofs.Hotspot.Assembler

/-!
# The bytes that stand for event groups

A group is written as its two words and its records, possibly with a tip text, possibly with a
shape, and with zero words behind it. Groups carry no length, so what stands behind one must not
continue it: that is `EndsGroup`, and the next group, the next scene and the end of the buffer all
have it. A row of groups that ends so is read back as its hotspots.
-/

set_option autoImplicit false

namespace PointAndClick

open Buffer

/-! ## Written forms -/

/-- A shape record that ends a group, and the number of zero words before it. -/
structure StoredShape where
  padding : Nat
  tag : Int
  points : List Point
  storable : (Payload.shape tag points).IsStorable

namespace StoredShape

/-- The shape record. -/
def payload (s : StoredShape) : Payload := .shape s.tag s.points

/-- A shape with the zero words before it. -/
def encode (s : StoredShape) : List UInt8 := Encode.zeroWords s.padding ++ s.payload.encode

/-- A shape, or nothing. -/
def encode? (shape : Option StoredShape) : List UInt8 := (shape.map encode).getD []

end StoredShape

/-- A tip text: the text of its font record, and of its text record if it has one. -/
structure StoredTip where
  font : String
  text : Option String
  fontStorable : IsStorable font
  textStorable : ∀ t, text = some t → IsStorable t

/-- The records of a tip text. -/
def StoredTip.records (t : StoredTip) : List Payload :=
  .simple Command.font t.font :: (t.text.map (Payload.simple Command.playText)).toList

/-- An event group and the number of zero words behind it. -/
structure StoredGroup where
  eventType : Nat
  first : Payload
  rest : List Payload
  tip : Option StoredTip
  shape : Option StoredShape
  padding : Nat
  eventType_pos : 0 < eventType
  eventType_le : eventType ≤ EventGroup.maxEventType
  length_lt : rest.length < EventGroup.maxRecords
  first_isCommand : first.isCommand = true
  storable : ∀ p ∈ first :: rest, p.IsStorable ∧ p.isShape = false

namespace StoredGroup

/-- The records that the group counts. -/
def records (g : StoredGroup) : List Payload := g.first :: g.rest

/-- The records of the group's tip text. -/
def tipRecords (g : StoredGroup) : List Payload := (g.tip.map StoredTip.records).getD []

/-- A group. -/
def encode (g : StoredGroup) : List UInt8 :=
  Encode.word g.eventType ++ (Encode.word g.records.length ++ (Payload.encodeAll g.records ++
    (Payload.encodeAll g.tipRecords ++ (StoredShape.encode? g.shape ++
      Encode.zeroWords g.padding))))

/-- Some groups in a row. -/
def encodeAll (gs : List StoredGroup) : List UInt8 := gs.flatMap encode

@[simp] theorem encodeAll_nil : encodeAll [] = [] := rfl

@[simp] theorem encodeAll_cons (g : StoredGroup) (gs : List StoredGroup) :
    encodeAll (g :: gs) = g.encode ++ encodeAll gs := rfl

theorem length_le_length_encodeAll (gs : List StoredGroup) :
    8 * gs.length ≤ (encodeAll gs).length := by
  induction gs with
  | nil => exact Nat.le_refl _
  | cons g gs ih =>
      rw [encodeAll_cons, List.length_append, List.length_cons]
      simp only [encode, List.length_append, Encode.length_word]
      omega

/-! ## The hotspots of groups -/

/-- The commands of a group at a position: its command records without those that are dropped. -/
def commands (g : StoredGroup) (pos : Nat) : List Record :=
  (Record.placed (pos + 8) g.records).filter fun r => r.payload.isCommand && r.isKept

/-- The position behind the records of a group at a position. -/
def tipPos (g : StoredGroup) (pos : Nat) : Nat := pos + 8 + (Payload.encodeAll g.records).length

/-- The position behind the tip text of a group at a position. -/
def shapePos (g : StoredGroup) (pos : Nat) : Nat :=
  g.tipPos pos + (Payload.encodeAll g.tipRecords).length

/-- The records that the pointer sets off: those of the tip text. -/
def hover (g : StoredGroup) (pos : Nat) : List Record := Record.placed (g.tipPos pos) g.tipRecords

/-- The hotspot of a group at a position. -/
def hotspot (g : StoredGroup) (pos id : Nat) : Hotspot where
  id := id
  image := (Record.imageOf (g.commands pos)).path
  x := (Record.imageOf (g.commands pos)).x
  y := (Record.imageOf (g.commands pos)).y
  z := (Record.imageOf (g.commands pos)).z
  commands := g.commands pos
  shape := g.shape.map fun s => Shape.ofPoints s.points
  hover := g.hover pos
  eventType := some g.eventType
  offset := pos

/-- Nothing is left of the group: it has no shape and no tip text, and all its commands are
dropped. -/
def isHollow (g : StoredGroup) (pos : Nat) : Bool :=
  g.shape.isNone && (g.commands pos).isEmpty && (g.hover pos).isEmpty

/-- The hotspots of some groups in a row, the first group at a position and the first hotspot with
a number. -/
def hotspots : Nat → Nat → List StoredGroup → List Hotspot
  | _, _, [] => []
  | pos, id, g :: gs =>
      if g.isHollow pos then hotspots (pos + g.encode.length) id gs
      else g.hotspot pos id :: hotspots (pos + g.encode.length) (id + 1) gs

end StoredGroup

theorem Payload.IsStorable.wordAt {b : Buffer} {p : Payload} {pos : Nat} (hp : p.IsStorable)
    (h : b.HasAt pos p.encode) : b.wordAt pos = p.tagWord :=
  (hasAt_append.mp h).1.wordAt hp.tagWord.1

theorem StoredShape.isShapeTag_tagWord (s : StoredShape) :
    isShapeTag s.payload.tagWord = true ∧ EventGroup.maxRecords < s.payload.tagWord := by
  have htag : (s.payload.tagWord : Int) = s.tag := s.storable.tagWord.2
  have hshape := s.storable.1
  have hrange := isShapeTag_iff.mp hshape
  have hmax : EventGroup.maxRecords = 50 := rfl
  exact ⟨by rw [htag]; exact hshape, by omega⟩

namespace EventGroup

/-! ## What may stand behind a group -/

/-- The words that groups and scenes start with. -/
def isStart (word : Nat) : Bool := (0 < word && word ≤ maxEventType) || word = 0x81

/-- What stands at a position does not continue a group that ends there, and zero words before it
do not belong to it. -/
structure EndsGroup (b : Buffer) (stop : Nat) : Prop where
  start : stop + 4 ≤ b.size → isStart (b.wordAt stop) = true
  unclaimed : ∀ pos, pos + 4 = stop → startsGroup b pos = false

theorem isStart_iff {word : Nat} : isStart word = true ↔ (0 < word ∧ word ≤ 10) ∨ word = 0x81 := by
  simp only [isStart, Bool.or_eq_true, Bool.and_eq_true, decide_eq_true_eq]
  exact Iff.rfl

theorem EndsGroup.stopsPadding {b : Buffer} {stop : Nat} (h : EndsGroup b stop) :
    StopsPadding b stop where
  nonzero := fun hsize => by
    have hword := isStart_iff.mp (h.start hsize)
    omega
  unclaimed := h.unclaimed

/-- A word that starts a group or a scene is neither a shape's tag nor that of a tip text. -/
theorem isStart_isShapeTag {word : Nat} (h : isStart word = true) :
    isShapeTag word = false ∧ (word : Int) ≠ Command.font ∧ (word : Int) ≠ Command.playText := by
  have hword := isStart_iff.mp h
  have hfont : Command.font = 39 := rfl
  have htext : Command.playText = 38 := rfl
  refine ⟨?_, by omega, by omega⟩
  rw [← Bool.not_eq_true, isShapeTag_iff]
  omega

/-! ## Reading what ends a group -/

theorem peekTag_size (b : Buffer) (pos : Nat) :
    peekTag b b.size pos = .ok (if b.size < pos + 4 then none else some (b.wordAt pos)) := by
  unfold peekTag
  split <;> rfl

theorem readRecord_of_hasAt {b : Buffer} {p : Payload} {pos : Nat} (hp : p.IsStorable)
    (h : b.HasAt pos p.encode) (a : Assembler) (add : Assembler → Record → Assembler) :
    readRecord b ⟨pos, a⟩ add = (⟨pos + p.encode.length, add a ⟨p, pos⟩⟩, .ok ()) := by
  simp only [readRecord, Payload.readsAt_decode hp pos b h]

/-- The hotspot is closed by a shape, if there is one. -/
def closeWith (shape : Option StoredShape) (a : Assembler) : Assembler :=
  match shape with
  | none => a
  | some s => a.close (some (Shape.ofPoints s.points))

/-- Zero words are passed over up to a shape. -/
theorem skipPadding_shape {b : Buffer} {s : StoredShape} {pos : Nat} (h : b.HasAt pos s.encode) :
    skipPadding b b.size pos = (pos + 4 * s.padding, .ok ()) ∧
      b.HasAt (pos + 4 * s.padding) s.payload.encode := by
  obtain ⟨hzero, hshape⟩ := hasAt_append.mp h
  rw [Encode.length_zeroWords] at hshape
  have hword := Payload.IsStorable.wordAt s.storable hshape
  have hstops : StopsPadding b (pos + 4 * s.padding) :=
    stopsPadding_of_large (by rw [hword]; exact s.isShapeTag_tagWord.2)
  exact ⟨skipPadding_eq (hstops.paddingTo hzero), hshape⟩

/-- A shape behind some zero words is read as the tag that is seen there and its record. -/
theorem readShape {b : Buffer} {s : StoredShape} {pos : Nat} (h : b.HasAt pos s.encode)
    (a : Assembler) :
    peekTag b b.size (pos + 4 * s.padding) = .ok (some s.payload.tagWord) ∧
      readRecord b ⟨pos + 4 * s.padding, a⟩ Assembler.add =
        (⟨pos + s.encode.length, closeWith (some s) a⟩, .ok ()) := by
  have hshape := (skipPadding_shape h).2
  have hsize := hshape.le_size s.payload.encode_ne_nil
  have hlen := s.payload.four_le_length_encode
  refine ⟨?_, ?_⟩
  · rw [peekTag_size, if_neg (by omega), Payload.IsStorable.wordAt s.storable hshape]
    rfl
  · rw [readRecord_of_hasAt s.storable hshape, StoredShape.encode, List.length_append,
      Encode.length_zeroWords, ← Nat.add_assoc]
    rfl

/-- Behind a group no tag is seen that continues it. -/
theorem EndsGroup.peekTag {b : Buffer} {stop : Nat} (h : EndsGroup b stop) :
    EventGroup.peekTag b b.size stop = .ok none ∨
      ∃ tag, EventGroup.peekTag b b.size stop = .ok (some tag) ∧ isStart tag = true := by
  rw [peekTag_size]
  by_cases hsize : b.size < stop + 4
  · exact Or.inl (by rw [if_pos hsize])
  · exact Or.inr ⟨_, by rw [if_neg hsize], h.start (by omega)⟩

/-- Behind the records of a tip text a shape is read if there is one, and else nothing. -/
theorem readTipShape_eq {b : Buffer} {shape : Option StoredShape} {pos stop : Nat}
    (h : b.HasAt pos (StoredShape.encode? shape))
    (hpad : PaddingTo b (pos + (StoredShape.encode? shape).length) stop) (hstop : EndsGroup b stop)
    (a : Assembler) :
    ∃ after, PaddingTo b after stop ∧
      readTipShape b b.size ⟨pos, a⟩ = ⟨after, closeWith shape a⟩ := by
  cases shape with
  | none =>
      refine ⟨stop, hstop.stopsPadding.paddingTo (n := 0) (hasAt_nil b stop), ?_⟩
      have hskip : skipPadding b b.size pos = (stop, .ok ()) := skipPadding_eq hpad
      rcases hstop.peekTag with hpeek | ⟨tag, hpeek, htag⟩
      · simp only [readTipShape, hskip, hpeek, closeWith]
      · simp [readTipShape, hskip, hpeek, closeWith, (isStart_isShapeTag htag).1]
  | some s =>
      obtain ⟨hpeek, hread⟩ := readShape (s := s) h a
      refine ⟨pos + s.encode.length, hpad, ?_⟩
      simp [readTipShape, (skipPadding_shape (s := s) h).1, hpeek, s.isShapeTag_tagWord.1, hread]

/-- Behind the records of a group without a tip text a shape is read if there is one, and else
nothing. -/
theorem readTerminator_eq {b : Buffer} {shape : Option StoredShape} {pos stop : Nat}
    (h : b.HasAt pos (StoredShape.encode? shape))
    (hpad : PaddingTo b (pos + (StoredShape.encode? shape).length) stop) (hstop : EndsGroup b stop)
    (a : Assembler) :
    ∃ after, PaddingTo b after stop ∧
      readTerminator b b.size ⟨pos, a⟩ = (⟨after, closeWith shape a⟩, .ok ()) := by
  cases shape with
  | none =>
      refine ⟨stop, hstop.stopsPadding.paddingTo (n := 0) (hasAt_nil b stop), ?_⟩
      have hskip : skipPadding b b.size pos = (stop, .ok ()) := skipPadding_eq hpad
      rcases hstop.peekTag with hpeek | ⟨tag, hpeek, htag⟩
      · simp only [readTerminator, hskip, hpeek, closeWith]
      · obtain ⟨hshape, hfont, -⟩ := isStart_isShapeTag htag
        simp [readTerminator, hskip, hpeek, closeWith, hshape, hfont]
  | some s =>
      obtain ⟨hpeek, hread⟩ := readShape (s := s) h a
      refine ⟨pos + s.encode.length, hpad, ?_⟩
      simp [readTerminator, (skipPadding_shape (s := s) h).1, hpeek, s.isShapeTag_tagWord.1, hread]

/-! ## Reading a tip text -/

/-- No text record stands behind a font record that has none. -/
theorem peekTag_ne_playText {b : Buffer} {shape : Option StoredShape} {pos stop : Nat}
    (h : b.HasAt pos (StoredShape.encode? shape))
    (hpad : PaddingTo b (pos + (StoredShape.encode? shape).length) stop)
    (hstop : EndsGroup b stop) :
    ∃ tag : Option Nat, peekTag b b.size pos = .ok tag ∧
      (tag.any fun tag => (tag : Int) = Command.playText) = false := by
  rw [peekTag_size]
  refine ⟨_, rfl, ?_⟩
  by_cases hsize : b.size < pos + 4
  · rw [if_pos hsize]
    rfl
  · have htext : Command.playText = 38 := rfl
    rw [if_neg hsize]
    show decide ((b.wordAt pos : Int) = Command.playText) = false
    rw [decide_eq_false_iff_not]
    -- a zero word of padding, the start of what stands behind the group, or the tag of a shape
    have hword : b.wordAt pos = 0 ∨ isStart (b.wordAt pos) = true ∨ 50 < b.wordAt pos := by
      cases shape with
      | none =>
          rcases hpad.wordAt with hself | hzero
          · subst hself
            exact Or.inr (Or.inl (hstop.start (by omega)))
          · exact Or.inl hzero
      | some s =>
          obtain ⟨hzero, hshape⟩ := hasAt_append.mp h
          by_cases hnone : s.padding = 0
          · rw [Encode.length_zeroWords, hnone, Nat.mul_zero, Nat.add_zero] at hshape
            rw [Payload.IsStorable.wordAt s.storable hshape]
            exact Or.inr (Or.inr s.isShapeTag_tagWord.2)
          · exact Or.inl (hzero.zeroWord (k := 0) (by omega)).1
    rcases hword with hzero | hstart | hlarge
    · omega
    · exact (isStart_isShapeTag hstart).2.2
    · omega

/-- Reads what may follow the font record of a tip text: a text record, and a shape. -/
def readTipRest (b : Buffer) (limit : Nat) (p : Progress) : Progress :=
  match EventGroup.peekTag b limit p.pos with
  | .error _ => p
  | .ok tag =>
      if tag.any fun tag => (tag : Int) = Command.playText then
        match readRecord b p Assembler.addHover with
        | (p, .error _) => p
        | (p, .ok ()) => readTipShape b limit p
      else readTipShape b limit p

theorem readTipText_eq_readTipRest (b : Buffer) (limit : Nat) (p : Progress) :
    readTipText b limit p =
      match readRecord b p Assembler.addHover with
      | (p, .error _) => p
      | (p, .ok ()) => readTipRest b limit p := rfl

/-- The records of a tip text are read for the pointer, and then what may follow them. -/
theorem readTipText_through {b : Buffer} {t : StoredTip} {pos : Nat}
    (h : b.HasAt pos (Payload.encodeAll t.records)) (a : Assembler) :
    readTipText b b.size ⟨pos, a⟩ =
      let p : Progress := ⟨pos + (Payload.encodeAll t.records).length,
        (Record.placed pos t.records).foldl Assembler.addHover a⟩
      if t.text.isSome then readTipShape b b.size p else readTipRest b b.size p := by
  obtain ⟨font, text, hfont, htext⟩ := t
  have hfont : (Payload.simple Command.font font).IsStorable := ⟨by decide, hfont⟩
  obtain ⟨hfirst, hsecond⟩ := hasAt_append.mp h
  rw [readTipText_eq_readTipRest, readRecord_of_hasAt hfont hfirst]
  cases text with
  | none =>
      simp only [StoredTip.records, Option.map_none, Option.toList_none, Payload.encodeAll_cons,
        Payload.encodeAll_nil, List.append_nil]
      rfl
  | some text =>
      have htext : (Payload.simple Command.playText text).IsStorable := ⟨by decide, htext text rfl⟩
      have hsecond : b.HasAt (pos + (Payload.simple Command.font font).encode.length)
          (Payload.simple Command.playText text).encode := (hasAt_append.mp hsecond).1
      have hsize := hsecond.le_size (Payload.encode_ne_nil _)
      have hlen := (Payload.simple Command.playText text).four_le_length_encode
      -- the tag of the text record is seen behind the font record
      have hpeek : peekTag b b.size (pos + (Payload.simple Command.font font).encode.length) =
          .ok (some 38) := by
        rw [peekTag_size, if_neg (by omega), htext.wordAt hsecond]
        rfl
      simp only [readTipRest, hpeek, StoredTip.records, Option.map_some, Option.toList_some,
        Payload.encodeAll_cons, Payload.encodeAll_nil, List.append_nil, List.length_append,
        ← Nat.add_assoc]
      rw [if_pos (by decide), readRecord_of_hasAt htext hsecond]
      rfl

/-- A tip text becomes what the pointer sets off. -/
theorem readTipText_eq {b : Buffer} {t : StoredTip} {shape : Option StoredShape} {pos stop : Nat}
    (htip : b.HasAt pos (Payload.encodeAll t.records))
    (hshape : b.HasAt (pos + (Payload.encodeAll t.records).length) (StoredShape.encode? shape))
    (hpad : PaddingTo b (pos + (Payload.encodeAll t.records).length +
      (StoredShape.encode? shape).length) stop)
    (hstop : EndsGroup b stop) (a : Assembler) :
    ∃ after, PaddingTo b after stop ∧
      readTipText b b.size ⟨pos, a⟩ =
        ⟨after, closeWith shape ((Record.placed pos t.records).foldl Assembler.addHover a)⟩ := by
  rw [readTipText_through htip]
  dsimp only
  split
  · exact readTipShape_eq hshape hpad hstop _
  · -- what stands behind the font record is not taken for a text record
    obtain ⟨tag, hpeek, htag⟩ := peekTag_ne_playText hshape hpad hstop
    simp only [readTipRest, hpeek, htag, Bool.false_eq_true, if_false]
    exact readTipShape_eq hshape hpad hstop _

/-! ## Reading a group -/

/-- The records of a group that are read: those up to a shape, which ends the group. -/
def throughShape (ps : List Payload) : List Payload :=
  ps.takeWhile (fun p => !p.isShape) ++ (ps.find? Payload.isShape).toList

theorem throughShape_cons (p : Payload) (ps : List Payload) :
    throughShape (p :: ps) = if p.isShape then [p] else p :: throughShape ps := by
  cases hshape : p.isShape with
  | false => simp [throughShape, hshape]
  | true => simp [throughShape, hshape]

theorem throughShape_eq_self {ps : List Payload} (h : ∀ p ∈ ps, p.isShape = false) :
    throughShape ps = ps := by
  induction ps with
  | nil => rfl
  | cons p ps ih =>
      rw [throughShape_cons, h p List.mem_cons_self, if_neg Bool.false_ne_true,
        ih fun q hq => h q (List.mem_cons_of_mem p hq)]

/-- A group is read up to a shape, or else as many records as it counts. -/
theorem readRecords_through {b : Buffer} {ps : List Payload} (hps : ∀ p ∈ ps, p.IsStorable)
    (maxDistance : Nat) {count : Nat} (hle : ps.length ≤ count)
    (hcount : ps.length = count ∨ ∃ p ∈ ps, p.isShape = true) {pos : Nat}
    (h : b.HasAt pos (Payload.encodeAll ps)) (a : Assembler) :
    readRecords b b.size maxDistance count ⟨pos, a⟩ =
      (⟨pos + (Payload.encodeAll (throughShape ps)).length,
        ((Record.placed pos (throughShape ps)).filter Record.isKept).foldl Assembler.add a⟩,
        !ps.any Payload.isShape) := by
  induction ps generalizing pos a count with
  | nil =>
      have hzero : 0 = count := by simpa using hcount
      subst hzero
      rfl
  | cons p ps ih =>
      obtain ⟨hp, hrest⟩ := hasAt_append.mp h
      have hnext := Record.next?_of_hasAt (hps p List.mem_cons_self) hp maxDistance
      cases count with
      | zero => simp at hle
      | succ count =>
          cases hshape : p.isShape with
          | true =>
              rw [throughShape_cons, hshape, if_pos rfl, readRecords, hnext]
              cases p with
              | shape tag points =>
                  simp [Record.placed, List.filter_cons, Record.isKept, Payload.isShape]
              | null | marker | wrapper code text | complex code text | simple code text =>
                  simp [Payload.isShape] at hshape
          | false =>
              have hcount' : ps.length = count ∨ ∃ q ∈ ps, q.isShape = true := by
                simpa [hshape] using hcount
              have ih := ih (fun q hq => hps q (List.mem_cons_of_mem p hq))
                (Nat.le_of_succ_le_succ hle) hcount' hrest
              rw [throughShape_cons, hshape, if_neg Bool.false_ne_true, Payload.encodeAll_cons,
                List.length_append, ← Nat.add_assoc, List.any_cons, hshape, Bool.false_or,
                readRecords, hnext]
              cases p with
              | shape tag points => simp [Payload.isShape] at hshape
              | null | marker | wrapper code text | simple code text =>
                  simp only [ih, Record.placed, List.filter_cons, Record.isKept, if_true,
                    List.foldl_cons]
              -- a complex record is read in any case, but it may be one of those that are dropped
              | complex code text =>
                  simp only [ih, Record.placed, List.filter_cons]
                  split <;> rfl

theorem readRecords_eq {b : Buffer} {ps : List Payload}
    (hps : ∀ p ∈ ps, p.IsStorable ∧ p.isShape = false) (maxDistance : Nat) {pos : Nat}
    (h : b.HasAt pos (Payload.encodeAll ps)) (a : Assembler) :
    readRecords b b.size maxDistance ps.length ⟨pos, a⟩ =
      (⟨pos + (Payload.encodeAll ps).length,
        ((Record.placed pos ps).filter Record.isKept).foldl Assembler.add a⟩, true) := by
  have hnone : ps.any Payload.isShape = false := by
    rw [List.any_eq_false]
    exact fun p hp => by simp [(hps p hp).2]
  rw [readRecords_through (fun p hp => (hps p hp).1) maxDistance (Nat.le_refl _) (.inl rfl) h a,
    throughShape_eq_self fun p hp => (hps p hp).2, hnone, Bool.not_false]

theorem foldl_addHover_eq {a : Assembler} {h : OpenHotspot} (hcurrent : a.current = some h)
    (rs : List Record) :
    rs.foldl Assembler.addHover a =
      { a with current := some { h with hover := h.hover ++ rs } } := by
  induction rs generalizing a h with
  | nil => rw [List.foldl_nil, List.append_nil, ← hcurrent]
  | cons r rs ih =>
      have hadd : a.addHover r = { a with current := some { h with hover := h.hover ++ [r] } } := by
        rw [Assembler.addHover, Assembler.openAt, hcurrent, Option.getD_some]
      rw [List.foldl_cons, hadd, ih rfl, List.append_assoc, List.singleton_append]

/-- What reading a group at a position makes of an assembler. -/
def afterGroup (g : StoredGroup) (pos : Nat) (a : Assembler) : Assembler :=
  closeWith g.shape ((g.hover pos).foldl Assembler.addHover
    (((Record.placed (pos + 8) g.records).filter Record.isKept).foldl Assembler.add
      (a.begin (some g.eventType) pos)))

theorem finish_closeWith {a : Assembler} {h : OpenHotspot} (hcurrent : a.current = some h)
    (shape : Option StoredShape) :
    (closeWith shape a).finish =
      { a with
        hotspots := a.hotspots ++
          if shape.isNone && !h.hasContent then []
          else [h.finished a.hotspots.length (shape.map fun s => Shape.ofPoints s.points)]
        current := none } := by
  cases shape with
  | none =>
      cases hcontent : h.hasContent with
      | false => simp [closeWith, Assembler.finish, Assembler.close, hcurrent, hcontent]
      | true => simp [closeWith, Assembler.finish, Assembler.close, hcurrent, hcontent]
  | some s => simp [closeWith, Assembler.finish, Assembler.close, hcurrent]

theorem finish_flat (a : Assembler) : a.finish.flat = a.flat := by
  unfold Assembler.finish Assembler.close
  split
  · rfl
  · split <;> rfl

/-- The open hotspot of a group when all its records are read. -/
def openedBy (g : StoredGroup) (pos : Nat) : OpenHotspot where
  offset := pos
  eventType := some g.eventType
  image := Record.imageOf (g.commands pos)
  commands := g.commands pos
  hover := g.hover pos

theorem hasContent_openedBy (g : StoredGroup) (pos : Nat) :
    (g.shape.isNone && !(openedBy g pos).hasContent) = g.isHollow pos := by
  rw [StoredGroup.isHollow, OpenHotspot.hasContent]
  cases hcommands : g.commands pos with
  | nil => simp [openedBy, hcommands, Record.imageOf]
  | cons r rs => simp [openedBy, hcommands]

/-- A group adds its hotspot to those finished before. -/
theorem finish_afterGroup {a : Assembler} (hflat : a.flat = false) (g : StoredGroup) (pos : Nat) :
    (afterGroup g pos a).flat = false ∧
      (afterGroup g pos a).finish.hotspots =
        a.finish.hotspots ++ StoredGroup.hotspots pos a.finish.hotspots.length [g] := by
  have hshapes : ∀ r ∈ (Record.placed (pos + 8) g.records).filter Record.isKept,
      r.payload.isShape = false := by
    intro r hr
    exact (g.storable _ (Record.payload_mem_of_mem_placed (List.mem_filter.mp hr).1)).2
  -- all records go to the hotspot that the group opens
  have hopen : (g.hover pos).foldl Assembler.addHover
      (((Record.placed (pos + 8) g.records).filter Record.isKept).foldl Assembler.add
        (a.begin (some g.eventType) pos)) =
      { a.finish with current := some (openedBy g pos) } := by
    rw [Assembler.foldl_add_eq (a := a.begin (some g.eventType) pos)
      (h := { offset := pos, eventType := some g.eventType })
      ((finish_flat a).trans hflat) rfl (fun _ => rfl) _ hshapes, List.filter_filter,
      foldl_addHover_eq rfl]
    rfl
  have hfinish := finish_closeWith (a := { a.finish with current := some (openedBy g pos) }) rfl
    g.shape
  rw [← finish_flat, afterGroup, hopen, hfinish]
  refine ⟨(finish_flat a).trans hflat, ?_⟩
  rw [hasContent_openedBy]
  rfl

/-- The parts of a group that stands at a position. -/
structure GroupAt (b : Buffer) (pos : Nat) (g : StoredGroup) : Prop where
  eventType : b.wordAt pos = g.eventType
  count : b.wordAt (pos + 4) = g.records.length
  records : b.HasAt (pos + 8) (Payload.encodeAll g.records)
  tip : b.HasAt (g.tipPos pos) (Payload.encodeAll g.tipRecords)
  shape : b.HasAt (g.shapePos pos) (StoredShape.encode? g.shape)
  padding : b.HasAt (g.shapePos pos + (StoredShape.encode? g.shape).length)
    (Encode.zeroWords g.padding)
  stop : pos + g.encode.length =
    g.shapePos pos + (StoredShape.encode? g.shape).length + 4 * g.padding

theorem groupAt_of_hasAt {b : Buffer} {pos : Nat} {g : StoredGroup} (h : b.HasAt pos g.encode) :
    GroupAt b pos g := by
  have htype : IsWord g.eventType := by
    have hmax := g.eventType_le
    unfold maxEventType at hmax
    unfold IsWord
    omega
  have hcount : IsWord g.records.length := by
    have hmax := g.length_lt
    unfold maxRecords at hmax
    rw [StoredGroup.records, List.length_cons]
    unfold IsWord
    omega
  obtain ⟨h₁, h⟩ := hasAt_append.mp h
  obtain ⟨h₂, h⟩ := hasAt_append.mp h
  obtain ⟨h₃, h⟩ := hasAt_append.mp h
  obtain ⟨h₄, h⟩ := hasAt_append.mp h
  obtain ⟨h₅, h₆⟩ := hasAt_append.mp h
  refine ⟨h₁.wordAt htype, h₂.wordAt hcount, h₃, h₄, h₅, h₆, ?_⟩
  simp only [StoredGroup.encode, StoredGroup.shapePos, StoredGroup.tipPos, List.length_append,
    Encode.length_word, Encode.length_zeroWords]
  omega

theorem GroupAt.size {b : Buffer} {pos : Nat} {g : StoredGroup} (h : GroupAt b pos g) :
    pos + 12 ≤ b.size := by
  have hfirst := (hasAt_append.mp h.records).1
  -- the first record alone takes a word
  have hsize := hfirst.le_size g.first.encode_ne_nil
  have hlen := g.first.four_le_length_encode
  omega

/-- A group looks like one. -/
theorem GroupAt.looksLike {b : Buffer} {pos : Nat} {g : StoredGroup} (h : GroupAt b pos g) :
    EventGroup.looksLike b pos = true := by
  have hsize := h.size
  have hmax := g.length_lt
  have hcount : g.records.length = g.rest.length + 1 := rfl
  have hfirst := hasCommand_of_hasAt (g.storable _ List.mem_cons_self).1 g.first_isCommand
    (hasAt_append.mp h.records).1
  rw [looksLike_iff, h.eventType, h.count]
  exact ⟨by omega, g.eventType_le, by omega, by omega, hfirst⟩

/-- The start of a group may stand behind another one. -/
theorem GroupAt.endsGroup {b : Buffer} {pos : Nat} {g : StoredGroup} (h : GroupAt b pos g) :
    EndsGroup b pos where
  start := fun _ => by
    rw [h.eventType, isStart_iff]
    exact Or.inl ⟨g.eventType_pos, g.eventType_le⟩
  unclaimed := by
    rintro p rfl
    exact startsGroup_eq_false_of_looksLike h.looksLike

/-- Behind the records of a group, reading comes to the end of the group or to the zero words
there. -/
theorem GroupAt.readTerminator {b : Buffer} {pos : Nat} {g : StoredGroup} (h : GroupAt b pos g)
    (hstop : EndsGroup b (pos + g.encode.length)) (a : Assembler) :
    ∃ after, PaddingTo b after (pos + g.encode.length) ∧
      EventGroup.readTerminator b b.size ⟨g.tipPos pos, a⟩ =
        (⟨after, closeWith g.shape ((g.hover pos).foldl Assembler.addHover a)⟩, .ok ()) := by
  have hpad : PaddingTo b (g.shapePos pos + (StoredShape.encode? g.shape).length)
      (pos + g.encode.length) := by
    rw [h.stop] at hstop ⊢
    exact hstop.stopsPadding.paddingTo h.padding
  cases htip : g.tip with
  | none =>
      have hnone : g.tipRecords = [] := by rw [StoredGroup.tipRecords, htip]; rfl
      have hpos : g.shapePos pos = g.tipPos pos := by rw [StoredGroup.shapePos, hnone]; rfl
      have hshape := h.shape
      rw [hpos] at hshape hpad
      rw [StoredGroup.hover, hnone]
      exact readTerminator_eq hshape hpad hstop a
  | some t =>
      have hsome : g.tipRecords = t.records := by rw [StoredGroup.tipRecords, htip]; rfl
      have hrecords := h.tip
      have hshape := h.shape
      rw [StoredGroup.shapePos, hsome] at hshape hpad
      rw [hsome] at hrecords
      obtain ⟨after, hafter, hread⟩ := readTipText_eq hrecords hshape hpad hstop a
      refine ⟨after, hafter, ?_⟩
      have hfont : (Payload.simple Command.font t.font).IsStorable := ⟨by decide, t.fontStorable⟩
      have hfirst := (hasAt_append.mp hrecords).1
      have hsize := hfirst.le_size (Payload.encode_ne_nil _)
      have hlen := (Payload.simple Command.font t.font).four_le_length_encode
      have hword : b.wordAt (g.tipPos pos) = 39 := hfont.wordAt hfirst
      -- the tip text stands right behind the records, with no zero words between
      have hskip : skipPadding b b.size (g.tipPos pos) = (g.tipPos pos, .ok ()) :=
        skipPadding_eq (paddingTo_self (by omega))
      have hpeek : peekTag b b.size (g.tipPos pos) = .ok (some 39) := by
        rw [peekTag_size, if_neg (by omega), hword]
      rw [StoredGroup.hover, hsome]
      simp only [EventGroup.readTerminator, hskip, hpeek]
      rw [if_neg (by decide), if_pos (by decide), hread]

/-- A group is read as a whole, up to its end or to the zero words there. -/
theorem GroupAt.read {b : Buffer} {p : Progress} {g : StoredGroup} (h : GroupAt b p.pos g)
    (hstop : EndsGroup b (p.pos + g.encode.length)) (maxDistance : Nat) :
    ∃ after, PaddingTo b after (p.pos + g.encode.length) ∧
      EventGroup.read b b.size maxDistance p =
        (⟨after, afterGroup g p.pos p.assembler⟩, .ok ()) := by
  have hrecords := readRecords_eq g.storable maxDistance h.records
    (p.assembler.begin (some g.eventType) p.pos)
  obtain ⟨after, hafter, hread⟩ := h.readTerminator hstop
    (((Record.placed (p.pos + 8) g.records).filter Record.isKept).foldl Assembler.add
      (p.assembler.begin (some g.eventType) p.pos))
  refine ⟨after, hafter, ?_⟩
  rw [EventGroup.read, h.eventType, h.count]
  simp only [StoredGroup.records, hrecords]
  exact hread

/-! ## Reading all groups -/

theorem hotspots_cons (pos id : Nat) (g : StoredGroup) (gs : List StoredGroup) :
    StoredGroup.hotspots pos id (g :: gs) =
      StoredGroup.hotspots pos id [g] ++ StoredGroup.hotspots (pos + g.encode.length)
        (id + (StoredGroup.hotspots pos id [g]).length) gs := by
  simp only [StoredGroup.hotspots]
  split <;> simp

/-- Where groups that end properly start, a group may end: the first of them starts there, or what
stands behind all of them does. -/
theorem endsGroup_of_hasAt {b : Buffer} {gs : List StoredGroup} {start : Nat}
    (h : b.HasAt start (StoredGroup.encodeAll gs))
    (hstop : EndsGroup b (start + (StoredGroup.encodeAll gs).length)) : EndsGroup b start := by
  cases gs with
  | nil => exact hstop
  | cons g gs => exact (groupAt_of_hasAt (hasAt_append.mp h).1).endsGroup

/-- Reading goes on from the zero words before some groups to what stands behind them. -/
theorem readMany_eq {b : Buffer} {gs : List StoredGroup} {p : Progress} {start : Nat}
    (hflat : p.assembler.flat = false) (hpad : PaddingTo b p.pos start)
    (h : b.HasAt start (StoredGroup.encodeAll gs))
    (hstop : EndsGroup b (start + (StoredGroup.encodeAll gs).length))
    (hlast : looksLike b (start + (StoredGroup.encodeAll gs).length) = false)
    (maxDistance : Nat) {fuel : Nat} (hfuel : gs.length < fuel) (groups : Nat) :
    ∃ after a, PaddingTo b after (start + (StoredGroup.encodeAll gs).length) ∧
      (readMany b b.size maxDistance fuel groups p).progress = ⟨after, a⟩ ∧
      a.finish.hotspots = p.assembler.finish.hotspots ++
        StoredGroup.hotspots start p.assembler.finish.hotspots.length gs := by
  induction gs generalizing p start fuel groups with
  | nil =>
      cases fuel with
      | zero => simp at hfuel
      | succ fuel =>
          -- reading ends for want of bytes, or at what does not look like a group
          by_cases hlimit : b.size < p.pos + 8
          · refine ⟨p.pos, p.assembler, hpad, ?_, (List.append_nil _).symm⟩
            rw [readMany, if_pos hlimit]
          · refine ⟨start, p.assembler, hstop.stopsPadding.paddingTo (n := 0) (hasAt_nil b start),
              ?_, (List.append_nil _).symm⟩
            rw [readMany, if_neg hlimit]
            simp only [skipPadding_eq hpad]
            rw [if_neg]
            simpa using hlast
  | cons g gs ih =>
      cases fuel with
      | zero => simp at hfuel
      | succ fuel =>
          obtain ⟨hg, hrest⟩ := hasAt_append.mp h
          have hgroup := groupAt_of_hasAt hg
          rw [StoredGroup.encodeAll_cons, List.length_append, ← Nat.add_assoc] at hstop hlast ⊢
          obtain ⟨after, hafter, hread⟩ := GroupAt.read (p := ⟨start, p.assembler⟩) hgroup
            (endsGroup_of_hasAt hrest hstop) maxDistance
          obtain ⟨hflat', hhotspots⟩ := finish_afterGroup hflat g start
          -- the rest is read from the zero words behind the first group on
          obtain ⟨last, a, hlast', hreadMany, ha⟩ := ih
            (p := ⟨after, afterGroup g start p.assembler⟩) hflat' hafter hrest hstop hlast
            (Nat.lt_of_succ_lt_succ hfuel) (groups + 1)
          refine ⟨last, a, hlast', ?_, ?_⟩
          · have hle := hpad.le
            have hsize := hgroup.size
            rw [readMany, if_neg (by omega)]
            simp only [skipPadding_eq hpad]
            rw [if_pos hgroup.looksLike]
            simp only [hread]
            exact hreadMany
          · rw [ha, hhotspots, hotspots_cons _ _ g gs, List.append_assoc, List.length_append]

end EventGroup

end PointAndClick
