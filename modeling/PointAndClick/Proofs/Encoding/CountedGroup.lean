import PointAndClick.Proofs.Decoding.Operations

/-!
# Reading groups whatever stands behind them

The written form of a group says how many records it has, and it is read without regard to what
stands behind it: what it asks of an assembler comes first, and its hotspot has its commands. The
same holds of a tip text behind the records of a group.
-/

set_option autoImplicit false

namespace PointAndClick.EventGroup

open Buffer Assembler

variable {b : Buffer} {pos start : Nat}

/-! ## Commands -/

/-- The tag of a command is no more than a count may be, and its text takes a word at least. -/
theorem tagWord_of_isCommand {p : Payload} (hp : p.IsStorable)
    (hcommand : p.isCommand = true) :
    0 < p.tagWord ∧ p.tagWord ≤ maxRecords ∧ 8 ≤ p.encode.length := by
  have hmax : maxRecords = 50 := rfl
  cases p with
  | null | marker | shape tag points => cases hcommand
  | wrapper code text | complex code text =>
      have hlen : 8 ≤ 4 + (4 + (4 + text.length)) := by omega
      simpa [Payload.tagWord, Record.tag, Payload.encode, Payload.body, hmax] using hlen
  | simple code text =>
      have hrange := isSimpleTag_iff.mp hp.1
      have hword := hp.tagWord.2
      have hlen : 8 ≤ 4 + (4 + text.length) := by omega
      simp only [Record.tag] at hword
      exact ⟨by omega, by omega, by simpa [Payload.encode, Payload.body] using hlen⟩

/-! ## Written groups -/

/-- A group and those of its records that are there: as many as it counts, or some up to a shape at
least. -/
structure CountedGroup where
  eventType : Nat
  count : Nat
  first : Payload
  rest : List Payload
  eventType_le : eventType ≤ maxEventType
  count_le : count ≤ maxRecords
  length_lt : rest.length < count
  first_isCommand : first.isCommand = true
  storable : ∀ p ∈ first :: rest, p.IsStorable
  complete : rest.length + 1 = count ∨ ∃ p ∈ rest, p.isShape = true

namespace CountedGroup

/-- The records of a group. -/
def records (g : CountedGroup) : List Payload := g.first :: g.rest

/-- The two words of a group and its records. -/
def encode (g : CountedGroup) : List UInt8 :=
  Encode.word g.eventType ++ (Encode.word g.count ++ Payload.encodeAll g.records)

/-- The records of a group at a position that are read and not dropped. -/
def kept (g : CountedGroup) (start : Nat) : List Record :=
  (Record.placed (start + 8) (throughShape g.records)).filter Record.isKept

/-- The commands of a group at a position. -/
def commands (g : CountedGroup) (start : Nat) : List Record :=
  (g.kept start).filter (·.payload.isCommand)

/-- What a group at a position asks of an assembler. -/
def operations (g : CountedGroup) (start : Nat) : List Operation :=
  .begin (some g.eventType) start :: (g.kept start).map .add

/-- The open hotspot of a group at a position when its records are read. -/
def opened (g : CountedGroup) (start : Nat) : OpenHotspot where
  offset := start
  eventType := some g.eventType
  image := Record.imageOf (g.commands start)
  commands := g.commands start

variable {g : CountedGroup}

theorem wordAt_of_hasAt (h : b.HasAt start g.encode) :
    b.wordAt start = g.eventType ∧ b.wordAt (start + 4) = g.count ∧
      b.HasAt (start + 8) (Payload.encodeAll g.records) := by
  obtain ⟨htype, h⟩ := hasAt_append.mp h
  obtain ⟨hcount, hrecords⟩ := hasAt_append.mp h
  have htypeMax : g.eventType ≤ 10 := g.eventType_le
  have hcountMax : g.count ≤ 50 := g.count_le
  exact ⟨htype.wordAt (by unfold IsWord; omega), hcount.wordAt (by unfold IsWord; omega), hrecords⟩

theorem add_sixteen_le_size (h : b.HasAt start g.encode) : start + 16 ≤ b.size := by
  have hfirst := (hasAt_append.mp (wordAt_of_hasAt h).2.2).1
  have hsize := hfirst.le_size g.first.encode_ne_nil
  have hlen := (tagWord_of_isCommand (g.storable _ List.mem_cons_self)
    g.first_isCommand).2.2
  omega

/-- A group looks like one. -/
theorem looksLike (h : b.HasAt start g.encode) : EventGroup.looksLike b start = true := by
  obtain ⟨htype, hcount, hrecords⟩ := wordAt_of_hasAt h
  have hsize := add_sixteen_le_size h
  have hlt := g.length_lt
  have hfirst := hasCommand_of_hasAt (g.storable _ List.mem_cons_self) g.first_isCommand
    (hasAt_append.mp hrecords).1
  rw [looksLike_iff, htype, hcount]
  exact ⟨by omega, g.eventType_le, by omega, g.count_le, hfirst⟩

/-! ## Reading a group -/

theorem run_operations (a : Assembler) (g : CountedGroup) (start : Nat) :
    run a (g.operations start) =
      (g.kept start).foldl Assembler.add (a.begin (some g.eventType) start) := by
  rw [run, operations, List.foldl_cons, List.foldl_map]
  rfl

/-- Records up to a shape go to the open hotspot. -/
theorem shows_foldl_add {a : Assembler} {h : OpenHotspot} (hflat : a.flat = false)
    (hcurrent : a.current = some h) (hplain : h.HasPlainImage) (pos : Nat) (ps : List Payload) :
    let rs := (Record.placed pos (throughShape ps)).filter Record.isKept
    Shows (rs.foldl Assembler.add a) a.hotspots.length
      (h.withCommands (rs.filter (·.payload.isCommand))) := by
  have hnone : ∀ r ∈ (Record.placed pos (ps.takeWhile fun p => !p.isShape)).filter Record.isKept,
      r.payload.isShape = false := by
    intro r hr
    have hmem := Record.payload_mem_of_mem_placed (List.mem_filter.mp hr).1
    simpa using List.mem_takeWhile_imp hmem
  intro rs
  have hrs : rs = (Record.placed pos (ps.takeWhile fun p => !p.isShape)).filter Record.isKept ++
      (Record.placed (pos + (Payload.encodeAll (ps.takeWhile fun p => !p.isShape)).length)
        (ps.find? Payload.isShape).toList).filter Record.isKept := by
    simp only [rs, throughShape, Record.placed_append, List.filter_append]
  rw [hrs, List.foldl_append, foldl_add_eq hflat hcurrent hplain _ hnone, List.filter_append]
  cases hfind : ps.find? Payload.isShape with
  | none =>
      simp only [Option.toList_none, Record.placed, List.filter_nil, List.foldl_nil,
        List.append_nil]
      exact shows_of_current rfl
  | some p =>
      have hshape : p.isShape = true := List.find?_some hfind
      cases p with
      | shape tag points =>
          simp only [Option.toList_some, Record.placed, List.filter_cons, Record.isKept, if_true,
            Payload.isCommand, Bool.false_eq_true, if_false, List.filter_nil, List.append_nil]
          have hopen : Shows
              { a with
                current := some (h.withCommands
                  (((Record.placed pos (ps.takeWhile fun p => !p.isShape)).filter
                    Record.isKept).filter (·.payload.isCommand))) }
              a.hotspots.length _ := shows_of_current rfl
          exact hopen.close (Shape.ofPoints points)
      | null | marker | wrapper code text | complex code text | simple code text => cases hshape

theorem opened_eq (g : CountedGroup) (start : Nat) :
    OpenHotspot.withCommands { offset := start, eventType := some g.eventType }
      (g.commands start) = g.opened start := rfl

/-- The records of a group go to the hotspot that it opens. -/
theorem shows_run_operations {a : Assembler} (hflat : a.flat = false) (g : CountedGroup)
    (start : Nat) :
    Shows (run a (g.operations start)) a.finish.hotspots.length (g.opened start) := by
  rw [run_operations, ← opened_eq]
  exact shows_foldl_add (a := a.begin (some g.eventType) start) ((finish_flat a).trans hflat) rfl
    (fun _ => rfl) (start + 8) g.records

/-- Without a shape among its records, the hotspot of a group is still open behind them. -/
theorem run_operations_of_forall {a : Assembler} (hflat : a.flat = false)
    (hrest : ∀ p ∈ g.records, p.isShape = false) (start : Nat) :
    run a (g.operations start) = { a.finish with current := some (g.opened start) } := by
  have hnone : ∀ r ∈ g.kept start, r.payload.isShape = false := by
    intro r hr
    rw [kept, throughShape_eq_self hrest] at hr
    exact hrest _ (Record.payload_mem_of_mem_placed (List.mem_filter.mp hr).1)
  rw [run_operations, ← opened_eq, foldl_add_eq (a := a.begin (some g.eventType) start)
    (h := { offset := start, eventType := some g.eventType }) ((finish_flat a).trans hflat) rfl
    (fun _ => rfl) _ hnone]
  rfl

/-- The position behind the records of a group that are read. -/
def stop (g : CountedGroup) (start : Nat) : Nat :=
  start + 8 + (Payload.encodeAll (throughShape g.records)).length

/-- The records of a group are read, and what ends it if no shape did. -/
theorem read_eq (h : b.HasAt start g.encode) (a : Assembler) (maxDistance : Nat) :
    EventGroup.read b b.size maxDistance ⟨start, a⟩ =
      if g.records.any Payload.isShape then (⟨g.stop start, run a (g.operations start)⟩, .ok ())
      else readTerminator b b.size ⟨g.stop start, run a (g.operations start)⟩ := by
  obtain ⟨htype, hcount, hrecords⟩ := wordAt_of_hasAt h
  have hcomplete : g.records.length = g.count ∨ ∃ p ∈ g.records, p.isShape = true :=
    g.complete.imp id fun ⟨p, hp, hshape⟩ => ⟨p, List.mem_cons_of_mem _ hp, hshape⟩
  have hstorable : ∀ p ∈ g.records, p.IsStorable := g.storable
  have hread := readRecords_through hstorable maxDistance g.length_lt hcomplete hrecords
    (a.begin (some g.eventType) start)
  rw [EventGroup.read, htype, hcount, run_operations]
  simp only [hread]
  cases g.records.any Payload.isShape <;> rfl

end CountedGroup

/-- With the end of the buffer as the limit, nothing stops what ends a group. -/
theorem readTerminator_ok (p : Progress) : (readTerminator b b.size p).2 = .ok () := by
  have hskip : (skipPadding b b.size p.pos).2 = .ok () := by
    simp only [skipPadding]
    rw [if_neg]
    simp only [Bool.and_eq_true, decide_eq_true_eq]
    omega
  unfold readTerminator
  by_cases hsize : b.size < (skipPadding b b.size p.pos).1 + 4
  · simp only [hskip, peekTag_size, if_pos hsize]
  · simp only [hskip, peekTag_size, if_neg hsize]
    split
    · rfl
    · split <;> rfl

namespace CountedGroup

variable {g : CountedGroup}

/-- A group is read with what it asks of an assembler first, and its hotspot keeps its commands. -/
theorem read_spec (h : b.HasAt start g.encode) (a : Assembler) (maxDistance : Nat) :
    let out := EventGroup.read b b.size maxDistance ⟨start, a⟩
    out.2 = .ok () ∧ Leads (run a (g.operations start)) out.1.assembler ∧
      (a.flat = false → ∃ hover,
        Shows out.1.assembler a.finish.hotspots.length { g.opened start with hover }) := by
  rw [read_eq h a maxDistance]
  cases hshape : g.records.any Payload.isShape with
  | true =>
      exact ⟨rfl, Leads.refl _, fun hflat => ⟨[], shows_run_operations hflat g start⟩⟩
  | false =>
      have hnone : ∀ p ∈ g.records, p.isShape = false := by
        simpa [List.any_eq_false] using hshape
      refine ⟨readTerminator_ok _, leads_readTerminator _ _, fun hflat => ?_⟩
      have hopen := run_operations_of_forall hflat hnone start
      obtain ⟨hover, -, hshows⟩ := shows_readTerminator (b := b)
        (p := ⟨g.stop start, run a (g.operations start)⟩) (h := g.opened start)
        (hopen ▸ rfl) b.size
      refine ⟨hover, ?_⟩
      have hplace : (run a (g.operations start)).hotspots = a.finish.hotspots := hopen ▸ rfl
      exact hplace ▸ hshows

end CountedGroup

/-! ## Reading the first of some groups -/

/-- Where padding ends at a group, that group is read, and the hotspots up to its own stay. -/
theorem readAll_of_read {p q : Progress} (maxDistance : Nat) (hlimit : p.pos + 8 ≤ b.size)
    (hskip : skipPadding b b.size p.pos = (start, .ok ())) (hlooks : looksLike b start = true)
    (hread : read b b.size maxDistance ⟨start, p.assembler⟩ = (q, .ok ())) :
    let out := readAll b none maxDistance p
    0 < out.groups ∧ Leads q.assembler out.progress.assembler ∧
      q.assembler.finish.hotspots <+: out.progress.assembler.finish.hotspots := by
  have hall : readAll b none maxDistance p =
      readMany b b.size maxDistance (b.size / 8) 1 q := by
    rw [readAll, readMany, if_neg (by omega)]
    simp only [hskip, hlooks, hread, if_true]
  intro out
  obtain ⟨hleads, hkept⟩ := leads_readMany (b := b) b.size maxDistance (b.size / 8) 1 q
  have hgroups := groups_le_readMany (b := b) b.size maxDistance (b.size / 8) 1 q
  simp only [out, hall]
  exact ⟨hgroups, hleads, hkept⟩

/-- The hotspot is that of a group at a position: it has the group's type, its position and its
commands. -/
structure CountedGroup.IsHotspot (g : CountedGroup) (start : Nat) (h : Hotspot) : Prop where
  eventType : h.eventType = some g.eventType
  offset : h.offset = start
  commands : h.commands = g.commands start

/-- A group at a position is the first of those that are read, and unless all its commands are
dropped, its hotspot is the first new one. -/
structure CountedGroup.IsReadFirst (g : CountedGroup) (start : Nat) (a : Assembler)
    (out : Outcome) : Prop where
  groups : 0 < out.groups
  operations : Leads (run a (g.operations start)) out.progress.assembler
  hotspot : a.flat = false → g.commands start ≠ [] → ∃ h,
    out.progress.assembler.finish.hotspots[a.finish.hotspots.length]? = some h ∧
      g.IsHotspot start h

/-- A group up to which padding is passed over is the first one read. -/
theorem readAll_of_hasAt {g : CountedGroup} (h : b.HasAt start g.encode)
    (hskip : skipPadding b b.size pos = (start, .ok ())) (hle : pos ≤ start) (a : Assembler)
    (maxDistance : Nat) : g.IsReadFirst start a (readAll b none maxDistance ⟨pos, a⟩) := by
  have hsize := CountedGroup.add_sixteen_le_size h
  have hlimit : pos + 8 ≤ b.size := by omega
  obtain ⟨hok, hleads, hshows⟩ := CountedGroup.read_spec h a maxDistance
  obtain ⟨hgroups, hrest, hkept⟩ := readAll_of_read (p := ⟨pos, a⟩)
    (q := (read b b.size maxDistance ⟨start, a⟩).1) maxDistance hlimit hskip
    (CountedGroup.looksLike h) (Prod.ext rfl hok)
  refine ⟨hgroups, hleads.trans hrest, fun hflat hcommands => ?_⟩
  obtain ⟨hover, hshows⟩ := hshows hflat
  have hcontent : OpenHotspot.hasContent { g.opened start with hover } = true := by
    simp [OpenHotspot.hasContent, CountedGroup.opened, hcommands]
  obtain ⟨shape, hfinished⟩ := hshows.finish hcontent
  exact ⟨_, getElem?_of_prefix hkept hfinished, rfl, rfl, rfl⟩

/-! ## Reading a tip text -/

/-- What stands where a tip text starts. -/
theorem wordAt_tip {t : StoredTip} (h : b.HasAt start (Payload.encodeAll t.records)) :
    b.wordAt start = 39 ∧ start + 8 ≤ b.size := by
  have hfont : (Payload.simple Command.font t.font).IsStorable := ⟨by decide, t.fontStorable⟩
  have hfirst := (hasAt_append.mp h).1
  have hsize := hfirst.le_size (Payload.encode_ne_nil _)
  have hlen := (tagWord_of_isCommand hfont rfl).2.2
  exact ⟨hfont.wordAt hfirst, by omega⟩

/-- Whatever stands behind a tip text, its records stay with the open hotspot. Only a font record
without a text record may be followed by more for the pointer. -/
theorem readTipText_of_hasAt {t : StoredTip} (h : b.HasAt start (Payload.encodeAll t.records))
    (a : Assembler) :
    let out := readTipText b b.size ⟨start, a⟩
    start + (Payload.encodeAll t.records).length ≤ out.pos ∧
      Leads (run a ((Record.placed start t.records).map .addHover)) out.assembler ∧
      ∀ h, a.current = some h → ∃ hover,
        h.hover ++ Record.placed start t.records <+: hover ∧
          (t.text.isSome = true → hover = h.hover ++ Record.placed start t.records) ∧
          Shows out.assembler a.hotspots.length { h with hover } := by
  let tipped := (Record.placed start t.records).foldl Assembler.addHover a
  let p : Progress := ⟨start + (Payload.encodeAll t.records).length, tipped⟩
  have hrun : run a ((Record.placed start t.records).map .addHover) = tipped := by
    rw [run, List.foldl_map]
    rfl
  have hopen (h : OpenHotspot) (hcurrent : a.current = some h) :
      tipped.hotspots = a.hotspots ∧
        tipped.current = some { h with hover := h.hover ++ Record.placed start t.records } := by
    have htipped : tipped = _ := foldl_addHover_eq hcurrent (Record.placed start t.records)
    rw [htipped]
    exact ⟨rfl, rfl⟩
  rw [readTipText_through h a, hrun]
  dsimp only
  split
  · refine ⟨le_readTipShape b.size p, leads_readTipShape b.size p, fun h hcurrent => ?_⟩
    obtain ⟨hplace, hstays⟩ := hopen h hcurrent
    exact ⟨_, List.prefix_refl _, fun _ => rfl,
      hplace ▸ shows_readTipShape (p := p) (shows_of_current hstays) b.size⟩
  · next htext =>
      refine ⟨le_readTipRest b.size p, leads_readTipRest b.size p, fun h hcurrent => ?_⟩
      obtain ⟨hplace, hstays⟩ := hopen h hcurrent
      obtain ⟨hover, hle, hshows⟩ := shows_readTipRest (b := b) (p := p) hstays b.size
      exact ⟨hover, hle, fun hsome => absurd hsome htext, hplace ▸ hshows⟩

/-- A group at a position is read with a tip text that stands at another one, and the hotspot of
the group has the records of the tip text for the pointer. -/
structure CountedGroup.IsReadWithTip (g : CountedGroup) (first : Nat) (t : StoredTip) (start : Nat)
    (a : Assembler) (out : Step) : Prop where
  finished : out.2 = .ok ()
  passed : start + (Payload.encodeAll t.records).length ≤ out.1.pos
  operations : Leads (run a (g.operations first ++
    (Record.placed start t.records).map .addHover)) out.1.assembler
  hotspot : a.flat = false → ∃ h,
    out.1.assembler.finish.hotspots[a.finish.hotspots.length]? = some h ∧
      g.IsHotspot first h ∧ Record.placed start t.records <+: h.hover ∧
      (t.text.isSome = true → h.hover = Record.placed start t.records)

/-- A tip text up to which padding is passed over behind a group is read with it. -/
theorem read_tip_of_hasAt {g : CountedGroup} {t : StoredTip} {first : Nat}
    (hrest : ∀ p ∈ g.records, p.isShape = false) (hgroup : b.HasAt first g.encode)
    (hpos : first + g.encode.length = pos)
    (htip : b.HasAt start (Payload.encodeAll t.records))
    (hskip : skipPadding b b.size pos = (start, .ok ())) (a : Assembler) (maxDistance : Nat) :
    g.IsReadWithTip first t start a (read b b.size maxDistance ⟨first, a⟩) := by
  obtain ⟨hfont, hsize⟩ := wordAt_tip htip
  have hstop : g.stop first = pos := by
    rw [CountedGroup.stop, throughShape_eq_self hrest, ← hpos]
    simp only [CountedGroup.encode, List.length_append, Encode.length_word]
    omega
  have hnone : g.records.any Payload.isShape = false := by
    rw [List.any_eq_false]
    exact fun p hp => by simp [hrest p hp]
  -- behind the group and the padding, the font record is seen
  have hpeek : peekTag b b.size start = .ok (some 39) := by
    rw [peekTag_size, if_neg (by omega), hfont]
  have hread : read b b.size maxDistance ⟨first, a⟩ =
      (readTipText b b.size ⟨start, run a (g.operations first)⟩, .ok ()) := by
    rw [CountedGroup.read_eq hgroup a maxDistance, hnone, if_neg Bool.false_ne_true, hstop]
    simp only [readTerminator, hskip, hpeek]
    rw [if_neg (by decide), if_pos (by decide)]
  obtain ⟨hend, hleads, hshows⟩ := readTipText_of_hasAt htip (run a (g.operations first))
  rw [hread]
  refine ⟨rfl, hend, ?_, fun hflat => ?_⟩
  · rw [run, List.foldl_append]
    exact hleads
  · have hopen := CountedGroup.run_operations_of_forall hflat hrest first
    have hstays : (run a (g.operations first)).current = some (g.opened first) := hopen ▸ rfl
    have hplace : (run a (g.operations first)).hotspots = a.finish.hotspots := hopen ▸ rfl
    obtain ⟨hover, hle, hexact, hshows⟩ := hshows _ hstays
    have hcontent : OpenHotspot.hasContent { g.opened first with hover } = true := by
      have hne : hover ≠ [] := fun hnil => by simp [hnil, StoredTip.records, Record.placed] at hle
      simp [OpenHotspot.hasContent, hne]
    obtain ⟨shape, hfinished⟩ := hshows.finish hcontent
    rw [hplace] at hfinished
    exact ⟨_, hfinished, ⟨rfl, rfl, rfl⟩, hle, hexact⟩

end PointAndClick.EventGroup
