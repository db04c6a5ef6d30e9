import PointAndClick.Project.Decode
import PointAndClick.Proofs.Encoding.EventGroup
import PointAndClick.Proofs.Encoding.Header

/-!
# The bytes that stand for whole projects

The written form of a project whose scenes stand in a stream: the header, the variables, 16 zero
bytes, and the scenes. Nothing in it says how long a scene is, how many groups a scene has, or how
many zero words stand between them; still the project is read back as it was written.
-/

set_option autoImplicit false

namespace PointAndClick

open Buffer Decoder EventGroup

/-! ## Written forms -/

/-- A scene of a stream. The sentinel is the number of zero words behind the word -12. -/
structure StoredScene where
  music : Bool
  wave : String
  pathFirst : Bool
  bitmap : String
  reserved : List UInt8
  properties : Nat
  padding : Nat
  sentinel : Option Nat
  groups : List StoredGroup
  waveStorable : IsStorable wave
  bitmapStorable : IsStorable bitmap
  length_reserved : reserved.length = 8
  properties_isWord : IsWord properties

namespace StoredScene

/-- The word that the scene starts with. -/
def marker (s : StoredScene) : Nat := if s.music then 0x81 else 0x01

/-- The bitmap block of a scene, its layout word first. -/
def encodeBitmap (s : StoredScene) : List UInt8 :=
  if s.pathFirst then Encode.word 0 ++ (Encode.text s.bitmap ++ s.reserved)
  else Encode.word 2 ++ (s.reserved ++ Encode.text s.bitmap)

/-- The word -12 and the zero words behind it, if they are there. -/
def encodeSentinel (s : StoredScene) : List UInt8 :=
  match s.sentinel with
  | none => []
  | some n => Encode.signed Scene.paddingSentinel ++ Encode.zeroWords n

/-- What stands before the padding of a scene. -/
def encodeHead (s : StoredScene) : List UInt8 :=
  Encode.word s.marker ++ (Encode.zeroWords 3 ++ (Encode.text s.wave ++ (s.encodeBitmap ++
    Encode.word s.properties)))

/-- The padding of a scene. -/
def encodePadding (s : StoredScene) : List UInt8 := Encode.zeroWords s.padding ++ s.encodeSentinel

/-- A scene. -/
def encode (s : StoredScene) : List UInt8 :=
  s.encodeHead ++ (s.encodePadding ++ StoredGroup.encodeAll s.groups)

/-- Some scenes in a row. -/
def encodeAll (ss : List StoredScene) : List UInt8 := ss.flatMap encode

@[simp] theorem encodeAll_nil : encodeAll [] = [] := rfl

@[simp] theorem encodeAll_cons (s : StoredScene) (ss : List StoredScene) :
    encodeAll (s :: ss) = s.encode ++ encodeAll ss := rfl

/-- The position of the groups of a scene at a position. -/
def groupsPos (s : StoredScene) (pos : Nat) : Nat :=
  pos + s.encodeHead.length + s.encodePadding.length

/-- The scene at a position. -/
def scene (s : StoredScene) (pos index : Nat) : Scene where
  index := index
  name := Text.fileStem s.bitmap
  flag := s.marker
  background := s.bitmap
  hotspots := StoredGroup.hotspots (s.groupsPos pos) 0 s.groups
  onEnter := if s.wave = "" then [] else [⟨.simple Command.playWav s.wave, pos + 16⟩]
  offset := pos
  wave := s.wave
  properties := s.properties

/-- Some scenes in a row, the first one at a position and with an index. -/
def placed : Nat → Nat → List StoredScene → List Scene
  | _, _, [] => []
  | pos, index, s :: ss => s.scene pos index :: placed (pos + s.encode.length) (index + 1) ss

end StoredScene

/-- A project whose scenes stand in a stream. -/
structure StoredProject where
  header : Header
  variableList : List (String × Int)
  scenes : List StoredScene
  headerStorable : header.IsStorable
  variablesStorable : ∀ v ∈ variableList, Variable.IsStorable v
  variableCount : header.variableCount = variableList.length

namespace StoredProject

/-- The project file. -/
def encode (f : StoredProject) : List UInt8 :=
  f.header.encode ++ (Variable.encodeAll f.variableList ++
    (Encode.zeroWords 4 ++ StoredScene.encodeAll f.scenes))

/-- The position behind the variables. -/
def variablesEnd (f : StoredProject) : Nat :=
  f.header.encode.length + (Variable.encodeAll f.variableList).length

/-- The project that the file describes. -/
def project (f : StoredProject) : Project where
  header := f.header
  variableList := Variable.placed f.header.encode.length f.variableList
  dialect := .stream
  scenes := linkSequentially (StoredScene.placed (f.variablesEnd + 16) 0 f.scenes)
  headerEnd := f.header.encode.length
  variablesEnd := f.variablesEnd
  size := f.encode.length

end StoredProject

/-! ## Reading a scene -/

namespace StoredScene

theorem length_encodeBitmap (s : StoredScene) : 16 ≤ s.encodeBitmap.length := by
  have hreserved := s.length_reserved
  unfold encodeBitmap
  split <;> simp only [List.length_append, Encode.length_word, Encode.length_text] <;> omega

theorem length_encodeHead (s : StoredScene) : 40 ≤ s.encodeHead.length := by
  have hbitmap := s.length_encodeBitmap
  simp only [encodeHead, List.length_append, Encode.length_word, Encode.length_zeroWords,
    Encode.length_text]
  omega

theorem length_encode (s : StoredScene) : 40 ≤ s.encode.length := by
  have hhead := s.length_encodeHead
  rw [encode, List.length_append]
  omega

theorem length_le_length_encodeAll (ss : List StoredScene) :
    40 * ss.length ≤ (encodeAll ss).length := by
  induction ss with
  | nil => exact Nat.le_refl _
  | cons s ss ih =>
      have hlen := s.length_encode
      rw [encodeAll_cons, List.length_append, List.length_cons]
      omega

/-- The bitmap block is read back in either layout. -/
theorem readsAt_decodeBitmap (s : StoredScene) (pos : Nat) :
    ReadsAt Scene.decodeBitmap pos s.encodeBitmap s.bitmap := by
  unfold encodeBitmap
  split
  · refine (readsAt_position pos).bind_nil ((readsAt_word (by decide) pos).bind ?_)
    rw [if_neg (by decide), if_pos rfl]
    refine (readsAt_text s.bitmapStorable _ _).bind ?_
    exact (readsAt_skip s.length_reserved (by decide) _).map
  · refine (readsAt_position pos).bind_nil ((readsAt_word (by decide) pos).bind ?_)
    rw [if_pos rfl]
    exact (readsAt_skip s.length_reserved (by decide) _).bind (readsAt_text s.bitmapStorable _ _)

/-- The padding of a scene ends where its groups start. -/
theorem paddingEnd_eq {b : Buffer} {s : StoredScene} {pos : Nat}
    (h : b.HasAt pos s.encodePadding) (hgroups : EndsGroup b (pos + s.encodePadding.length)) :
    Scene.paddingEnd b pos = pos + s.encodePadding.length := by
  have hsentinel : Scene.paddingSentinel = -12 := rfl
  obtain ⟨hzero, hrest⟩ := hasAt_append.mp h
  rw [encodePadding, List.length_append, ← Nat.add_assoc] at hgroups ⊢
  rw [Encode.length_zeroWords] at hrest hgroups ⊢
  cases hcase : s.sentinel with
  | none =>
      have hnil : s.encodeSentinel = [] := by rw [encodeSentinel, hcase]
      rw [hnil, List.length_nil, Nat.add_zero] at hgroups ⊢
      have hskip := skipPadding_eq (hgroups.stopsPadding.paddingTo hzero)
      -- what a group or a scene starts with is not taken for the sentinel
      have hother : ¬(pos + 4 * s.padding + 4 ≤ b.size ∧
          b.signedAt (pos + 4 * s.padding) = Scene.paddingSentinel) := by
        rintro ⟨hsize, hsigned⟩
        have hword := isStart_iff.mp (hgroups.start hsize)
        simp only [Buffer.signedAt, hsentinel] at hsigned
        rw [if_pos (by omega)] at hsigned
        omega
      simp only [Scene.paddingEnd, hskip]
      rw [if_neg hother]
  | some n =>
      have hsome : s.encodeSentinel = Encode.signed Scene.paddingSentinel ++ Encode.zeroWords n := by
        rw [encodeSentinel, hcase]
      rw [hsome] at hrest
      rw [hsome, List.length_append, ← Nat.add_assoc, Encode.length_signed,
        Encode.length_zeroWords] at hgroups ⊢
      obtain ⟨hword, hzero'⟩ := hasAt_append.mp hrest
      rw [Encode.length_signed] at hzero'
      -- the sentinel is too large for a count, so that no zero word before it starts a group
      have hlarge : maxRecords < b.wordAt (pos + 4 * s.padding) := by
        rw [hword.wordAt (by decide)]
        decide
      have hsize := hword.le_size (Encode.word_ne_nil _)
      rw [Encode.length_signed] at hsize
      have hskip := skipPadding_eq ((stopsPadding_of_large hlarge).paddingTo hzero)
      have hskip' := skipPadding_eq (hgroups.stopsPadding.paddingTo hzero')
      simp only [Scene.paddingEnd, hskip]
      rw [if_pos ⟨hsize, hword.signedAt (by decide)⟩, hskip']

/-- What stands behind a scene: the next one, or the end of the buffer. -/
structure EndsScene (b : Buffer) (stop : Nat) : Prop where
  endsGroup : EndsGroup b stop
  notGroup : looksLike b stop = false

/-- The hotspots of a scene are read up to the end of the scene or to the zero words there. -/
theorem decodeHotspots_eq {b : Buffer} {s : StoredScene} {pos : Nat}
    (hpad : b.HasAt pos s.encodePadding)
    (hgroups : b.HasAt (pos + s.encodePadding.length) (StoredGroup.encodeAll s.groups))
    (hstop : EndsScene b
      (pos + s.encodePadding.length + (StoredGroup.encodeAll s.groups).length))
    (maxDistance : Nat) :
    ∃ after,
      PaddingTo b after
        (pos + s.encodePadding.length + (StoredGroup.encodeAll s.groups).length) ∧
      Scene.decodeHotspots maxDistance b pos =
        .ok (StoredGroup.hotspots (pos + s.encodePadding.length) 0 s.groups, after) := by
  have hstart := endsGroup_of_hasAt hgroups hstop.endsGroup
  have hfuel : s.groups.length < b.size / 8 + 1 := by
    have hlen := StoredGroup.length_le_length_encodeAll s.groups
    have hsize := hgroups.length_le_size
    omega
  obtain ⟨after, a, hafter, hread, ha⟩ := readMany_eq
    (p := ⟨pos + s.encodePadding.length, { flat := false }⟩) rfl
    (hstart.stopsPadding.paddingTo (n := 0) (hasAt_nil b _)) hgroups hstop.endsGroup
    hstop.notGroup maxDistance hfuel 0
  refine ⟨after, hafter, ?_⟩
  simp only [Scene.decodeHotspots, readAll, paddingEnd_eq hpad hstart, hread, ha]
  rfl

/-- A scene is read up to its end or to the zero words there. -/
theorem decode_eq {b : Buffer} {s : StoredScene} {pos : Nat} (h : b.HasAt pos s.encode)
    (hstop : EndsScene b (pos + s.encode.length)) (maxDistance index : Nat) :
    ∃ after, PaddingTo b after (pos + s.encode.length) ∧
      Scene.decode maxDistance index b pos = .ok (s.scene pos index, after) := by
  have hmarker : IsWord s.marker := by
    unfold marker
    split <;> decide
  obtain ⟨hhead, hrest⟩ := hasAt_append.mp h
  obtain ⟨hpad, hgroups⟩ := hasAt_append.mp hrest
  have hlength : pos + s.encode.length = pos + s.encodeHead.length + s.encodePadding.length +
      (StoredGroup.encodeAll s.groups).length := by
    simp only [encode, List.length_append]
    omega
  rw [hlength] at hstop ⊢
  obtain ⟨after, hafter, hread⟩ := decodeHotspots_eq hpad hgroups hstop maxDistance
  refine ⟨after, hafter, ?_⟩
  obtain ⟨h₁, h'⟩ := hasAt_append.mp hhead
  obtain ⟨h₂, h'⟩ := hasAt_append.mp h'
  obtain ⟨h₃, h'⟩ := hasAt_append.mp h'
  obtain ⟨h₄, h₅⟩ := hasAt_append.mp h'
  -- the parts of the head one after another, as the decoder comes to them
  have hpos : pos + s.encodeHead.length = pos + (Encode.word s.marker).length +
      (Encode.zeroWords 3).length + (Encode.text s.wave).length + s.encodeBitmap.length +
      (Encode.word s.properties).length := by
    simp only [encodeHead, List.length_append]
    omega
  rw [hpos] at hread
  refine bind_eq_ok.mpr ⟨_, _, rfl, ?_⟩
  refine bind_eq_ok.mpr ⟨_, _, readsAt_word hmarker _ b h₁, ?_⟩
  refine bind_eq_ok.mpr ⟨_, _, readsAt_skip rfl (by decide) _ b h₂, ?_⟩
  refine bind_eq_ok.mpr ⟨_, _, rfl, ?_⟩
  refine bind_eq_ok.mpr ⟨_, _, readsAt_text s.waveStorable _ _ b h₃, ?_⟩
  refine bind_eq_ok.mpr ⟨_, _, s.readsAt_decodeBitmap _ b h₄, ?_⟩
  refine bind_eq_ok.mpr ⟨_, _, readsAt_word s.properties_isWord _ b h₅, ?_⟩
  refine bind_eq_ok.mpr ⟨_, _, hread, ?_⟩
  rw [← hpos]
  rfl

/-! ## Reading all scenes -/

theorem wordAt_marker {b : Buffer} {s : StoredScene} {pos : Nat} (h : b.HasAt pos s.encode) :
    b.wordAt pos = s.marker ∧ Scene.isMarker s.marker = true := by
  have hmarker : IsWord s.marker ∧ Scene.isMarker s.marker = true := by
    unfold marker
    split <;> decide
  obtain ⟨hhead, -⟩ := hasAt_append.mp h
  exact ⟨(hasAt_append.mp hhead).1.wordAt hmarker.1, hmarker.2⟩

/-- A scene may stand behind another one. -/
theorem endsScene_of_hasAt {b : Buffer} {s : StoredScene} {pos : Nat} (h : b.HasAt pos s.encode) :
    EndsScene b pos := by
  have hword := (wordAt_marker h).1
  obtain ⟨hhead, -⟩ := hasAt_append.mp h
  obtain ⟨-, hrest⟩ := hasAt_append.mp hhead
  obtain ⟨hzero, -⟩ := hasAt_append.mp hrest
  rw [Encode.length_word] at hzero
  refine ⟨⟨fun _ => ?_, ?_⟩, looksLike_eq_false_of_zero (hzero.zeroWord (k := 0) (by omega)).1⟩
  · rw [hword]
    unfold marker
    split <;> decide
  · rintro p rfl
    -- a null record stands where the first record of a group would
    have hnull : b.HasAt (p + 8) (Encode.zeroWords 1 ++ Encode.zeroWords 2) := hzero
    exact startsGroup_eq_false (looksLike_eq_false_of_null (hasAt_append.mp hnull).1)

/-- The end of the buffer may stand behind a scene. -/
theorem endsScene_size (b : Buffer) : EndsScene b b.size where
  endsGroup :=
    { start := fun h => absurd h (by omega)
      unclaimed := by
        rintro p hp
        exact startsGroup_eq_false (looksLike_eq_false_of_size (by omega)) }
  notGroup := looksLike_eq_false_of_size (by omega)

/-- Where scenes that run to the end of the buffer start, a scene may end. -/
theorem endsScene_of_all {b : Buffer} {ss : List StoredScene} {start : Nat}
    (h : b.HasAt start (encodeAll ss)) (hsize : start + (encodeAll ss).length = b.size) :
    EndsScene b start := by
  cases ss with
  | nil =>
      have hstart : start = b.size := hsize
      rw [hstart]
      exact endsScene_size b
  | cons s ss => exact endsScene_of_hasAt (hasAt_append.mp h).1

/-- Scenes that run to the end of the buffer are read from the zero words before them on. -/
theorem collect_eq {b : Buffer} {ss : List StoredScene} {pos start : Nat}
    (hpad : PaddingTo b pos start) (h : b.HasAt start (encodeAll ss))
    (hsize : start + (encodeAll ss).length = b.size) (maxDistance : Nat) {fuel : Nat}
    (hfuel : ss.length < fuel) (index : Nat) :
    SceneStream.collect b maxDistance fuel index pos = (placed start index ss, b.size, []) := by
  induction ss generalizing pos start fuel index with
  | nil =>
      cases fuel with
      | zero => simp at hfuel
      | succ fuel =>
          have hstart : start = b.size := hsize
          simp only [SceneStream.collect, skipPadding_eq hpad]
          rw [if_pos (Or.inl (by omega)), hstart]
          rfl
  | cons s ss ih =>
      cases fuel with
      | zero => simp at hfuel
      | succ fuel =>
          obtain ⟨hs, hrest⟩ := hasAt_append.mp h
          obtain ⟨hword, hmarker⟩ := wordAt_marker hs
          have hlen := s.length_encode
          have hbound := hs.le_size (List.ne_nil_of_length_pos (by omega))
          rw [encodeAll_cons, List.length_append, ← Nat.add_assoc] at hsize
          obtain ⟨after, hafter, hread⟩ := decode_eq hs (endsScene_of_all hrest hsize)
            maxDistance index
          -- the other scenes are read from the zero words behind the first one on
          have ih := ih hafter hrest hsize (Nat.lt_of_succ_lt_succ hfuel) (index + 1)
          simp only [SceneStream.collect, skipPadding_eq hpad]
          rw [hword, hmarker, if_neg (by simp; omega), hread]
          simp only [ih]
          rfl

/-- A stream that runs to the end of the buffer is read as a whole. -/
theorem read_eq {b : Buffer} {ss : List StoredScene} {start : Nat}
    (h : b.HasAt (start + 16) (encodeAll ss)) (hsize : start + 16 + (encodeAll ss).length = b.size)
    (maxDistance : Nat) :
    SceneStream.read b maxDistance start =
      { scenes := placed (start + 16) 0 ss, start, stop := b.size } := by
  have hlen := length_le_length_encodeAll ss
  have hpad := (endsScene_of_all h hsize).endsGroup.stopsPadding.paddingTo (n := 0) (hasAt_nil b _)
  have hfuel : ss.length < b.size / 40 + 1 := by omega
  have hcollect := collect_eq hpad h hsize maxDistance hfuel 0
  have hreserved : SceneStream.reservedWidth = 16 := rfl
  rw [SceneStream.read, hreserved, if_neg (by omega), hcollect]

end StoredScene

/-! ## Reading a project -/

namespace StoredProject

/-- The reserved zero bytes before a stream tell it from a table. -/
theorem detect_eq {b : Buffer} {pos : Nat} (h : b.HasAt pos (Encode.zeroWords 4)) :
    Dialect.detect b pos = .stream := by
  have hword : b.wordAt (pos : Int).toNat = 0 := (h.zeroWord (k := 0) (by omega)).1
  unfold Dialect.detect
  split
  · rfl
  · rw [hword]
    rfl

/-- A buffer that holds just the file is read as its project. -/
theorem decode_of_hasAt (f : StoredProject) {b : Buffer} (h : b.HasAt 0 f.encode)
    (hsize : b.size = f.encode.length) (maxDistance : Nat) :
    Project.decode b maxDistance = .ok f.project := by
  obtain ⟨hheader, hrest⟩ := hasAt_append.mp h
  obtain ⟨hvariables, hrest⟩ := hasAt_append.mp hrest
  obtain ⟨hzero, hscenes⟩ := hasAt_append.mp hrest
  rw [Nat.zero_add] at hvariables hzero hscenes
  have hlength : f.variablesEnd + 16 + (StoredScene.encodeAll f.scenes).length = b.size := by
    simp only [hsize, encode, variablesEnd, List.length_append, Encode.length_zeroWords]
    omega
  have hdecode := Header.readsAt_decode f.headerStorable 0 b hheader
  have htable : Variable.table b f.header.variableCount f.header.encode.length =
      (Variable.placed f.header.encode.length f.variableList, f.variablesEnd) := by
    rw [f.variableCount]
    exact Variable.table_of_hasAt f.variablesStorable hvariables
  -- the zero bytes decide for a stream
  have hdialect : Dialect.detect b f.variablesEnd = .stream := detect_eq hzero
  have hstream : SceneStream.read b maxDistance f.variablesEnd =
      { scenes := StoredScene.placed (f.variablesEnd + 16) 0 f.scenes, start := f.variablesEnd
        stop := b.size } := StoredScene.read_eq hscenes hlength maxDistance
  have hfound : ¬(Variable.placed f.header.encode.length f.variableList).length <
      f.header.variableCount := by
    rw [Variable.length_placed, f.variableCount]
    omega
  rw [Nat.zero_add] at hdecode
  simp only [Project.decode, hdecode, bind, Except.bind, htable, hdialect, Project.decodeScenes,
    hstream, Project.variableErrors, if_neg hfound, hsize]
  rfl

/-- A project whose scenes stand in a stream is read back as it was written. -/
theorem decode_encode (f : StoredProject) (maxDistance : Nat) :
    Project.decode f.encode.toArray maxDistance = .ok f.project :=
  f.decode_of_hasAt (by simpa using hasAt_of_append [] f.encode []) List.size_toArray maxDistance

/-- A group with an image, a polygon and a tip text, and a command that is read and dropped. -/
def pond : StoredGroup where
  eventType := 1
  first := .simple Command.playBmp "pond.bmp 4 5 6"
  rest := [.wrapper 6 "2", .complex 5 "dropped"]
  tip := some
    { font := "Georgia 12", text := some "The pond", fontStorable := by decide
      textStorable := by rintro t ⟨⟩; decide }
  shape := some
    { padding := 1, tag := 103, points := [⟨10, 10⟩, ⟨40, 10⟩, ⟨25, 30⟩], storable := by decide }
  padding := 2
  eventType_pos := by decide
  eventType_le := by decide
  length_lt := by decide
  first_isCommand := rfl
  storable := by decide

/-- A group with a sound and nothing else. -/
def birds : StoredGroup where
  eventType := 3
  first := .simple Command.playWav "birds.wav"
  rest := []
  tip := none
  shape := none
  padding := 0
  eventType_pos := by decide
  eventType_le := by decide
  length_lt := by decide
  first_isCommand := rfl
  storable := by decide

/-- A project of two scenes, one in each of the two layouts, with a variable. -/
def outing : StoredProject where
  header := { flags := [0, 0, 0, 0, 0], projectName := "Outing", variableCount := 1 }
  variableList := [("LAPS", -3)]
  scenes := [
    { music := true, wave := "wind.wav", pathFirst := true, bitmap := "img\\garden.bmp"
      reserved := List.replicate 8 7, properties := 2, padding := 3, sentinel := some 2
      groups := [pond, birds], waveStorable := by decide, bitmapStorable := by decide
      length_reserved := rfl, properties_isWord := by decide },
    { music := false, wave := "gate.wav", pathFirst := false, bitmap := "gate.bmp"
      reserved := List.replicate 8 9, properties := 1, padding := 0, sentinel := none
      groups := [birds], waveStorable := by decide, bitmapStorable := by decide
      length_reserved := rfl, properties_isWord := by decide }]
  headerStorable := by constructor <;> decide
  variablesStorable := by decide
  variableCount := rfl

theorem decode_encode_outing :
    Project.decode outing.encode.toArray (4096 : Nat) = .ok outing.project ∧
      outing.project.scenes.map (fun s => (s.name, s.wave, s.links.forward, s.links.backward)) =
        [("garden", "wind.wav", some 1, none), ("gate", "gate.wav", none, some 0)] ∧
      outing.project.scenes.flatMap (·.hotspots) =
        [{ id := 0, image := "pond.bmp", x := 4, y := 5, z := 6
           commands := [⟨.simple Command.playBmp "pond.bmp 4 5 6", 201⟩, ⟨.wrapper 6 "2", 223⟩]
           shape := some (.polygon [⟨10, 10⟩, ⟨40, 10⟩, ⟨25, 30⟩])
           hover := [⟨.simple Command.font "Georgia 12", 255⟩,
            ⟨.simple Command.playText "The pond", 273⟩]
           eventType := some 1, offset := 193 },
          { id := 1, commands := [⟨.simple Command.playWav "birds.wav", 341⟩]
            eventType := some 3, offset := 333 },
          { id := 0, commands := [⟨.simple Command.playWav "birds.wav", 422⟩]
            eventType := some 3, offset := 414 }] :=
  ⟨outing.decode_encode 4096, by decide +kernel, by decide +kernel⟩

end StoredProject

end PointAndClick
