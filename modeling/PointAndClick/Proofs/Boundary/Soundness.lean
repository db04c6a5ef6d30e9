import Mathlib.Data.List.Nodup
import PointAndClick.Proofs.Boundary.Search

/-!
# Scene starts are what they are said to be

Of the finds of the four searches those without a content are dropped, then those that repeat the
next one and those that end the game. What is left is numbered. So what holds of each find, or of
any two, holds of the scene starts, and only these two rules keep a candidate from being one
(`scan_sound`).
-/

set_option autoImplicit false

namespace PointAndClick.Boundary

variable {b : Buffer} {p : BoundaryProfile} {start : Nat} {c d : Candidate} {cs : List Candidate}

/-! ## Contents -/

/-- A candidate is a find with a content, which it is given only if it has none. -/
theorem withContent?_eq_some (h : withContent? b p c = some d) :
    ∃ content, d = { c with content := some content } ∧
      (c.content = none ∨ c.content = some content) := by
  unfold withContent? at h
  split at h
  · rename_i content hcontent
    cases h
    exact ⟨content, by rw [← hcontent], .inr hcontent⟩
  · rename_i hnone
    obtain ⟨content, -, rfl⟩ := Option.map_eq_some_iff.mp h
    exact ⟨content, rfl, .inl hnone⟩

/-- Finds that are put in for their text have it as their content. -/
theorem Candidate.Fits.withContent (hc : c.Fits b p) (h : withContent? b p c = some d) :
    d.Fits b p := by
  obtain ⟨content, rfl, hnone | hsome⟩ := withContent?_eq_some h
  · revert hc
    unfold Candidate.Fits
    have hnames {text : String} {minZeros : Int} : ¬c.Names b text minZeros := by
      intro hnames
      have hcontent := hnames.content
      rw [hnone] at hcontent
      nomatch hcontent
    cases hkind : c.kind with
    | delimiter | music => exact id
    | empty => exact fun h => absurd h hnames
    | named => exact fun ⟨_, _, h⟩ => absurd h hnames
  · have hsame : { c with content := some content } = c := by rw [← hsome]
    rwa [hsame]

theorem Table.candidates (h : Table b p start cs) :
    Table b p start (cs.filterMap (withContent? b p)) := by
  have hposition {c d : Candidate} (hd : withContent? b p c = some d) :
      d.position = c.position ∧ d.kind = c.kind := by
    obtain ⟨content, rfl, -⟩ := withContent?_eq_some hd
    exact ⟨rfl, rfl⟩
  refine ⟨?_, fun d hd => ?_, fun d hd => ?_, fun d hd d' hd' => ?_⟩
  · refine h.ordered.filterMap _ fun c c' hlt d hd d' hd' => ?_
    rw [(hposition hd).1, (hposition hd').1]
    exact hlt
  · obtain ⟨c, hc, hd⟩ := List.mem_filterMap.mp hd
    rw [(hposition hd).1]
    exact h.start_le c hc
  · obtain ⟨c, hc, hd⟩ := List.mem_filterMap.mp hd
    exact (h.fits c hc).withContent hd
  · obtain ⟨c, hc, hd⟩ := List.mem_filterMap.mp hd
    obtain ⟨c', hc', hd'⟩ := List.mem_filterMap.mp hd'
    unfold Candidate.Apart
    rw [(hposition hd).1, (hposition hd).2, (hposition hd').1, (hposition hd').2]
    exact h.apart c hc c' hc'

theorem Table.sublist {ds : List Candidate} (h : Table b p start cs) (hsub : ds.Sublist cs) :
    Table b p start ds where
  ordered := h.ordered.sublist hsub
  start_le c hc := h.start_le c (hsub.mem hc)
  fits c hc := h.fits c (hsub.mem hc)
  apart c hc d hd := h.apart c (hsub.mem hc) d (hsub.mem hd)

/-! ## Genuine candidates -/

/-- The candidate at a place of a list is no scene: it repeats the next one, or it belongs to the
end of the game. -/
def IsFalse (p : BoundaryProfile) (cs : List Candidate) (k : Nat) (c : Candidate) : Prop :=
  (∃ next, cs[k + 1]? = some next ∧ p.echoZeros.1 ≤ c.zeros ∧ c.zeros ≤ p.echoZeros.2 ∧
    c.content = next.content ∧ c.position + p.echoMinGap ≤ next.position) ∨
  p.endGameMinZeros ≤ c.zeros ∧ c.content = some p.endGameVideo

theorem genuine_sublist (p : BoundaryProfile) (cs : List Candidate) :
    (genuine p cs).Sublist cs := by
  fun_induction genuine p cs with
  | case1 => exact .slnil
  | case2 c cs hfalse ih => exact ih.cons c
  | case3 c cs hgenuine ih => exact ih.cons_cons c

theorem isFalse_zero_iff :
    IsFalse p (c :: cs) 0 c ↔ (isEcho p c cs.head? || isEndGame p c) = true := by
  simp [IsFalse, isEcho, isEndGame, List.head?_eq_getElem?, Option.any_eq_true, and_assoc]

theorem mem_genuine_iff :
    c ∈ genuine p cs ↔ ∃ k, cs[k]? = some c ∧ ¬IsFalse p cs k c := by
  fun_induction genuine p cs with
  | case1 => simp
  | case2 d ds hfalse ih =>
      rw [ih]
      constructor
      · rintro ⟨k, hk, hgenuine⟩
        exact ⟨k + 1, hk, hgenuine⟩
      · rintro ⟨_ | k, hk, hgenuine⟩
        · cases hk
          exact absurd (isFalse_zero_iff.mpr hfalse) hgenuine
        · exact ⟨k, hk, hgenuine⟩
  | case3 d ds hgenuine ih =>
      rw [List.mem_cons, ih]
      constructor
      · rintro (rfl | ⟨k, hk, hk'⟩)
        · exact ⟨0, rfl, fun hfalse => hgenuine (isFalse_zero_iff.mp hfalse)⟩
        · exact ⟨k + 1, hk, hk'⟩
      · rintro ⟨_ | k, hk, hk'⟩
        · cases hk
          exact .inl rfl
        · exact .inr ⟨k, hk, hk'⟩

/-- No candidate of a table stands at two places of it. -/
theorem Table.mem_genuine_iff (h : Table b p start cs) {k : Nat} (hk : cs[k]? = some c) :
    c ∈ genuine p cs ↔ ¬IsFalse p cs k c := by
  have hnodup : cs.Nodup := h.ordered.imp fun hlt heq => Nat.ne_of_lt hlt (congrArg _ heq)
  rw [Boundary.mem_genuine_iff]
  refine ⟨?_, fun hgenuine => ⟨k, hk, hgenuine⟩⟩
  rintro ⟨k', hk', hgenuine⟩
  obtain ⟨hlt, -⟩ := List.getElem?_eq_some_iff.mp hk
  obtain rfl : k = k' := (List.getElem?_inj hlt hnodup).mp (hk.trans hk'.symm)
  exact hgenuine

/-! ## Scene starts -/

/-- The candidate of a scene start. -/
def SceneStart.candidate (s : SceneStart) : Candidate :=
  ⟨s.position, s.kind, s.zeros, some s.content⟩

/-- The scene starts are numbered from one on, and each is a candidate. They are in the order of
their positions, and each is what it says it is; no music is near to a delimiter or to other music.
A candidate is no scene start just if it repeats the next one or belongs to the end of the game. -/
structure Sound (b : Buffer) (p : BoundaryProfile) (start : Nat) (cs : List Candidate)
    (starts : List SceneStart) : Prop where
  indices : starts.map (·.index) = List.range' 1 starts.length
  candidates : ∀ s ∈ starts, s.candidate ∈ cs
  table : Table b p start (starts.map SceneStart.candidate)
  missing : ∀ (k : Nat) (c : Candidate), cs[k]? = some c →
    (c ∉ starts.map SceneStart.candidate ↔ IsFalse p cs k c)

/-- The scene starts of some candidates. -/
theorem Table.sound (h : Table b p start cs) (hcontent : ∀ c ∈ cs, c.content.isSome) :
    Sound b p start cs ((genuine p cs).mapIdx fun i c =>
      ⟨i + 1, c.position, c.kind, c.zeros, c.content.getD ""⟩) := by
  have hsub := genuine_sublist p cs
  have hcandidates : ((genuine p cs).mapIdx fun i c =>
      (⟨i + 1, c.position, c.kind, c.zeros, c.content.getD ""⟩ : SceneStart)).map
        SceneStart.candidate = genuine p cs := by
    refine List.ext_getElem? fun i => ?_
    rw [List.getElem?_map, List.getElem?_mapIdx]
    cases hi : (genuine p cs)[i]? with
    | none => rfl
    | some c =>
        obtain ⟨content, hc⟩ := Option.isSome_iff_exists.mp
          (hcontent c (hsub.mem (List.mem_of_getElem? hi)))
        have hsame : (⟨c.position, c.kind, c.zeros, some (c.content.getD "")⟩ : Candidate) = c := by
          rw [hc, Option.getD_some, ← hc]
        exact congrArg some hsame
  refine ⟨?_, fun s hs => ?_, ?_, fun k c hk => ?_⟩
  · refine List.ext_getElem (by simp) fun i hi _ => ?_
    simp [Nat.add_comm]
  · refine hsub.mem ?_
    rw [← hcandidates]
    exact List.mem_map_of_mem hs
  · rw [hcandidates]
    exact h.sublist hsub
  · rw [hcandidates, h.mem_genuine_iff hk, not_not]

/-- Whatever the bytes of a file, a search for scene starts whose window for the music text is not
too long ends with scene starts that are what they are said to be, or it fails at a text of its
profile that bytes cannot stand for. -/
theorem scan_sound (b : Buffer) (p : BoundaryProfile) (start : Nat) (hwindow : p.musicWindow ≤ 97) :
    (∃ cs starts, candidates b p start = .ok cs ∧ scan b p start = .ok starts ∧
      Sound b p start cs starts) ∨
    ∃ text ∈ texts p, isWritable text = false ∧
      candidates b p start = .error (.unwritable text) ∧
        scan b p start = .error (.unwritable text) := by
  have hends := ends_found hwindow b start
  cases hfound : found b p start with
  | error e =>
      rw [hfound] at hends
      obtain ⟨text, htext, hunwritable, rfl⟩ := hends
      have hcandidates : candidates b p start = .error (.unwritable text) := by
        rw [candidates, hfound]
        rfl
      refine .inr ⟨text, htext, hunwritable, hcandidates, ?_⟩
      rw [scan, hcandidates]
      rfl
  | ok cs =>
      rw [hfound] at hends
      have htable : Table b p start cs := hends
      have hcandidates : candidates b p start = .ok (cs.filterMap (withContent? b p)) := by
        rw [candidates, hfound]
        rfl
      refine .inl ⟨_, _, hcandidates, ?_, htable.candidates.sound fun c hc => ?_⟩
      · rw [scan, hcandidates]
        rfl
      · obtain ⟨d, -, hd⟩ := List.mem_filterMap.mp hc
        obtain ⟨content, rfl, -⟩ := withContent?_eq_some hd
        rfl

/-- A profile with shorter texts, runs of zeros and distances than the usual one. -/
def nearProfile : BoundaryProfile where
  delimiterMinZeros := 4
  delimiterSkip := 3
  musicText := "m.wav"
  musicWindow := 8
  musicMinDistance := 8
  emptyMinZeros := 5
  namedScenes := [("Bar", 5)]
  contentWindow := 20
  echoZeros := (6, 7)
  echoMinGap := 15
  endGameMinZeros := 9
  endGameVideo := "z.avi"

/-- A file with music, four delimiters, of which the second is an echo and the last one ends the
game, an empty scene and a known scene. -/
def severalScenes : Buffer :=
  let zeros (n : Nat) : List UInt8 := List.replicate n 0
  (Encode.word 0x81 ++ Encode.text "m.wav" ++ Encode.text "b.avi" ++
    zeros 4 ++ Encode.word 1 ++ Encode.text "a.bmp" ++
    zeros 6 ++ Encode.word 1 ++ Encode.text "c.bmp" ++
    zeros 4 ++ Encode.word 1 ++ Encode.text "c.bmp" ++
    zeros 5 ++ Encode.text "Empty" ++ zeros 5 ++ Encode.text "Bar" ++
    zeros 9 ++ Encode.word 1 ++ Encode.text "z.avi" ++ List.replicate 8 0xff).toArray

/-- All that looks like a scene start in the file. -/
def severalCandidates : List Candidate :=
  [⟨0, .music, 0, some "b.avi"⟩, ⟨26, .delimiter, 4, some "a.bmp"⟩,
    ⟨45, .delimiter, 6, some "c.bmp"⟩, ⟨62, .delimiter, 4, some "c.bmp"⟩,
    ⟨80, .empty, 5, some "Empty"⟩, ⟨94, .named, 5, some "Bar"⟩,
    ⟨110, .delimiter, 9, some "z.avi"⟩]

/-- The scene starts among them. -/
def severalStarts : List SceneStart :=
  [⟨1, 0, .music, 0, "b.avi"⟩, ⟨2, 26, .delimiter, 4, "a.bmp"⟩, ⟨3, 62, .delimiter, 4, "c.bmp"⟩,
    ⟨4, 80, .empty, 5, "Empty"⟩, ⟨5, 94, .named, 5, "Bar"⟩]

theorem scan_sound_severalScenes :
    nearProfile.musicWindow ≤ 97 ∧
      candidates severalScenes nearProfile 0 = .ok severalCandidates ∧
        scan severalScenes nearProfile 0 = .ok severalStarts ∧
          Sound severalScenes nearProfile 0 severalCandidates severalStarts := by
  have hwindow : nearProfile.musicWindow ≤ 97 := by decide
  have hcandidates : candidates severalScenes nearProfile 0 = .ok severalCandidates := by
    decide +kernel
  have hscan : scan severalScenes nearProfile 0 = .ok severalStarts := by
    rw [scan, hcandidates]
    rfl
  refine ⟨hwindow, hcandidates, hscan, ?_⟩
  rcases scan_sound severalScenes nearProfile 0 hwindow with
    ⟨cs, starts, hcs, hstarts, hsound⟩ | ⟨text, -, -, -, hfailed⟩
  · obtain rfl : severalCandidates = cs := Except.ok.inj (hcandidates.symm.trans hcs)
    obtain rfl : severalStarts = starts := Except.ok.inj (hscan.symm.trans hstarts)
    exact hsound
  · rw [hscan] at hfailed
    nomatch hfailed

/-- Not every search ends with scene starts: bytes do not stand for a text with an omega. -/
theorem not_forall_scan_eq_ok :
    ¬∀ (b : Buffer) (p : BoundaryProfile) (start : Nat), p.musicWindow ≤ 97 →
      ∃ starts, scan b p start = .ok starts := by
  intro h
  obtain ⟨starts, hstarts⟩ := h #[] { emptyText := "Ω" } 0 (by decide)
  have hfailed : scan #[] { emptyText := "Ω" } 0 = .error (.unwritable "Ω") := rfl
  cases hfailed.symm.trans hstarts

end PointAndClick.Boundary
