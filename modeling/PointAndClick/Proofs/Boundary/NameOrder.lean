import PointAndClick.Proofs.Boundary.Texts

/-!
# The order of the known scenes

A search for a known scene replaces what an earlier one found at the same position. But only one
text stands at a position, and the zeros before it are the same for all, so that both finds are the
same (`eq_of_mem_findsOf`). Finds that agree where they meet may be put in in any order
(`put_comm`), and so the known scenes may be searched for in any order (`scan_of_perm`).
-/

set_option autoImplicit false

namespace PointAndClick.Boundary

variable {b : Buffer} {p : BoundaryProfile} {start : Nat} {c d : Candidate}
  {cs ds : List Candidate} {e e' : Entry} {es es' : List Entry} {scenes : List (String × Int)}

/-! ## Putting in finds in any order -/

theorem put_cons_of_lt (h : c.position < d.position) : put c (d :: ds) = c :: d :: ds := by
  rw [put, if_pos h]

theorem put_cons_of_eq (h : c.position = d.position) : put c (d :: ds) = c :: ds := by
  rw [put, if_neg (by omega), if_pos h]

theorem put_cons_of_gt (h : d.position < c.position) : put c (d :: ds) = d :: put c ds := by
  rw [put, if_neg (by omega), if_neg (by omega)]

theorem put_comm_of_lt (h : c.position < d.position) (cs : List Candidate) :
    put c (put d cs) = put d (put c cs) := by
  induction cs with
  | nil => rw [put, put_cons_of_lt h, put, put_cons_of_gt h, put]
  | cons e cs ih =>
      rcases Nat.lt_trichotomy c.position e.position with hc | hc | hc
      · -- the earlier one comes to stand in front of all, whatever the later one does behind it
        rw [put_cons_of_lt hc, put_cons_of_gt h]
        rcases Nat.lt_trichotomy d.position e.position with hd | hd | hd
        · rw [put_cons_of_lt hd, put_cons_of_lt h]
        · rw [put_cons_of_eq hd, put_cons_of_lt h]
        · rw [put_cons_of_gt hd, put_cons_of_lt hc]
      · have hd : e.position < d.position := hc ▸ h
        rw [put_cons_of_eq hc, put_cons_of_gt h, put_cons_of_gt hd, put_cons_of_eq hc]
      · have hd : e.position < d.position := Nat.lt_trans hc h
        rw [put_cons_of_gt hc, put_cons_of_gt hd, put_cons_of_gt hc, put_cons_of_gt hd, ih]

/-- Two finds that are the same if they are at one position may be put in in either order. -/
theorem put_comm (h : c.position = d.position → c = d) (cs : List Candidate) :
    put c (put d cs) = put d (put c cs) := by
  rcases Nat.lt_trichotomy c.position d.position with hlt | heq | hgt
  · exact put_comm_of_lt hlt cs
  · rw [h heq]
  · exact (put_comm_of_lt hgt cs).symm

theorem foldl_put_of_perm (hperm : cs.Perm ds)
    (h : ∀ c ∈ cs, ∀ d ∈ cs, c.position = d.position → c = d) (es : List Candidate) :
    cs.foldl (fun es c => put c es) es = ds.foldl (fun es c => put c es) es :=
  hperm.foldl_eq' (fun c hc d hd es => (put_comm (h c hc d hd) es).symm) es

/-! ## The finds of a text -/

/-- What a search for a text finds. -/
def findsOf (b : Buffer) (start : Nat) (e : Entry) : List Candidate :=
  ((positions start (b.size - e.text.length - 4)).filter fun pos =>
    hasText b pos e.text.toList && e.minZeros ≤ zerosBefore b pos).map fun pos =>
      ⟨pos, e.kind, zerosBefore b pos, some e.text⟩

theorem withEntry_eq_foldl_put (b : Buffer) (start : Nat) (cs : List Candidate) (e : Entry) :
    withEntry b start cs e = (findsOf b start e).foldl (fun cs c => put c cs) cs := by
  rw [withEntry, findsOf, List.foldl_map, List.foldl_filter]
  rfl

theorem foldl_withEntry_eq_foldl_put (b : Buffer) (start : Nat) (es : List Entry)
    (cs : List Candidate) :
    es.foldl (withEntry b start) cs =
      (es.flatMap (findsOf b start)).foldl (fun cs c => put c cs) cs := by
  rw [List.foldl_flatMap]
  exact congrArg (es.foldl · cs) (funext₂ (withEntry_eq_foldl_put b start))

/-- Two searches of one kind that find something at one position find the same. -/
theorem eq_of_mem_findsOf (hkind : e.kind = e'.kind) (hc : c ∈ findsOf b start e)
    (hd : d ∈ findsOf b start e') (hpos : c.position = d.position) : c = d := by
  obtain ⟨pos, hthere, rfl⟩ := List.mem_map.mp hc
  obtain ⟨pos', hthere', rfl⟩ := List.mem_map.mp hd
  obtain rfl : pos = pos' := hpos
  simp only [List.mem_filter, Bool.and_eq_true, hasText_iff] at hthere hthere'
  have htext : e.text = e'.text := hthere.2.1.eq hthere'.2.1
  rw [hkind, htext]

/-- Texts of one kind may be searched for in any order. -/
theorem foldl_withEntry_of_perm (hperm : es.Perm es')
    (hkind : ∀ e ∈ es, ∀ e' ∈ es, e.kind = e'.kind) (cs : List Candidate) :
    es.foldl (withEntry b start) cs = es'.foldl (withEntry b start) cs := by
  rw [foldl_withEntry_eq_foldl_put, foldl_withEntry_eq_foldl_put]
  refine foldl_put_of_perm (hperm.flatMap_right _) (fun c hc d hd => ?_) cs
  obtain ⟨e, he, hc⟩ := List.mem_flatMap.mp hc
  obtain ⟨e', he', hd⟩ := List.mem_flatMap.mp hd
  exact eq_of_mem_findsOf (hkind e he e' he') hc hd

/-! ## Other known scenes

Only the last search looks at the known scenes. -/

/-- The profile with other known scenes. -/
def withScenes (p : BoundaryProfile) (scenes : List (String × Int)) : BoundaryProfile :=
  { p with namedScenes := scenes }

theorem delimiters_withScenes (fuel pos : Nat) :
    delimiters b (withScenes p scenes) fuel pos = delimiters b p fuel pos := by
  induction fuel generalizing pos with
  | zero => rfl
  | succ fuel ih =>
      simp only [delimiters, ih]
      rfl

theorem searchMusic_withScenes (count pos : Nat) :
    searchMusic b (withScenes p scenes) count pos = searchMusic b p count pos := by
  induction count generalizing pos with
  | zero => rfl
  | succ count ih =>
      simp only [searchMusic, ih]
      rfl

theorem addMusic_withScenes (cs : List Candidate) :
    addMusic b (withScenes p scenes) start cs = addMusic b p start cs := by
  have hmusic (pos : Nat) : isMusic b (withScenes p scenes) pos = isMusic b p pos := by
    rw [isMusic, searchMusic_withScenes]
    rfl
  have hstep : addMusicAt b (withScenes p scenes) = addMusicAt b p := by
    funext found pos
    rw [addMusicAt, hmusic]
    rfl
  rw [addMusic, hstep, addMusic]

theorem searchName_withScenes (count pos : Nat) :
    searchName b (withScenes p scenes) count pos = searchName b p count pos := by
  induction count generalizing pos with
  | zero => rfl
  | succ count ih =>
      simp only [searchName, ih]
      rfl

theorem withContent?_withScenes : withContent? b (withScenes p scenes) = withContent? b p := by
  have hcontent (pos : Nat) : content? b (withScenes p scenes) pos = content? b p pos :=
    congrArg (Option.map String.ofList) (searchName_withScenes _ _)
  funext c
  rw [withContent?, hcontent, withContent?]

theorem genuine_withScenes : genuine (withScenes p scenes) cs = genuine p cs := by
  induction cs with
  | nil => rfl
  | cons c cs ih =>
      simp only [genuine, ih]
      rfl

/-! ## Known scenes in any order -/

/-- What is searched for by the names of scenes. -/
def sceneEntries (scenes : List (String × Int)) : List Entry :=
  scenes.map fun e => ⟨e.1, e.2, .named⟩

theorem foldlM_sceneEntries (hwritable : ∀ e ∈ scenes, isWritable e.1 = true)
    (cs : List Candidate) :
    (sceneEntries scenes).foldlM (addEntry b start) cs =
      .ok ((sceneEntries scenes).foldl (withEntry b start) cs) := by
  refine foldlM_eq_ok_foldl fun e he _ => addEntry_eq_ok ?_
  obtain ⟨scene, hscene, rfl⟩ := List.mem_map.mp he
  exact hwritable scene hscene

theorem found_withScenes : found b (withScenes p scenes) start =
    (do
      let music ← addMusic b p start (delimiterList b p start)
      let empty ← addEntry b start music ⟨p.emptyText, p.emptyMinZeros, .empty⟩
      (sceneEntries scenes).foldlM (addEntry b start) empty) := by
  rw [found_eq, addMusic_withScenes, delimiterList, delimiters_withScenes]
  rfl

theorem found_of_perm (hperm : scenes.Perm p.namedScenes)
    (hwritable : ∀ e ∈ p.namedScenes, isWritable e.1 = true) :
    found b (withScenes p scenes) start = found b p start := by
  have hwritable' : ∀ e ∈ scenes, isWritable e.1 = true := fun e he =>
    hwritable e (hperm.mem_iff.mp he)
  have hnamed : ∀ e ∈ sceneEntries scenes, ∀ e' ∈ sceneEntries scenes, e.kind = e'.kind := by
    intro e he e' he'
    obtain ⟨_, -, rfl⟩ := List.mem_map.mp he
    obtain ⟨_, -, rfl⟩ := List.mem_map.mp he'
    rfl
  have hentries : (sceneEntries scenes).Perm (sceneEntries p.namedScenes) := hperm.map _
  have hsame : found b p start = found b (withScenes p p.namedScenes) start := rfl
  rw [hsame, found_withScenes, found_withScenes]
  refine bind_congr fun music => bind_congr fun empty => ?_
  rw [foldlM_sceneEntries hwritable', foldlM_sceneEntries hwritable,
    foldl_withEntry_of_perm hentries hnamed]

/-- If bytes can stand for the names of the known scenes, it makes no difference in which order a
profile has them: a search finds the same candidates and the same scene starts, or fails in the same
way. A name may be there more than once, with different numbers of zeros. -/
theorem scan_of_perm (b : Buffer) (p : BoundaryProfile) (start : Nat)
    (scenes : List (String × Int)) (hperm : scenes.Perm p.namedScenes)
    (hwritable : ∀ e ∈ p.namedScenes, isWritable e.1 = true) :
    candidates b { p with namedScenes := scenes } start = candidates b p start ∧
      scan b { p with namedScenes := scenes } start = scan b p start := by
  show candidates b (withScenes p scenes) start = _ ∧ scan b (withScenes p scenes) start = _
  have hcandidates : candidates b (withScenes p scenes) start = candidates b p start := by
    rw [candidates, found_of_perm hperm hwritable, withContent?_withScenes, candidates]
  refine ⟨hcandidates, ?_⟩
  rw [scan, hcandidates]
  simp only [genuine_withScenes]
  rfl

/-- A scene that is known by its name twice, and another one. -/
def twiceKnown : BoundaryProfile where
  namedScenes := [("Toolbar", 50), ("Hall", 4), ("Toolbar", 5)]

theorem scan_of_perm_twiceKnown :
    [("Toolbar", (5 : Int)), ("Toolbar", 50), ("Hall", 4)].Perm twiceKnown.namedScenes ∧
      (∀ e ∈ twiceKnown.namedScenes, isWritable e.1 = true) ∧
      scan (toolbar [7]) twiceKnown 0 = .ok [⟨1, 5, .named, 5, "Toolbar"⟩] ∧
      scan (toolbar [7])
        { twiceKnown with namedScenes := [("Toolbar", 5), ("Toolbar", 50), ("Hall", 4)] } 0 =
          .ok [⟨1, 5, .named, 5, "Toolbar"⟩] := by
  have hperm : [("Toolbar", (5 : Int)), ("Toolbar", 50), ("Hall", 4)].Perm
      twiceKnown.namedScenes := by decide
  have hwritable : ∀ e ∈ twiceKnown.namedScenes, isWritable e.1 = true := by decide
  have hscan : scan (toolbar [7]) twiceKnown 0 = .ok [⟨1, 5, .named, 5, "Toolbar"⟩] := by rfl
  exact ⟨hperm, hwritable, hscan,
    (scan_of_perm (toolbar [7]) twiceKnown 0 _ hperm hwritable).2.trans hscan⟩

end PointAndClick.Boundary
