import PointAndClick.Play.Navigation
import PointAndClick.Project.Basic
import PointAndClick.Proofs.Text.Blank

/-!
# Scenes by name

A scene is looked for under a name without the blanks around it, while the names of the scenes keep
theirs (`Navigation.resolve_text`). So a scene is found under its own name if and only if there are
no blanks around that (`Navigation.resolve_name`): a text never has the lower case of the same text
trimmed, since every character of a text adds to the length of its lower case.
-/

set_option autoImplicit false

namespace PointAndClick

namespace Text

variable {cs : List Char}

/-! ## Lower case -/

/-- No character is without a lower case. -/
theorem lowerExpansions_ne_nil : ∀ e ∈ lowerExpansions, e.2 ≠ [] := by decide

theorem lowerChar_ne_nil (c : Char) : lowerChar c ≠ [] := by
  unfold lowerChar
  dsimp only
  split
  · split <;> exact List.cons_ne_nil _ _
  · unfold mapAboveAscii
    split
    · rename_i codes hcodes
      obtain ⟨before, behind, heq, -⟩ := List.lookup_eq_some_iff.mp hcodes
      have hmem : (c.toNat, codes) ∈ lowerExpansions := by
        rw [heq]
        simp
      simpa using lowerExpansions_ne_nil _ hmem
    · exact List.cons_ne_nil _ _

/-- The characters around a character change nothing about the length of its lower case: there is
one character for a capital sigma, whichever it is. -/
theorem length_lowerFrom (inWord : Bool) (cs : List Char) :
    (lowerFrom inWord cs).length = (cs.flatMap lowerChar).length := by
  induction cs generalizing inWord with
  | nil => rfl
  | cons c cs ih =>
      rw [lowerFrom, List.flatMap_cons, List.length_append]
      dsimp only
      split
      · rw [List.length_append, ih]
      · split
        · rename_i hsigma
          have hlength : (lowerChar c).length = 1 := by
            rw [beq_iff_eq.mp hsigma]
            decide +kernel
          rw [List.length_cons, ih, hlength, Nat.add_comm]
        · rw [List.length_append, ih]

theorem length_lower_append (cs ds : List Char) :
    (lower (cs ++ ds)).length = (lower cs).length + (lower ds).length := by
  simp only [lower, length_lowerFrom, List.flatMap_append, List.length_append]

theorem lower_eq_nil_iff : lower cs = [] ↔ cs = [] := by
  constructor
  · intro h
    cases cs with
    | nil => rfl
    | cons c cs =>
        have hlength : (lower (c :: cs)).length = 0 := by rw [h]; rfl
        rw [← List.singleton_append, length_lower_append] at hlength
        have hc : 0 < (lowerChar c).length := List.length_pos_iff.mpr (lowerChar_ne_nil c)
        have hone : (lower [c]).length = (lowerChar c).length := by
          simp [lower, length_lowerFrom]
        omega
  · rintro rfl
    rfl

/-- Trimming takes some text from either end. -/
theorem exists_trim_append (cs : List Char) :
    ∃ before behind, before ++ trim cs ++ behind = cs := by
  obtain ⟨before, hbefore⟩ : dropBlanks cs <:+ cs := List.dropWhile_suffix _
  obtain ⟨behind, hbehind⟩ := dropBlanksEnd_isPrefix (dropBlanks cs)
  refine ⟨before, behind, ?_⟩
  rw [List.append_assoc, trim, hbehind, hbefore]

/-- A text with blanks around it is not in lower case the same as without them. -/
theorem lower_trim_eq_iff : lower (trim cs) = lower cs ↔ trim cs = cs := by
  constructor
  · intro h
    obtain ⟨before, behind, heq⟩ := exists_trim_append cs
    have hlength := congrArg List.length h
    rw [← congrArg lower heq, length_lower_append, length_lower_append] at hlength
    have hbefore : before = [] := lower_eq_nil_iff.mp (List.eq_nil_of_length_eq_zero (by omega))
    have hbehind : behind = [] := lower_eq_nil_iff.mp (List.eq_nil_of_length_eq_zero (by omega))
    rw [hbefore, hbehind, List.append_nil] at heq
    exact heq
  · exact congrArg lower

theorem lowercased_trimmed_eq_iff {s : String} :
    lowercased (trimmed s) = lowercased s ↔ trimmed s = s := by
  unfold lowercased trimmed
  rw [String.toList_ofList, ← String.toList_inj, ← String.toList_inj]
  simp only [String.toList_ofList]
  exact lower_trim_eq_iff

end Text

/-! ## Lookups -/

namespace Navigation

variable {p : Project} {n : Navigation} {s first : Scene} {text : String}

/-- Under the name of a scene there is a first scene. -/
theorem exists_sceneByName? (hs : s ∈ p.scenes) :
    ∃ first, p.sceneByName? s.name = some first ∧ first ∈ p.scenes ∧
      Text.lowercased first.name = Text.lowercased s.name := by
  have hfound : (p.sceneByName? s.name).isSome = true := by
    rw [Project.sceneByName?, List.find?_isSome]
    exact ⟨s, hs, by simp⟩
  obtain ⟨first, hfirst⟩ := Option.isSome_iff_exists.mp hfound
  exact ⟨first, hfirst, List.mem_of_find?_eq_some hfirst, by simpa using List.find?_some hfirst⟩

/-- A text that is no number is taken for the name of a scene, without the blanks around it. -/
theorem resolve_text (hscenes : n.scenes = p.scenes)
    (hindex : ∀ i (h : i < p.scenes.length), p.scenes[i].index = i)
    (htext : Text.integer? text = none) :
    n.resolve (.text text) =
      match p.sceneByName? (Text.trimmed text) with
      | some found => .ok found.index
      | none => .error (.noSceneNamed text) := by
  have hfind : n.findIndex? text = (p.sceneByName? (Text.trimmed text)).map (·.index) := by
    rw [findIndex?, hscenes, Project.sceneByName?]
  unfold resolve indexOfText
  simp only [htext, hfind]
  cases hfirst : p.sceneByName? (Text.trimmed text) with
  | none => rfl
  | some first =>
      obtain ⟨i, hi, rfl⟩ := List.getElem_of_mem (List.mem_of_find?_eq_some hfirst)
      have hscene : n.scene (p.scenes[i].index : Int) = .ok p.scenes[i] := by
        rw [hindex i hi, scene, if_neg (by omega), hscenes, Int.toNat_natCast,
          List.getElem?_eq_getElem hi]
      simp only [Option.map_some, bind, Except.bind, hscene]
      rfl

/-- Under the name of a scene, if it is no number, the first scene with the trimmed name is found.
That is the first one with the name itself if and only if there are no blanks around the name. -/
theorem resolve_name (hscenes : n.scenes = p.scenes)
    (hindex : ∀ i (h : i < p.scenes.length), p.scenes[i].index = i) (hs : s ∈ p.scenes)
    (hname : Text.integer? s.name = none) :
    (n.resolve (.text s.name) =
      match p.sceneByName? (Text.trimmed s.name) with
      | some found => .ok found.index
      | none => .error (.noSceneNamed s.name)) ∧
    ∃ first, p.sceneByName? s.name = some first ∧
      (n.resolve (.text s.name) = .ok first.index ↔ Text.trimmed s.name = s.name) := by
  obtain ⟨first, hfirst, hmem, hlower⟩ := exists_sceneByName? hs
  refine ⟨resolve_text hscenes hindex hname, first, hfirst, ?_⟩
  rw [resolve_text hscenes hindex hname]
  constructor
  · intro h
    cases hfound : p.sceneByName? (Text.trimmed s.name) with
    | none => rw [hfound] at h; nomatch h
    | some found =>
        -- scenes with one index are one scene, so the two names have one lower case
        obtain ⟨i, hi, rfl⟩ := List.getElem_of_mem (List.mem_of_find?_eq_some hfound)
        obtain ⟨j, hj, rfl⟩ := List.getElem_of_mem hmem
        rw [hfound, Except.ok.injEq, hindex i hi, hindex j hj] at h
        subst h
        have hsame := List.find?_some hfound
        rw [decide_eq_true_eq, hlower] at hsame
        exact Text.lowercased_trimmed_eq_iff.mp hsame.symm
  · intro h
    rw [h, hfirst]

/-- Of two scenes whose names differ in case only, the first is found under either name. -/
theorem resolve_name_twins :
    let p : Project := { scenes := [{ index := 0, name := " Hall" },
                                    { index := 1, name := "GROSSE STRASSE" },
                                    { index := 2, name := "Grosse Strasse" }] }
    let n : Navigation := { scenes := p.scenes }
    n.resolve (.text "Grosse Strasse") = .ok 1 := by
  intro p n
  obtain ⟨-, first, hfirst, hfound⟩ := resolve_name (p := p) (n := n)
    (s := { index := 2, name := "Grosse Strasse" }) rfl (by decide) (by decide) (by decide +kernel)
  have hsecond : (p.sceneByName? "Grosse Strasse").map (·.index) = some 1 := by decide +kernel
  rw [hfirst, Option.map_some, Option.some.injEq] at hsecond
  rw [hfound.mpr (by decide +kernel), hsecond]

/-- A scene with a blank before its name is not found under it. -/
theorem not_forall_resolve_name :
    ¬∀ (p : Project) (n : Navigation) (s : Scene), n.scenes = p.scenes →
      (∀ i (h : i < p.scenes.length), p.scenes[i].index = i) → s ∈ p.scenes →
      Text.integer? s.name = none →
      ∃ first, p.sceneByName? s.name = some first ∧
        n.resolve (.text s.name) = .ok first.index := by
  intro h
  let hall : Scene := { index := 0, name := " Hall" }
  obtain ⟨first, -, hfirst⟩ := h { scenes := [hall] } { scenes := [hall] } hall rfl (by decide)
    (by decide) (by decide +kernel)
  have hfails : ({ scenes := [hall] } : Navigation).resolve (.text " Hall") =
      .error (.noSceneNamed " Hall") := by decide +kernel
  exact nomatch hfails.symm.trans hfirst

end Navigation

end PointAndClick
