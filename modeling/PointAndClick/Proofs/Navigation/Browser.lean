import PointAndClick.Proofs.Navigation.Soundness

/-!
# The history as that of a browser

A browser has a current page and two stacks of pages, those to go back to and those to go forward
to (`Browser`). A list with a place in it is cut there into the same three parts
(`Navigation.browser`), and showing a scene, going back and going forward do to the parts what they
do to the stacks. So a history and its place are at any time what a browser holds that was told
to do the same (`Navigation.refines_browser`).
-/

set_option autoImplicit false

namespace PointAndClick

/-! ## Browsers -/

/-- What a browser holds. On both stacks the page next to the current one comes first. -/
structure Browser where
  before : List Nat := []
  current : Option Nat := none
  ahead : List Nat := []
deriving DecidableEq, Repr

namespace Browser

/-- Puts a page in front of the current one. No page is left ahead, and of more pages than `limit`
the oldest are dropped. -/
def visit (b : Browser) (limit page : Nat) : Browser where
  before := (b.current.toList ++ b.before).take (limit - 1)
  current := some page
  ahead := []

/-- Goes back one page: the page to show, if there is one. -/
def back (b : Browser) : Browser × Option Nat :=
  match b.before with
  | [] => (b, none)
  | page :: before =>
      ({ before, current := some page, ahead := b.current.toList ++ b.ahead }, some page)

/-- Goes forward one page: the page to show, if there is one. -/
def forward (b : Browser) : Browser × Option Nat :=
  match b.ahead with
  | [] => (b, none)
  | page :: ahead =>
      ({ before := b.current.toList ++ b.before, current := some page, ahead }, some page)

/-- All pages, the oldest first. -/
def pages (b : Browser) : List Nat :=
  b.before.reverse ++ b.current.toList ++ b.ahead

/-- Where the current page stands among all pages. -/
def place (b : Browser) : Option Nat :=
  b.current.map fun _ => b.before.length

/-- What a browser can be told to do. -/
inductive Move
  | visit (page : Int)
  | back
  | forward

/-- Does what it is told. Only the pages from 0 up to `count` can be visited. -/
def move (limit count : Nat) (b : Browser) : Move → Browser
  | .visit page => if 0 ≤ page ∧ page < count then b.visit limit page.toNat else b
  | .back => b.back.1
  | .forward => b.forward.1

/-- The page moved to the stack ahead is the first to come back from it. -/
theorem forward_back {b : Browser} (hcurrent : b.current.isSome) (hbefore : b.before ≠ []) :
    b.back.1.forward = (b, b.current) := by
  obtain ⟨before, current, ahead⟩ := b
  obtain ⟨page, rfl⟩ := Option.isSome_iff_exists.mp hcurrent
  cases before with
  | nil => exact absurd rfl hbefore
  | cons last before => rfl

theorem back_forward {b : Browser} (hcurrent : b.current.isSome) (hahead : b.ahead ≠ []) :
    b.forward.1.back = (b, b.current) := by
  obtain ⟨before, current, ahead⟩ := b
  obtain ⟨page, rfl⟩ := Option.isSome_iff_exists.mp hcurrent
  cases ahead with
  | nil => exact absurd rfl hahead
  | cons next ahead => rfl

/-- A browser that has pages shows one of them. -/
def ShowsPage (b : Browser) : Prop :=
  b.before ≠ [] ∨ b.ahead ≠ [] → b.current.isSome

theorem showsPage_of_isSome {b : Browser} (h : b.current.isSome) : b.ShowsPage := fun _ => h

theorem ShowsPage.move {b : Browser} (h : b.ShowsPage) (limit count : Nat) (m : Move) :
    (b.move limit count m).ShowsPage := by
  cases m with
  | visit page =>
      by_cases hpage : 0 ≤ page ∧ page < count
      · simp only [Browser.move, if_pos hpage]
        exact showsPage_of_isSome rfl
      · simp only [Browser.move, if_neg hpage]
        exact h
  | back =>
      simp only [Browser.move, Browser.back]
      split
      · exact h
      · exact showsPage_of_isSome rfl
  | forward =>
      simp only [Browser.move, Browser.forward]
      split
      · exact h
      · exact showsPage_of_isSome rfl

/-- Does what it is told, one thing after another. -/
def after (limit count : Nat) (moves : List Move) : Browser :=
  moves.foldl (move limit count) {}

theorem showsPage_after (limit count : Nat) (moves : List Move) :
    (after limit count moves).ShowsPage := by
  have h : ShowsPage {} := by
    rintro (hbefore | hahead)
    · exact absurd rfl hbefore
    · exact absurd rfl hahead
  unfold after
  generalize ({} : Browser) = b at h ⊢
  induction moves generalizing b with
  | nil => exact h
  | cons m moves ih => exact ih _ (h.move limit count m)

end Browser

namespace Navigation

variable {n : Navigation}

/-! ## A history cut at its place -/

/-- A history cut at a place in it. -/
def cut (history : List Nat) : Option Nat → Browser
  | none => { ahead := history }
  | some p =>
      { before := (history.take p).reverse
        current := history[p]?
        ahead := history.drop (p + 1) }

/-- The history cut at its place. -/
def browser (n : Navigation) : Browser := cut n.history n.place

theorem cut_append (before : List Nat) (page : Nat) (ahead : List Nat) :
    cut (before ++ page :: ahead) (some before.length) =
      { before := before.reverse, current := some page, ahead } := by
  simp [cut]

/-- The parts of a sound history: either nothing of it is shown, or an entry between those before it
and those ahead. -/
theorem Sound.parts (h : n.Sound) :
    n.place = none ∧ n.browser = { ahead := n.history } ∨
      ∃ before page ahead, n.history = before ++ page :: ahead ∧
        n.place = some before.length ∧
        n.browser = { before := before.reverse, current := some page, ahead } := by
  cases hplace : n.place with
  | none =>
      refine Or.inl ⟨rfl, ?_⟩
      unfold browser
      rw [hplace]
      rfl
  | some p =>
      have hp : p < n.history.length := h.place p hplace
      have hlength : (n.history.take p).length = p := List.length_take_of_le (Nat.le_of_lt hp)
      have hhistory : n.history = n.history.take p ++ n.history[p] :: n.history.drop (p + 1) := by
        rw [← List.drop_eq_getElem_cons hp, List.take_append_drop]
      refine Or.inr ⟨n.history.take p, n.history[p], n.history.drop (p + 1), hhistory, ?_, ?_⟩
      · rw [hlength]
      · rw [← cut_append, hlength, ← hhistory, ← hplace]
        rfl

/-- Nothing of the history is lost by cutting it. -/
theorem Sound.pages_browser (h : n.Sound) : n.browser.pages = n.history := by
  rcases h.parts with ⟨-, hbrowser⟩ | ⟨before, page, ahead, hhistory, -, hbrowser⟩
  · rw [hbrowser]
    rfl
  · rw [hbrowser, hhistory]
    simp [Browser.pages]

/-- The place can be told from the parts. -/
theorem Sound.place_browser (h : n.Sound) : n.browser.place = n.place := by
  rcases h.parts with ⟨hplace, hbrowser⟩ | ⟨before, page, ahead, -, hplace, hbrowser⟩
  · rw [hbrowser, hplace]
    rfl
  · rw [hbrowser, hplace]
    simp [Browser.place]

/-- The parts tell one place in a history from another. -/
theorem Sound.eq_of_browser_eq {n' : Navigation} (h : n.Sound) (h' : n'.Sound)
    (hmoved : ∃ place, n' = { n with place }) (hbrowser : n'.browser = n.browser) : n' = n := by
  obtain ⟨place, rfl⟩ := hmoved
  have hplace : place = n.place := by
    rw [← h.place_browser, ← hbrowser, h'.place_browser]
  rw [hplace]

/-! ## The parts after each operation -/

/-- The entries that stay when a scene is shown are the current one and those before it. -/
theorem Sound.reverse_take_keptEntries (h : n.Sound) :
    (n.history.take n.keptEntries).reverse = n.browser.current.toList ++ n.browser.before := by
  unfold keptEntries
  rcases h.parts with ⟨hplace, hbrowser⟩ | ⟨before, page, ahead, hhistory, hplace, hbrowser⟩
  · rw [hplace, hbrowser]
    rfl
  · have hkept : (before ++ page :: ahead).take (before.length + 1) = before ++ [page] := by
      simp [List.take_append, List.take_of_length_le]
    rw [hplace, hbrowser, hhistory, hkept]
    simp

/-- Recording a scene is visiting a page. -/
theorem Sound.browser_record (h : n.Sound) (hmax : 0 < n.maxHistory) (index : Nat) :
    (n.record index).browser = n.browser.visit n.maxHistory index := by
  obtain ⟨kept, hkept⟩ : ∃ kept, kept = n.history.take n.keptEntries := ⟨_, rfl⟩
  obtain ⟨before, hbefore⟩ : ∃ before, before = kept.drop (kept.length + 1 - n.maxHistory) :=
    ⟨_, rfl⟩
  have hhistory : (n.record index).history = before ++ [index] := by
    rw [hbefore, hkept]
    show (_ ++ [index]).drop _ = _
    rw [List.length_append, List.length_singleton]
    exact List.drop_append_of_le_length (by omega)
  have hplace : (n.record index).place = some before.length := by
    show lastPlace (n.record index).history = _
    rw [hhistory]
    simp [lastPlace]
  -- to drop the oldest entries is to take those on the top of the stack
  have htop : before.reverse =
      (n.browser.current.toList ++ n.browser.before).take (n.maxHistory - 1) := by
    rw [← h.reverse_take_keptEntries, ← hkept, hbefore, List.reverse_drop,
      List.take_eq_take_iff, List.length_reverse]
    omega
  calc (n.record index).browser
      = cut (before ++ [index]) (some before.length) := by
        rw [← hhistory, ← hplace]
        rfl
    _ = { before := before.reverse, current := some index, ahead := [] } :=
        cut_append before index []
    _ = n.browser.visit n.maxHistory index := by
        rw [htop]
        rfl

/-- Going back takes a page from one stack to the other. -/
theorem Sound.browser_back (h : n.Sound) :
    n.back.1.browser = n.browser.back.1 ∧ n.back.2 = .ok n.browser.back.2 := by
  rcases h.parts with ⟨hplace, hbrowser⟩ | ⟨before, page, ahead, hhistory, hplace, hbrowser⟩
  · have hback : n.back = (n, .ok none) := by simp [Navigation.back, hplace]
    rw [hback]
    simp [hbrowser, Browser.back]
  · rcases List.eq_nil_or_concat before with rfl | ⟨older, last, rfl⟩
    · have hback : n.back = (n, .ok none) := by simp [Navigation.back, hplace]
      rw [hback]
      simp [hbrowser, Browser.back]
    · have hlast : n.history = older ++ last :: (page :: ahead) := by
        rw [hhistory]
        simp
      have hback : n.back = ({ n with place := some older.length }, .ok (some last)) := by
        simp [Navigation.back, Navigation.entryAt, hplace, hlast]
      rw [hback, hbrowser]
      refine ⟨?_, by simp [Browser.back]⟩
      show cut n.history (some older.length) = _
      rw [hlast, cut_append]
      simp [Browser.back]

/-- Going forward takes a page from one stack to the other. -/
theorem Sound.browser_forward (h : n.Sound) :
    n.forward.1.browser = n.browser.forward.1 ∧ n.forward.2 = .ok n.browser.forward.2 := by
  -- in either case the entries ahead begin at the next place
  obtain ⟨shown, hshown, hlength, hstack⟩ : ∃ shown, n.history = shown ++ n.browser.ahead ∧
      n.nextPlace = shown.length ∧
      shown.reverse = n.browser.current.toList ++ n.browser.before := by
    rcases h.parts with ⟨hplace, hbrowser⟩ | ⟨before, page, ahead, hhistory, hplace, hbrowser⟩
    · exact ⟨[], by simp [hbrowser], by simp [nextPlace, hplace], by simp [hbrowser]⟩
    · refine ⟨before ++ [page], ?_, ?_, ?_⟩
      · simp [hbrowser, hhistory]
      · simp [nextPlace, hplace]
      · simp [hbrowser]
  cases hahead : n.browser.ahead with
  | nil =>
      have hforward : n.forward = (n, .ok none) := by
        simp [Navigation.forward, canGoForward, hlength, hshown, hahead]
      rw [hforward]
      simp [Browser.forward, hahead]
  | cons next ahead =>
      rw [hahead] at hshown
      have hforward : n.forward = ({ n with place := some shown.length }, .ok (some next)) := by
        simp [Navigation.forward, canGoForward, Navigation.entryAt, hlength, hshown]
      rw [hforward]
      refine ⟨?_, by simp [Browser.forward, hahead]⟩
      show cut n.history (some shown.length) = _
      rw [hshown, cut_append, hstack]
      simp [Browser.forward, hahead]

/-- With nothing to go back to nothing changes. -/
theorem Sound.back_eq_self (h : n.Sound) (hbefore : n.browser.before = []) :
    n.back = (n, .ok none) := by
  obtain ⟨hparts, hanswer⟩ := h.browser_back
  have hempty : n.browser.back = (n.browser, none) := by simp [Browser.back, hbefore]
  rw [hempty] at hparts hanswer
  exact Prod.ext (h.eq_of_browser_eq h.back (Session.back_eq n) hparts) hanswer

/-- With nothing to go forward to nothing changes. -/
theorem Sound.forward_eq_self (h : n.Sound) (hahead : n.browser.ahead = []) :
    n.forward = (n, .ok none) := by
  obtain ⟨hparts, hanswer⟩ := h.browser_forward
  have hempty : n.browser.forward = (n.browser, none) := by simp [Browser.forward, hahead]
  rw [hempty] at hparts hanswer
  exact Prod.ext (h.eq_of_browser_eq h.forward (Session.forward_eq n) hparts) hanswer

/-- Going forward undoes going back, and the answer is the entry that was shown before. -/
theorem Sound.forward_back (h : n.Sound) (hcurrent : n.browser.current.isSome)
    (hbefore : n.browser.before ≠ []) : n.back.1.forward = (n, .ok n.browser.current) := by
  obtain ⟨hparts, -⟩ := h.browser_back
  obtain ⟨hparts', hanswer⟩ := h.back.browser_forward
  rw [hparts, Browser.forward_back hcurrent hbefore] at hparts' hanswer
  obtain ⟨p, hp⟩ := Session.back_eq n
  obtain ⟨q, hq⟩ := Session.forward_eq n.back.1
  have hmoved : ∃ place, n.back.1.forward.1 = { n with place } := ⟨q, by rw [hq, hp]⟩
  exact Prod.ext (h.eq_of_browser_eq h.back.forward hmoved hparts') hanswer

/-- Going back undoes going forward, and the answer is the entry that was shown before. -/
theorem Sound.back_forward (h : n.Sound) (hcurrent : n.browser.current.isSome)
    (hahead : n.browser.ahead ≠ []) : n.forward.1.back = (n, .ok n.browser.current) := by
  obtain ⟨hparts, -⟩ := h.browser_forward
  obtain ⟨hparts', hanswer⟩ := h.forward.browser_back
  rw [hparts, Browser.back_forward hcurrent hahead] at hparts' hanswer
  obtain ⟨p, hp⟩ := Session.forward_eq n
  obtain ⟨q, hq⟩ := Session.back_eq n.forward.1
  have hmoved : ∃ place, n.forward.1.back.1 = { n with place } := ⟨q, by rw [hq, hp]⟩
  exact Prod.ext (h.eq_of_browser_eq h.forward.back hmoved hparts') hanswer

/-! ## Whatever is told -/

/-- What is asked of a navigation where a browser is told to do something. -/
def operation : Browser.Move → Operation
  | .visit page => .enter page true
  | .back => .back
  | .forward => .forward

theorem Sound.browser_operate (h : n.Sound) (hmax : 0 < n.maxHistory) (m : Browser.Move) :
    (n.operate (operation m)).1.browser = n.browser.move n.maxHistory n.scenes.length m := by
  cases m with
  | visit page =>
      simp only [operation, Navigation.operate, Browser.move]
      by_cases hpage : 0 ≤ page ∧ page < n.scenes.length
      · obtain ⟨index, rfl⟩ := Int.eq_ofNat_of_zero_le hpage.1
        have hindex : index < n.scenes.length := by omega
        rw [if_pos hpage, scene_natCast_eq_ok hindex]
        exact (h.enter hmax hindex false).browser_record hmax index
      · have hscene : ∀ scene, n.scene page ≠ .ok scene := by
          intro scene hscene
          obtain ⟨hnonneg, hlt, -⟩ := lt_of_scene_eq_ok hscene
          omega
        rw [if_neg hpage]
        split
        · rfl
        · rename_i scene hfound
          exact absurd hfound (hscene scene)
  | back => exact h.browser_back.1
  | forward => exact h.browser_forward.1

/-- Moves restore nothing. -/
theorem restoresWell_moves (n : Navigation) (moves : List Browser.Move) :
    n.RestoresWell (moves.map operation) := by
  induction moves generalizing n with
  | nil => trivial
  | cons m moves ih =>
      refine ⟨?_, ih _⟩
      intro state hstate
      cases m <;> nomatch hstate

/-- The parts after whatever moves are those of a browser after the same moves. -/
theorem Sound.browser_after (h : n.Sound) (hmax : 0 < n.maxHistory) (moves : List Browser.Move) :
    (n.after (moves.map operation)).browser =
      moves.foldl (Browser.move n.maxHistory n.scenes.length) n.browser := by
  induction moves generalizing n with
  | nil => rfl
  | cons m moves ih =>
      obtain ⟨hscenes, hbound⟩ := n.bounds_operate (operation m)
      have hsound : (n.operate (operation m)).1.Sound :=
        (h.after hmax (n.restoresWell_moves [m])).1
      show (Navigation.after (n.operate (operation m)).1 (moves.map operation)).browser = _
      rw [ih hsound (by rw [hbound]; exact hmax), hscenes, hbound, h.browser_operate hmax]
      rfl

/-- A fresh navigation that is moved and a fresh browser that is moved the same way hold the same
pages with the same place among them, never more than the history may have. They give the same
answers to going back and going forward; where there is nothing to go to nothing changes; and what
was done by one of the two the other undoes, so that everything is as it was. -/
theorem refines_browser (scenes : List Scene) (maxHistory : Nat) (hmax : 1 ≤ maxHistory)
    (moves : List Browser.Move) :
    let n := after { scenes, maxHistory } (moves.map operation)
    let b := Browser.after maxHistory scenes.length moves
    n.history = b.pages ∧ n.place = b.place ∧ b.pages.length ≤ maxHistory ∧
      n.back.2 = .ok b.back.2 ∧ n.forward.2 = .ok b.forward.2 ∧
      (b.before = [] → n.back = (n, .ok none)) ∧
      (b.ahead = [] → n.forward = (n, .ok none)) ∧
      (b.before ≠ [] → n.back.1.forward = (n, .ok b.current)) ∧
      (b.ahead ≠ [] → n.forward.1.back = (n, .ok b.current)) := by
  intro n b
  have hfresh : Sound { scenes, maxHistory } := sound_fresh scenes maxHistory
  obtain ⟨hsound, -, hbound⟩ := hfresh.after hmax (restoresWell_moves _ moves)
  have hbrowser : n.browser = b := hfresh.browser_after hmax moves
  have hshows : b.ShowsPage := Browser.showsPage_after maxHistory scenes.length moves
  have hpages : n.history = b.pages := by rw [← hbrowser, hsound.pages_browser]
  refine ⟨hpages, ?_, ?_, ?_, ?_, ?_, ?_, ?_, ?_⟩
  · rw [← hbrowser, hsound.place_browser]
  · rw [← hpages]
    exact le_of_le_of_eq hsound.length hbound
  · rw [← hbrowser]
    exact hsound.browser_back.2
  · rw [← hbrowser]
    exact hsound.browser_forward.2
  · intro hbefore
    exact hsound.back_eq_self (hbrowser ▸ hbefore)
  · intro hahead
    exact hsound.forward_eq_self (hbrowser ▸ hahead)
  · intro hbefore
    rw [← hbrowser] at hbefore hshows ⊢
    exact hsound.forward_back (hshows (Or.inl hbefore)) hbefore
  · intro hahead
    rw [← hbrowser] at hahead hshows ⊢
    exact hsound.back_forward (hshows (Or.inr hahead)) hahead

/-- Of five scenes shown three are kept; one is asked for that is not there. After two steps back a
scene is shown in place of those ahead, and from there it is one step back and forward again. -/
theorem refines_browser_three :
    let moves : List Browser.Move := [.visit 0, .visit 1, .visit 0, .visit 2, .visit 1, .visit 7,
      .back, .back, .back, .visit 2]
    let n := after { scenes := [{ index := 0 }, { index := 1 }, { index := 2 }], maxHistory := 3 }
      (moves.map operation)
    let b := Browser.after 3 3 moves
    b = { before := [0], current := some 2, ahead := [] } ∧ n.history = b.pages ∧
      n.place = b.place ∧ b.before ≠ [] ∧ n.back.1.forward = (n, .ok (some 2)) := by
  intro moves n b
  have hb : b = { before := [0], current := some 2, ahead := [] } := rfl
  have hbefore : b.before ≠ [] := by
    rw [hb]
    simp
  obtain ⟨hhistory, hplace, -, -, -, -, -, hforward, -⟩ :=
    refines_browser [{ index := 0 }, { index := 1 }, { index := 2 }] 3 (by decide) moves
  exact ⟨hb, hhistory, hplace, hbefore, hforward hbefore⟩

end Navigation

end PointAndClick
