import RLFinder.BoardView
import RLFinder.Verify.BulletinRefinement

/-!
# The drop-downs and the floating button

With its drop-downs the board is still the board: a tap on a row of a list is the choice of that
option, the other touches are nothing to it (`implements_posts`). The titles are always the
selection. The floating button is on screen or off it by where the last report of a drag has been
(`floatingButton_of_drag`).
-/

namespace RLFinder
namespace BoardView

variable {l : BoardLayout} {v v' : BoardView} {e : BoardViewEvent} {es : List BoardViewEvent}

/-! ## Drop-downs -/

theorem button_setButton {b : DropDownButton} {x y : DropDown} :
    (v.setButton b x).button y = if y = x then b else v.button y := by
  cases x <;> cases y <;> rfl

@[simp] theorem posts_setButton {b : DropDownButton} {x : DropDown} :
    (v.setButton b x).posts = v.posts := by cases x <;> rfl

@[simp] theorem floatingButton_setButton {b : DropDownButton} {x : DropDown} :
    (v.setButton b x).floatingButton = v.floatingButton := by cases x <;> rfl

theorem contentHeight_pos (l : BoardLayout) (b : DropDown) : 0 < l.contentHeight b := by
  have hlength : 0 < b.dropDownOptions.length := by cases b <;> decide
  exact mul_pos (Nat.cast_pos.mpr hlength) l.rowHeight_pos

/-- What an event is for the board alone. -/
def choices : BoardViewEvent → List PostsEvent
  | .posts e => [e]
  | .didSelectRow button row =>
    button.dropDownOptions[row]?.toList.map (.dropDownClicked button)
  | _ => []

/-- The titles are the selection, a list is as high as its rows or closed, and the floating button
is in one of its two places. -/
structure Sound (l : BoardLayout) (v : BoardView) : Prop where
  selection : v.posts.controller.selection = ⟨v.systemDropDown.title, v.gameTypeDropDown.title⟩
  height : ∀ b, (v.button b).height = if (v.button b).isOpen then l.contentHeight b else 0
  floatingButton : v.floatingButton.originY =
    if v.floatingButton.isVisible then l.maxY - 120 else l.height + 76

theorem sound_viewDidLoad : (viewDidLoad l).Sound l where
  selection := rfl
  height b := by cases b <;> rfl
  floatingButton := rfl

/-- Opening or closing a list leaves the selection alone. -/
theorem Sound.setButton (h : v.Sound l) {b : DropDown} {new : DropDownButton}
    (htitle : new.title = (v.button b).title)
    (hheight : new.height = if new.isOpen then l.contentHeight b else 0) :
    (v.setButton new b).Sound l where
  selection := by
    cases b with
    | systemDropDown =>
      rw [posts_setButton, h.selection]
      exact congrArg (Selection.mk · _) htitle.symm
    | gameTypeDropDown =>
      rw [posts_setButton, h.selection]
      exact congrArg (Selection.mk _) htitle.symm
  height b' := by
    rw [button_setButton]
    split
    · rename_i heq
      rw [heq]
      exact hheight
    · exact h.height b'
  floatingButton := by
    rw [floatingButton_setButton]
    exact h.floatingButton

theorem Sound.touchesBegan (h : v.Sound l) (b : DropDown) : (v.touchesBegan l b).Sound l := by
  unfold BoardView.touchesBegan
  simp only
  split
  · exact h.setButton rfl rfl
  · exact h.setButton rfl rfl

/-- The chosen option is the title and the selection, and the list is closed. -/
theorem Sound.dropDownClicked (h : v.Sound l) (b : DropDown) (string : String) :
    (v.dropDownClicked b string).Sound l := by
  cases b with
  | systemDropDown =>
    refine ⟨congrArg (Selection.mk string) (congrArg Selection.gameType h.selection), ?_,
      h.floatingButton⟩
    intro b
    cases b with
    | systemDropDown => rfl
    | gameTypeDropDown => exact h.height .gameTypeDropDown
  | gameTypeDropDown =>
    refine ⟨congrArg (Selection.mk · string) (congrArg Selection.system h.selection), ?_,
      h.floatingButton⟩
    intro b
    cases b with
    | systemDropDown => exact h.height .systemDropDown
    | gameTypeDropDown => rfl

theorem Sound.movePostButton (h : v.Sound l) : (v.movePostButton l).Sound l := by
  unfold BoardView.movePostButton
  split
  · exact ⟨h.selection, h.height, rfl⟩
  · exact ⟨h.selection, h.height, rfl⟩

theorem Sound.scrollViewDidScroll (h : v.Sound l) (y : CGFloat) :
    (v.scrollViewDidScroll l y).Sound l := by
  have hmoved : Sound l { v with contentOffset := y } := ⟨h.selection, h.height, h.floatingButton⟩
  unfold BoardView.scrollViewDidScroll
  simp only
  split
  · exact hmoved
  split
  · split
    · exact hmoved.movePostButton
    · exact hmoved
  split
  · split
    · exact hmoved.movePostButton
    · exact hmoved
  · exact hmoved

/-! ## Runs -/

theorem posts_dropDownClicked {b : DropDown} {string : String} :
    (v.dropDownClicked b string).posts =
      v.posts.issue (v.posts.controller.reloadTable string b) := by
  cases b <;> rfl

@[simp] theorem posts_touchesBegan {b : DropDown} : (v.touchesBegan l b).posts = v.posts := by
  simp only [BoardView.touchesBegan]
  split
  · exact posts_setButton
  · exact posts_setButton

@[simp] theorem posts_movePostButton : (v.movePostButton l).posts = v.posts := by
  unfold BoardView.movePostButton
  split <;> rfl

@[simp] theorem posts_scrollViewDidScroll {y : CGFloat} :
    (v.scrollViewDidScroll l y).posts = v.posts := by
  simp only [BoardView.scrollViewDidScroll]
  split
  · rfl
  split
  · split <;> simp
  split
  · split <;> simp
  · rfl

theorem selection_of_steps {s s' : PostsScreen} {e : PostsEvent} (hstep : postsMachine.Steps s e s')
    (he : ∀ b string, e ≠ .dropDownClicked b string) :
    s'.controller.selection = s.controller.selection := by
  have heffect := PostsScreen.effect_of_steps hstep
  cases e with
  | viewDidAppear =>
    cases hstep.2
    rfl
  | dropDownClicked b string => exact absurd rfl (he b string)
  | readCallback | headerTap | cellForRow | headerReappears => exact heffect.selection rfl

theorem didSelectRow_eq {b : DropDown} {row : Nat} (h : row < b.dropDownOptions.length) :
    v.didSelectRow b row = .ok (v.dropDownClicked b b.dropDownOptions[row]) := by
  rw [didSelectRow, getElem?_pos b.dropDownOptions row h]
  rfl

/-- Only an event of the board itself can fault. -/
theorem eq_posts_of_error {f : Fault} (hen : v.Enabled e) (hfault : v.handle l e = .error f) :
    ∃ event, e = .posts event ∧ v.posts.handle event = .error f := by
  cases e with
  | posts event => exact ⟨event, rfl, Except.bind_pure_eq_error_iff.mp hfault⟩
  | didSelectRow b row =>
    have hfault : v.didSelectRow b row = .error f := hfault
    rw [didSelectRow_eq hen.2] at hfault
    cases hfault
  | touchesBegan | scrollViewWillBeginDragging | scrollViewDidScroll => cases hfault

theorem Sound.steps (h : v.Sound l) (hstep : (boardViewMachine l).Steps v e v') :
    v'.Sound l ∧ postsMachine.Run v.posts (choices e) v'.posts := by
  obtain ⟨hen, hok⟩ := hstep
  cases e with
  | posts e =>
    obtain ⟨posts, hposts, hok⟩ := Except.of_bind_eq_ok hok
    cases hok
    have hstep : postsMachine.Steps v.posts e posts := ⟨hen.2, hposts⟩
    exact ⟨⟨(selection_of_steps hstep hen.1).trans h.selection, h.height, h.floatingButton⟩,
      .single hstep⟩
  | touchesBegan b =>
    cases hok
    refine ⟨h.touchesBegan b, ?_⟩
    rw [posts_touchesBegan]
    exact .nil
  | didSelectRow b row =>
    have hok : v.didSelectRow b row = .ok v' := hok
    rw [didSelectRow_eq hen.2] at hok
    cases hok
    refine ⟨h.dropDownClicked b _, ?_⟩
    rw [posts_dropDownClicked, choices, getElem?_pos b.dropDownOptions row hen.2]
    exact .single ⟨List.getElem_mem hen.2, rfl⟩
  | scrollViewWillBeginDragging =>
    cases hok
    exact ⟨⟨h.selection, h.height, h.floatingButton⟩, .nil⟩
  | scrollViewDidScroll y =>
    cases hok
    refine ⟨h.scrollViewDidScroll y, ?_⟩
    rw [posts_scrollViewDidScroll]
    exact .nil

theorem sound_of_run (hrun : (boardViewMachine l).Run (viewDidLoad l) es v) : v.Sound l :=
  hrun.invariant sound_viewDidLoad fun _ _ _ hs hstep => (hs.steps hstep).1

theorem posts_of_run (hrun : (boardViewMachine l).Run (viewDidLoad l) es v) :
    postsMachine.Run .start (es.flatMap choices) v.posts := by
  induction hrun with
  | nil => exact .nil
  | snoc hrun hstep ih =>
    rw [List.flatMap_append, List.flatMap_singleton]
    exact ih.append ((sound_of_run hrun).steps hstep).2

/-- In every run the drop-downs only choose: the board has the run of their choices, their titles
are its selection, a list has a height exactly while it is open, and nothing that is touched here
ends the process, unless the board itself does. -/
theorem implements_posts (hrun : (boardViewMachine l).Run (viewDidLoad l) es v) :
    postsMachine.Run .start (es.flatMap choices) v.posts ∧
    v.posts.controller.currentSelectedSystem = v.systemDropDown.title ∧
    v.posts.controller.currentSelectedGameType = v.gameTypeDropDown.title ∧
    (∀ b, (v.button b).isOpen = true ↔ 0 < (v.button b).height) ∧
    ∀ e f, (boardViewMachine l).enabled v e → (boardViewMachine l).step v e = .error f →
      ∃ event, e = .posts event ∧ postsMachine.step v.posts event = .error f := by
  have hsound := sound_of_run hrun
  refine ⟨posts_of_run hrun, congrArg Selection.system hsound.selection,
    congrArg Selection.gameType hsound.selection, fun b => ?_, fun e f hen hfault => ?_⟩
  · rw [hsound.height]
    split
    · rename_i hopen
      exact ⟨fun _ => contentHeight_pos l b, fun _ => hopen⟩
    · rename_i hclosed
      exact ⟨fun hopen => absurd hopen hclosed, fun hpos => absurd hpos (lt_irrefl _)⟩
  · exact eq_posts_of_error hen hfault

/-- A screen of 667 points. -/
def phone : BoardLayout :=
  { maxY := 667, height := 667, rowHeight := 44, rowHeight_pos := by norm_num }

theorem implements_posts_doubles : ∃ v, (boardViewMachine phone).Run (viewDidLoad phone)
      [.touchesBegan .gameTypeDropDown, .didSelectRow .gameTypeDropDown 1] v ∧
    postsMachine.Run .start [.dropDownClicked .gameTypeDropDown "Doubles"] v.posts ∧
    v.posts.controller.currentSelectedGameType = v.gameTypeDropDown.title := by
  let v := (viewDidLoad phone).touchesBegan phone .gameTypeDropDown
  have hopen : (boardViewMachine phone).Steps (viewDidLoad phone) (.touchesBegan .gameTypeDropDown)
      v := ⟨trivial, rfl⟩
  have hchosen : (boardViewMachine phone).Steps v (.didSelectRow .gameTypeDropDown 1)
      (v.dropDownClicked .gameTypeDropDown "Doubles") :=
    ⟨⟨contentHeight_pos phone .gameTypeDropDown, by decide⟩, rfl⟩
  have hrun := Machine.Run.cons hopen (.single hchosen)
  obtain ⟨hposts, -, hgameType, -⟩ := implements_posts hrun
  exact ⟨_, hrun, hposts, hgameType⟩

/-! ## Dragging -/

/-- The offsets reported while the posts are scrolled. -/
def reports : BoardViewEvent → List CGFloat
  | .scrollViewDidScroll contentOffset => [contentOffset]
  | _ => []

/-- A report decides whether the button is visible unless it is of where the drag has begun. -/
theorem scrollViewDidScroll_isVisible {start y : CGFloat} (h : v.lastContentOffset = some start) :
    (v.scrollViewDidScroll l y).lastContentOffset = some start ∧
      (v.scrollViewDidScroll l y).floatingButton.isVisible =
        if y = start then v.floatingButton.isVisible else decide (y < start) := by
  simp only [BoardView.scrollViewDidScroll, h]
  rcases lt_trichotomy start y with hlt | heq | hgt
  · rw [if_pos hlt, if_neg hlt.ne', decide_eq_false hlt.not_gt]
    split
    · rename_i hvisible
      simp [BoardView.movePostButton, hvisible]
    · rename_i hvisible
      exact ⟨rfl, by simpa using hvisible⟩
  · rw [if_neg heq.not_lt, if_neg heq.not_gt, if_pos heq.symm]
    exact ⟨rfl, rfl⟩
  · rw [if_neg hgt.not_gt, if_pos hgt, if_neg hgt.ne, decide_eq_true hgt]
    split
    · rename_i hhidden
      have hhidden : v.floatingButton.isVisible = false := by simpa using hhidden
      simp [BoardView.movePostButton, hhidden]
    · rename_i hvisible
      exact ⟨rfl, by simpa using hvisible⟩

@[simp] theorem lastContentOffset_setButton {b : DropDownButton} {x : DropDown} :
    (v.setButton b x).lastContentOffset = v.lastContentOffset := by cases x <;> rfl

/-- What is not a movement of the posts leaves the button and the start of the drag alone. -/
theorem steps_of_not_scroll (hstep : (boardViewMachine l).Steps v e v')
    (he : e ≠ .scrollViewWillBeginDragging) (hreports : reports e = []) :
    v'.floatingButton = v.floatingButton ∧ v'.lastContentOffset = v.lastContentOffset := by
  obtain ⟨hen, hok⟩ := hstep
  cases e with
  | posts e =>
    obtain ⟨posts, -, hok⟩ := Except.of_bind_eq_ok hok
    cases hok
    exact ⟨rfl, rfl⟩
  | touchesBegan b =>
    cases hok
    simp only [BoardView.touchesBegan]
    split
    · exact ⟨floatingButton_setButton, lastContentOffset_setButton⟩
    · exact ⟨floatingButton_setButton, lastContentOffset_setButton⟩
  | didSelectRow b row =>
    have hok : v.didSelectRow b row = .ok v' := hok
    rw [didSelectRow_eq hen.2] at hok
    cases hok
    cases b <;> exact ⟨rfl, rfl⟩
  | scrollViewWillBeginDragging => exact absurd rfl he
  | scrollViewDidScroll => cases hreports

theorem isVisible_of_drag {v₀ : BoardView} {start : CGFloat} (h : v₀.lastContentOffset = some start)
    (hrun : (boardViewMachine l).Run v₀ es v) (hdrag : .scrollViewWillBeginDragging ∉ es) :
    v.lastContentOffset = some start ∧ v.floatingButton.isVisible =
      ((es.flatMap reports).filter (· ≠ start)).getLast?.elim v₀.floatingButton.isVisible
        fun y => decide (y < start) := by
  induction hrun with
  | nil => exact ⟨h, rfl⟩
  | @snoc es v e v' _ hstep ih =>
    simp only [List.mem_append, List.mem_singleton, not_or] at hdrag
    obtain ⟨hlast, hvisible⟩ := ih hdrag.1
    rw [List.flatMap_append, List.flatMap_singleton, List.filter_append]
    cases hreports : reports e with
    | nil =>
      obtain ⟨hbutton, hoffset⟩ := steps_of_not_scroll hstep (Ne.symm hdrag.2) hreports
      rw [hbutton, hoffset, List.filter_nil, List.append_nil]
      exact ⟨hlast, hvisible⟩
    | cons y ys =>
      cases e with
      | posts | touchesBegan | didSelectRow | scrollViewWillBeginDragging => cases hreports
      | scrollViewDidScroll =>
        cases hreports
        cases hstep.2
        obtain ⟨hlast', hvisible'⟩ := scrollViewDidScroll_isVisible (l := l) (y := y) hlast
        refine ⟨hlast', hvisible'.trans ?_⟩
        split
        · rename_i heq
          simp [heq, hvisible]
        · rename_i hne
          simp [hne]

/-- From the beginning of a drag to that of the next one, whatever else is touched and read in
between, the last report away from where the drag began decides: the post button is in its place on
the screen if that was further up, and below the screen if it was further down. -/
theorem floatingButton_of_drag (hrun : (boardViewMachine l).Run (viewDidLoad l)
      (es ++ .scrollViewWillBeginDragging :: es') v)
    (hdrag : .scrollViewWillBeginDragging ∉ es') :
    ∃ v₀, (boardViewMachine l).Run (viewDidLoad l) es v₀ ∧
      v.floatingButton.isVisible =
        ((es'.flatMap reports).filter (· ≠ v₀.contentOffset)).getLast?.elim
          v₀.floatingButton.isVisible (fun y => decide (y < v₀.contentOffset)) ∧
      v.floatingButton.originY =
        if v.floatingButton.isVisible then l.maxY - 120 else l.height + 76 := by
  have hsound := sound_of_run hrun
  obtain ⟨v₀, hbefore, hrun⟩ := hrun.split
  obtain ⟨v₁, ⟨-, hbegin⟩, hrun⟩ := hrun.cons_inv
  cases hbegin
  have hlast : v₀.scrollViewWillBeginDragging.lastContentOffset = some v₀.contentOffset := rfl
  obtain ⟨-, hvisible⟩ := isVisible_of_drag hlast hrun hdrag
  exact ⟨v₀, hbefore, hvisible, hsound.floatingButton⟩

theorem floatingButton_of_drag_down : ∃ v, (boardViewMachine phone).Run (viewDidLoad phone)
      [.scrollViewWillBeginDragging, .scrollViewDidScroll 40] v ∧
    v.floatingButton.isVisible = false := by
  have hrun : (boardViewMachine phone).Run (viewDidLoad phone)
      ([] ++ .scrollViewWillBeginDragging :: [.scrollViewDidScroll 40]) _ :=
    .cons ⟨trivial, rfl⟩ (.single ⟨trivial, rfl⟩)
  obtain ⟨v₀, hbefore, hvisible, -⟩ := floatingButton_of_drag hrun (by simp)
  cases hbefore.nil_inv
  refine ⟨_, hrun, hvisible.trans ?_⟩
  have hne : (40 : CGFloat) ≠ 0 := by norm_num
  have hlt : ¬ (40 : CGFloat) < 0 := by norm_num
  simp [reports, viewDidLoad, hne, hlt]

end BoardView
end RLFinder
