import RLFinder.PartnerPosts
import RLFinder.SegmentedControl

/-!
# What is on screen with the board

The two drop-downs (`DropDownButton` with its `DropDownView`) and the floating post button, which
leaves the screen while the posts are scrolled down. `boardViewMachine` lets them be touched and the
posts be scrolled, between the events of the board itself.
-/

namespace RLFinder

/-- A drop-down button with the list it opens. -/
structure DropDownButton where
  title : String
  isOpen : Bool := false
  /-- `height.constant`, of the list. -/
  height : CGFloat := 0

structure FloatingButton where
  /-- `floatingButtonIsVisible` -/
  isVisible : Bool := true
  /-- `floatingButtonView.frame.origin.y` -/
  originY : CGFloat

/-- The sizes that the screen fixes. -/
structure BoardLayout where
  /-- `view.frame.maxY` -/
  maxY : CGFloat
  /-- `view.bounds.size.height` -/
  height : CGFloat
  /-- The height of a row in the list of a drop-down. -/
  rowHeight : CGFloat
  rowHeight_pos : 0 < rowHeight

structure BoardView where
  posts : PostsScreen
  systemDropDown : DropDownButton
  gameTypeDropDown : DropDownButton
  floatingButton : FloatingButton
  /-- `postsTable.contentOffset.y` -/
  contentOffset : CGFloat := 0
  lastContentOffset : Option CGFloat := none

/-- `dropDownView.tableView.contentSize.height` -/
def BoardLayout.contentHeight (l : BoardLayout) (button : DropDown) : CGFloat :=
  button.dropDownOptions.length * l.rowHeight

inductive BoardViewEvent
  | posts (e : PostsEvent)
  /-- A touch of a drop-down button. -/
  | touchesBegan (button : DropDown)
  /-- A tap on a row of the list of a drop-down. -/
  | didSelectRow (button : DropDown) (row : Nat)
  | scrollViewWillBeginDragging
  | scrollViewDidScroll (contentOffset : CGFloat)

namespace BoardView

variable (l : BoardLayout) (v : BoardView)

/-! ## Drop-downs -/

def button : DropDown → DropDownButton
  | .systemDropDown => v.systemDropDown
  | .gameTypeDropDown => v.gameTypeDropDown

def setButton (button : DropDownButton) : DropDown → BoardView
  | .systemDropDown => { v with systemDropDown := button }
  | .gameTypeDropDown => { v with gameTypeDropDown := button }

def touchesBegan (button : DropDown) : BoardView :=
  let b := v.button button
  if b.isOpen then v.setButton { b with isOpen := false, height := 0 } button
  else v.setButton { b with isOpen := true, height := l.contentHeight button } button

/-- `dropDownClicked(string:)` -/
def dropDownClicked (button : DropDown) (string : String) : BoardView :=
  let v := v.setButton { v.button button with title := string } button
  let v := { v with posts := v.posts.issue (v.posts.controller.reloadTable string button) }
  v.setButton { v.button button with isOpen := false, height := 0 } button

/-- `tableView(_:didSelectRowAt:)` of the list of a drop-down. -/
def didSelectRow (button : DropDown) (row : Nat) : Except Fault BoardView :=
  button.dropDownOptions[row]?.elim (.error .indexOutOfRange) fun string =>
    .ok (v.dropDownClicked button string)

/-! ## The floating button -/

def movePostButton : BoardView :=
  let superViewHeight := l.height
  let buttonHeight := 76
  if v.floatingButton.isVisible then
    { v with floatingButton := { originY := superViewHeight + buttonHeight, isVisible := false } }
  else { v with floatingButton := { originY := l.maxY - 120, isVisible := true } }

def scrollViewWillBeginDragging : BoardView :=
  { v with lastContentOffset := some v.contentOffset }

/-- `scrollViewDidScroll(_:)`, which reads the new offset. -/
def scrollViewDidScroll (contentOffset : CGFloat) : BoardView :=
  let v := { v with contentOffset }
  match v.lastContentOffset with
  | none => v
  | some lastContentOffset =>
    if lastContentOffset < contentOffset then
      if v.floatingButton.isVisible then v.movePostButton l else v
    else if lastContentOffset > contentOffset then
      if !v.floatingButton.isVisible then v.movePostButton l else v
    else v

/-! ## Events -/

def handle : BoardViewEvent → Except Fault BoardView
  | .posts e => do
    let posts ← v.posts.handle e
    return { v with posts }
  | .touchesBegan button => .ok (v.touchesBegan l button)
  | .didSelectRow button row => v.didSelectRow button row
  | .scrollViewWillBeginDragging => .ok v.scrollViewWillBeginDragging
  | .scrollViewDidScroll contentOffset => .ok (v.scrollViewDidScroll l contentOffset)

/-- An option is chosen by tapping its row, which is there only while the list has a height. -/
def Enabled : BoardViewEvent → Prop
  | .posts e => (∀ button string, e ≠ .dropDownClicked button string) ∧ v.posts.Enabled e
  | .didSelectRow button row =>
    0 < (v.button button).height ∧ row < button.dropDownOptions.length
  | _ => True

/-- The screen after `viewDidLoad`. -/
def viewDidLoad : BoardView where
  posts := .start
  systemDropDown := { title := "PS4" }
  gameTypeDropDown := { title := "Duel" }
  floatingButton := { originY := l.maxY - 120 }

end BoardView

def boardViewMachine (l : BoardLayout) : Machine BoardView BoardViewEvent Fault where
  enabled := BoardView.Enabled
  step := BoardView.handle l

end RLFinder
