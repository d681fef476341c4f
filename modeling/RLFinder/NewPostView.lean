import RLFinder.NewPost
import RLFinder.SegmentedControl

/-!
# The post screen with its choosers

`NewPostController` with `rankChooser` and `gameTypeChooser` as segmented controls that are tapped
and dragged while the text is edited. `postPost` reads the current segments when it is called and
subscripts its arrays with them, so a control without a valid segment would end the process.
-/

namespace RLFinder

/-- A subscript of an array with an `Int`. -/
def elementAt (elements : Vector α n) (index : Int) : Except ControlFault α :=
  if index < 0 then .error .indexOutOfRange
  else elements[index.toNat]?.elim (.error .indexOutOfRange) .ok

/-- The segments of the editor are not used: they are those of the choosers. -/
structure NewPostView where
  editor : NewPostScreen
  rankChooser : SegmentedScreen 7
  gameTypeChooser : SegmentedScreen 4

inductive NewPostViewEvent
  | text (e : NewPostEvent)
  | rankChooser (e : SegmentedEvent)
  | gameTypeChooser (e : SegmentedEvent)

/-- The events of the text view. -/
def NewPostEvent.isText : NewPostEvent → Bool
  | chooseRank _ | chooseGameType _ => false
  | _ => true

namespace NewPostView

variable (rankLayout : Layout 7) (gameTypeLayout : Layout 4) (v : NewPostView)

/-- `postPost()`, with the key that `childByAutoId` generates. -/
def postPost (key : String) : Except ControlFault (Option Write) := do
  let rank ← elementAt ranks v.rankChooser.control.currentSegment
  match rank.postType with
  | none => return none
  | some chosenRank =>
    let chosenGameType ← elementAt gameTypes v.gameTypeChooser.control.currentSegment
    let c := v.editor.controller
    return some {
      path := childByAutoId (c.postPlace chosenGameType chosenRank) key
      value := stringDictionary
        (NewPostController.postFields chosenGameType (String.ofList c.postBody.text))
      wellFormed := NewPostController.postFields_wellFormed .. }

def handle : NewPostViewEvent → Except (Fault ⊕ ControlFault) NewPostView
  | .text e => do
    let editor ← (v.editor.handle e).mapError .inl
    return { v with editor }
  | .rankChooser e => do
    let rankChooser ← (v.rankChooser.handle rankLayout e).mapError .inr
    return { v with rankChooser }
  | .gameTypeChooser e => do
    let gameTypeChooser ← (v.gameTypeChooser.handle gameTypeLayout e).mapError .inr
    return { v with gameTypeChooser }

def Enabled : NewPostViewEvent → Prop
  | .text e => e.isText = true ∧ v.editor.Enabled e
  | .rankChooser e => v.rankChooser.Enabled rankLayout e
  | .gameTypeChooser e => v.gameTypeChooser.Enabled gameTypeLayout e

/-- The screen as it is pushed, once its choosers have loaded. -/
def loaded (currentSelectedSystem : String) (selectedRange : NSRange) :
    Except ControlFault NewPostView := do
  let rankChooser ← SegmentedControl.loaded rankLayout
  let gameTypeChooser ← SegmentedControl.loaded gameTypeLayout
  return {
    editor := .start currentSelectedSystem selectedRange
    rankChooser := { control := rankChooser }
    gameTypeChooser := { control := gameTypeChooser } }

end NewPostView

def newPostViewMachine (rankLayout : Layout 7) (gameTypeLayout : Layout 4) :
    Machine NewPostView NewPostViewEvent (Fault ⊕ ControlFault) where
  enabled := NewPostView.Enabled rankLayout gameTypeLayout
  step := NewPostView.handle rankLayout gameTypeLayout

end RLFinder
