import RLFinder.PartnerPosts
import RLFinder.Theory.Edit

/-!
# Writing a post

`NewPostController`: the rank and game-type choosers, the text view with its placeholder, and
`postPost`. The text view is the triple of properties its delegate touches, with the two things the
delegate relies on: assigning `text` moves the caret to the end, and applying an edit outside the
text is an exception. `newPostMachine` drives the delegate with user events and keeps beside the
view the plain buffer that received the same edits.
-/

namespace RLFinder

structure Rank where
  title : String
  postType : Option String

/-- `ranks` -/
def ranks : Vector Rank 7 := #v[
  ⟨"Bronze", "bronzePosts"⟩, ⟨"Silver", "silverPosts"⟩, ⟨"Gold", "goldPosts"⟩,
  ⟨"Platinum", "platinumPosts"⟩, ⟨"Diamond", "diamondPosts"⟩, ⟨"Champion", "championPosts"⟩,
  ⟨"Grand Champion", "grandChampionPosts"⟩]

/-- `gameTypes`, the keys written to the database. -/
def gameTypes : Vector String 4 := #v["solo", "doubles", "standard", "soloStandard"]

/-- The library's instance, named as `sections_neZero` is. -/
instance segments_neZero : @NeZero Nat Zero.ofOfNat0 4 := inferInstance

/-- The titles of the game-type segments
(`segmentedControl(_:attributedTitleForSegmentAtIndex:)`). -/
def gameTypeTitles : Vector String 4 := #v["Singles", "Doubles", "Standard", "Solo Standard"]

/-! ## The text view -/

inductive TextColor
  /-- The colour of the storyboard's text view. -/
  | storyboard
  | lightGray
  | white
  deriving DecidableEq

structure NSRange where
  location : Nat
  length : Nat
  deriving DecidableEq

structure UITextView where
  text : List Char
  textColor : TextColor
  selectedRange : NSRange
  deriving DecidableEq

namespace UITextView

def setText (v : UITextView) (text : List Char) : UITextView :=
  { v with text := text, selectedRange := ⟨text.length, 0⟩ }

/-- Apply an edit and move the caret behind what it inserted. -/
def replace (v : UITextView) (e : Edit Char) : Except Fault UITextView :=
  if e.InRange v.text then
    .ok { v with
      text := e.apply v.text, selectedRange := ⟨e.location + e.replacement.length, 0⟩ }
  else .error .rangeException

end UITextView

structure NewPostController where
  /-- Set by the screen that pushes this one. -/
  currentSelectedSystem : String
  /-- `rankChooser.currentSegment` -/
  rankSegment : Fin 7 := 0
  /-- `gameTypeChooser.currentSegment` -/
  gameTypeSegment : Fin 4 := 0
  postBody : UITextView
  deriving DecidableEq

namespace NewPostController

def placeholder : List Char := "Body of post".toList

/-! ## Text view delegate -/

def textViewDidChangeSelection (v : UITextView) : UITextView :=
  if v.text = placeholder ∧ v.textColor = .lightGray then { v with selectedRange := ⟨0, 0⟩ } else v

def textViewDidBeginEditing (v : UITextView) : UITextView := { v with selectedRange := ⟨0, 0⟩ }

def textViewDidChange (v : UITextView) : UITextView :=
  if v.text.length ≠ 0 ∧ v.text.drop 0 = placeholder ∧ v.textColor = .lightGray then
    { v.setText (v.text.take 0) with textColor := .white }
  else if v.text.length = 0 then
    { v.setText placeholder with textColor := .lightGray, selectedRange := ⟨0, 0⟩ }
  else v

def textViewDidEndEditing (v : UITextView) : UITextView :=
  if v.text = [] then { v.setText placeholder with textColor := .lightGray } else v

/-- `textView(_:shouldChangeTextIn:replacementText:)` -/
def shouldChangeText (v : UITextView) (text : List Char) : UITextView × Bool :=
  if text.length > 0 ∧ v.text = placeholder ∧ v.textColor = .lightGray then
    ({ v.setText [] with textColor := .white }, true)
  else (v, true)

/-! ## Posting -/

/-- The dictionary that `postPost` writes. -/
def postFields (chosenGameType postBody : String) : List (String × String) :=
  [("gameType", chosenGameType), ("postBody", postBody), ("username", "bestUser69")]

theorem postFields_wellFormed (chosenGameType postBody : String) :
    (stringDictionary (postFields chosenGameType postBody)).WellFormed :=
  stringDictionary_wellFormed (by simp [postFields]) (by simp [postFields])

def postSystem (c : NewPostController) : String :=
  match c.currentSelectedSystem with
  | "PS4" => "ps4"
  | "PC" => "pc"
  | "Xbox One" => "xboxOne"
  | _ => ""

/-- `ref.child(system).child(chosenGameType).child(chosenRank)` -/
def postPlace (c : NewPostController) (chosenGameType chosenRank : String) : Path :=
  child (child (child [] c.postSystem) chosenGameType) chosenRank

/-- `ranks[rankChooser.currentSegment].postType` -/
def chosenRank (c : NewPostController) : Option String := (ranks.get c.rankSegment).postType

/-- `gameTypes[gameTypeChooser.currentSegment]` -/
def chosenGameType (c : NewPostController) : String := gameTypes.get c.gameTypeSegment

/-- `postPost()`, with the key that `childByAutoId` generates. -/
def postPost (c : NewPostController) (key : String) : Option Write :=
  match c.chosenRank with
  | none => none
  | some chosenRank =>
    some {
      path := childByAutoId (c.postPlace c.chosenGameType chosenRank) key
      value := stringDictionary (postFields c.chosenGameType (String.ofList c.postBody.text))
      wellFormed := postFields_wellFormed .. }

/-- The controller as `toCreatePost` pushes it: the storyboard's text view after `viewDidLoad`. -/
def pushed (currentSelectedSystem : String) (selectedRange : NSRange) : NewPostController where
  currentSelectedSystem
  postBody := { text := placeholder, textColor := .lightGray, selectedRange }

end NewPostController

/-! ## The screen and its user -/

/-- The controller, whether the text view is first responder, and the buffer the author's edits
alone have produced. -/
structure NewPostScreen where
  controller : NewPostController
  isEditing : Bool := false
  typed : List Char := []
  deriving DecidableEq

inductive NewPostEvent
  | beginEditing
  | endEditing
  | selectionChanged (range : NSRange)
  /-- Replace the selection. -/
  | insertText (text : List Char)
  /-- Delete the selection, or else the character of this many units before the caret. -/
  | deleteBackward (count : Nat)
  | chooseRank (segment : Fin 7)
  | chooseGameType (segment : Fin 4)
  deriving DecidableEq

/-- The edit that an event stands for, given the selection. -/
def NewPostEvent.edit? (range : NSRange) : NewPostEvent → Option (Edit Char)
  | insertText text => some ⟨range.location, range.length, text⟩
  | deleteBackward count =>
    if range.length ≠ 0 then some ⟨range.location, range.length, []⟩
    else some ⟨range.location - count, count, []⟩
  | _ => none

namespace NewPostScreen
open NewPostController

def withView (s : NewPostScreen) (v : UITextView) : NewPostScreen :=
  { s with controller := { s.controller with postBody := v } }

/-- One edit: offered to the delegate, applied, its caret move reported, then the edit reported. -/
def edit (s : NewPostScreen) (e : Edit Char) : Except Fault NewPostScreen := do
  let (v, should) := shouldChangeText s.controller.postBody e.replacement
  if should then
    let v ← v.replace e
    let v := textViewDidChange (textViewDidChangeSelection v)
    return { s.withView v with typed := e.apply s.typed }
  else return s.withView v

def handle (s : NewPostScreen) (event : NewPostEvent) : Except Fault NewPostScreen :=
  let v := s.controller.postBody
  match event with
  | .beginEditing => .ok { s.withView (textViewDidBeginEditing v) with isEditing := true }
  | .endEditing => .ok { s.withView (textViewDidEndEditing v) with isEditing := false }
  | .selectionChanged range =>
    .ok (s.withView (textViewDidChangeSelection { v with selectedRange := range }))
  | .chooseRank segment => .ok { s with controller := { s.controller with rankSegment := segment } }
  | .chooseGameType segment =>
    .ok { s with controller := { s.controller with gameTypeSegment := segment } }
  | .insertText _ | .deleteBackward _ =>
    match event.edit? v.selectedRange with
    | some e => s.edit e
    | none => .ok s

/-- Text is edited only while the view is first responder, a selection lies within the text, there
is a character before the caret to delete, and an edit that changes nothing is not delivered. -/
def Enabled (s : NewPostScreen) : NewPostEvent → Prop
  | .beginEditing => s.isEditing = false
  | .endEditing => s.isEditing = true
  | .selectionChanged range => range.location + range.length ≤ s.controller.postBody.text.length
  | .insertText text =>
    s.isEditing = true ∧ (s.controller.postBody.selectedRange.length ≠ 0 ∨ text ≠ [])
  | .deleteBackward count =>
    s.isEditing = true ∧ (s.controller.postBody.selectedRange.length ≠ 0 ∨
      0 < count ∧ count ≤ s.controller.postBody.selectedRange.location)
  | .chooseRank _ | .chooseGameType _ => True

instance {s : NewPostScreen} {e : NewPostEvent} : Decidable (s.Enabled e) := by
  cases e <;> unfold Enabled <;> infer_instance

def start (currentSelectedSystem : String) (selectedRange : NSRange) : NewPostScreen where
  controller := .pushed currentSelectedSystem selectedRange

end NewPostScreen

def newPostMachine : Machine NewPostScreen NewPostEvent Fault where
  enabled := NewPostScreen.Enabled
  step := NewPostScreen.handle

instance (s : NewPostScreen) (e : NewPostEvent) : Decidable (newPostMachine.enabled s e) :=
  inferInstanceAs (Decidable (s.Enabled e))

/-! ## Posting -/

/-- `postPost` calls on one database, by any clients whose editors were opened for a system the
board offers, each with the key that `childByAutoId` generates. -/
def postingMachine : Machine Database (NewPostController × String) Fault where
  enabled db call := call.1.currentSelectedSystem ∈ DropDown.systemDropDown.dropDownOptions ∧
    ∀ write ∈ call.1.postPost call.2, IsAutoId db write.path.dropLast call.2
  step db call := .ok (db.apply (call.1.postPost call.2).toList)

end RLFinder
