import RLFinder.NewPost
import RLFinder.Theory.Machine

/-!
# Reports of the selection

`UITextView` reports every change of its selection, those included that the delegate makes itself by
assigning `text` or `selectedRange`. Here the delegate's methods run with these reports delivered in
the middle of them, and `reportingMachine` drives them with the events of `newPostMachine`.
-/

namespace RLFinder

namespace UITextView
open NewPostController

/-- Assign `text`: the caret moves to the end and is reported. -/
def assignText (v : UITextView) (text : List Char) : UITextView :=
  textViewDidChangeSelection (v.setText text)

/-- Assign `selectedRange`, which is reported. -/
def assignSelectedRange (v : UITextView) (range : NSRange) : UITextView :=
  textViewDidChangeSelection { v with selectedRange := range }

end UITextView

namespace Reporting
open NewPostController (placeholder)

def textViewDidChangeSelection (v : UITextView) : UITextView :=
  if v.text = placeholder ∧ v.textColor = .lightGray then v.assignSelectedRange ⟨0, 0⟩ else v

def textViewDidBeginEditing (v : UITextView) : UITextView := v.assignSelectedRange ⟨0, 0⟩

/-- The condition of the first branch of `textViewDidChange`, which clears the text. -/
def ClearsText (v : UITextView) : Prop :=
  v.text.length ≠ 0 ∧ v.text.drop 0 = placeholder ∧ v.textColor = .lightGray

instance {v : UITextView} : Decidable (ClearsText v) := inferInstanceAs (Decidable (_ ∧ _))

def textViewDidChange (v : UITextView) : UITextView :=
  if ClearsText v then { v.assignText (v.text.take 0) with textColor := .white }
  else if v.text.length = 0 then
    { v.assignText placeholder with textColor := .lightGray }.assignSelectedRange ⟨0, 0⟩
  else v

def textViewDidEndEditing (v : UITextView) : UITextView :=
  if v.text = [] then { v.assignText placeholder with textColor := .lightGray } else v

/-- `textView(_:shouldChangeTextIn:replacementText:)` -/
def shouldChangeText (v : UITextView) (text : List Char) : UITextView × Bool :=
  if text.length > 0 ∧ v.text = placeholder ∧ v.textColor = .lightGray then
    ({ v.assignText [] with textColor := .white }, true)
  else (v, true)

end Reporting

namespace NewPostScreen

/-- The edits an event delivers, with the range chosen from the selection it finds. -/
def edits (s : NewPostScreen) (event : NewPostEvent) : List (Edit Char) :=
  (event.edit? s.controller.postBody.selectedRange).toList

/-- `edit` with every report delivered. -/
def reportingEdit (s : NewPostScreen) (e : Edit Char) : Except Fault NewPostScreen := do
  let (v, should) := Reporting.shouldChangeText s.controller.postBody e.replacement
  if should then
    let v ← v.replace e
    let v := Reporting.textViewDidChange (Reporting.textViewDidChangeSelection v)
    return { s.withView v with typed := e.apply s.typed }
  else return s.withView v

/-- `handle` with every report delivered. -/
def reportingHandle (s : NewPostScreen) (event : NewPostEvent) : Except Fault NewPostScreen :=
  let v := s.controller.postBody
  match event with
  | .beginEditing => .ok { s.withView (Reporting.textViewDidBeginEditing v) with isEditing := true }
  | .endEditing => .ok { s.withView (Reporting.textViewDidEndEditing v) with isEditing := false }
  | .selectionChanged range =>
    .ok (s.withView (Reporting.textViewDidChangeSelection { v with selectedRange := range }))
  | .chooseRank segment => .ok { s with controller := { s.controller with rankSegment := segment } }
  | .chooseGameType segment =>
    .ok { s with controller := { s.controller with gameTypeSegment := segment } }
  | .insertText _ | .deleteBackward _ =>
    match event.edit? v.selectedRange with
    | some e => s.reportingEdit e
    | none => .ok s

end NewPostScreen

def reportingMachine : Machine NewPostScreen NewPostEvent Fault where
  enabled := NewPostScreen.Enabled
  step := NewPostScreen.reportingHandle

instance (s : NewPostScreen) (e : NewPostEvent) : Decidable (reportingMachine.enabled s e) :=
  inferInstanceAs (Decidable (s.Enabled e))

end RLFinder
