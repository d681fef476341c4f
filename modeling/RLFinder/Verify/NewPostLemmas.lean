import RLFinder.NewPost
import RLFinder.Verify.PartnerPostsLemmas

/-!
# What each method of the post editor does

The write that `postPost` makes (`postPost_eq`), the delegate's answers in the two situations that
occur (the grey placeholder, the author's text), and what an editor event leaves alone.
-/

namespace RLFinder
namespace NewPostController

variable {c : NewPostController} {v : UITextView} {e : Edit Char} {key : String}

/-! ## Posting -/

/-- The rank chooser's segments and the board's sections name the same keys in the same order. -/
theorem postType_eq (t : Fin 7) : (ranks.get t).postType = some (tierKey t) := by
  fin_cases t <;> rfl

theorem chosenRank_eq : c.chosenRank = some (tierKey c.rankSegment) := postType_eq _

/-- The dictionary written for the chosen segments and the shown text. -/
def fields (c : NewPostController) : List (String × String) :=
  postFields c.chosenGameType (String.ofList c.postBody.text)

/-- The place below which the post is written. -/
def place (c : NewPostController) : Path :=
  c.postPlace c.chosenGameType (tierKey c.rankSegment)

theorem fields_wellFormed (c : NewPostController) : (stringDictionary c.fields).WellFormed :=
  postFields_wellFormed ..

def postWrite (c : NewPostController) (key : String) : Write where
  path := c.place ++ [key]
  value := stringDictionary c.fields
  wellFormed := c.fields_wellFormed

@[simp] theorem dropLast_postWrite : (c.postWrite key).path.dropLast = c.place :=
  List.dropLast_concat

theorem postSystem_mem
    (h : c.currentSelectedSystem ∈ DropDown.systemDropDown.dropDownOptions) :
    c.postSystem ∈ ["ps4", "pc", "xboxOne"] := by
  unfold postSystem
  rcases DropDown.mem_systemOptions.mp h with hs | hs | hs <;> rw [hs] <;> decide

theorem pathPieces_chosenGameType : pathPieces c.chosenGameType = [c.chosenGameType] := by
  unfold chosenGameType
  generalize c.gameTypeSegment = t
  revert t
  decide

theorem pathPieces_tierKey (t : Fin 7) : pathPieces (tierKey t) = [tierKey t] := by
  revert t
  decide

/-- For a system the board offers, the post is written at depth four: system, game type, rank,
id. -/
theorem place_eq (h : c.currentSelectedSystem ∈ DropDown.systemDropDown.dropDownOptions) :
    c.place = [c.postSystem, c.chosenGameType, tierKey c.rankSegment] := by
  have hsystem : pathPieces c.postSystem = [c.postSystem] := by
    have hmem := postSystem_mem h
    simp only [List.mem_cons, List.not_mem_nil, or_false] at hmem
    rcases hmem with hs | hs | hs <;> rw [hs] <;> decide
  rw [place, postPlace, child, child, child, hsystem, pathPieces_chosenGameType, pathPieces_tierKey]
  rfl

theorem ne_empty_of_mem_place
    (h : c.currentSelectedSystem ∈ DropDown.systemDropDown.dropDownOptions) :
    ∀ k ∈ c.place, k ≠ "" := by
  have hsystem : c.postSystem ≠ "" := by
    intro heq
    have hmem := postSystem_mem h
    rw [heq] at hmem
    revert hmem
    decide
  have hgame : ∀ t : Fin 4, gameTypes.get t ≠ "" := by decide
  have hrank : ∀ t : Fin 7, tierKey t ≠ "" := by decide
  rw [place_eq h]
  simpa using ⟨hsystem, hgame _, hrank _⟩

/-- `postPost` always writes. -/
theorem postPost_eq : c.postPost key = some (c.postWrite key) := by
  rw [postPost, chosenRank_eq]
  rfl

theorem get_postBody_postWrite : KeyTree.get (some (c.postWrite key).value) ["postBody"] =
    some (.leaf (.string (String.ofList c.postBody.text))) := rfl

/-! ## The delegate -/

theorem placeholder_ne_nil : placeholder ≠ [] := by decide

/-- Over the author's text the delegate lets an edit through and changes nothing. -/
theorem shouldChangeText_of_white {text : List Char} (h : v.textColor = .white) :
    shouldChangeText v text = (v, true) := by
  rw [shouldChangeText, if_neg]
  rintro ⟨-, -, hcolor⟩
  rw [h] at hcolor
  cases hcolor

/-- Over the placeholder it first empties the view and turns it white. -/
theorem shouldChangeText_of_placeholder {text : List Char} (htext : text ≠ [])
    (hshown : v.text = placeholder) (hcolor : v.textColor = .lightGray) :
    shouldChangeText v text = (⟨[], .white, ⟨0, 0⟩⟩, true) := by
  rw [shouldChangeText, if_pos ⟨List.length_pos_iff.mpr htext, hshown, hcolor⟩]
  rfl

theorem textViewDidChangeSelection_of_white (h : v.textColor = .white) :
    textViewDidChangeSelection v = v := by
  rw [textViewDidChangeSelection, if_neg]
  rintro ⟨-, hcolor⟩
  rw [h] at hcolor
  cases hcolor

/-- Text that is still there is left as it is; a text edited to nothing is replaced by the
placeholder. -/
theorem textViewDidChange_of_white (h : v.textColor = .white) :
    textViewDidChange v =
      if v.text = [] then ⟨placeholder, .lightGray, ⟨0, 0⟩⟩ else v := by
  rw [textViewDidChange, if_neg]
  · simp only [List.length_eq_zero_iff]
    rfl
  · rintro ⟨-, -, hcolor⟩
    rw [h] at hcolor
    cases hcolor

theorem textViewDidEndEditing_of_ne_nil (h : v.text ≠ []) : textViewDidEndEditing v = v :=
  if_neg h

end NewPostController

/-! ## The system of a post -/

namespace NewPostScreen

variable {s s' : NewPostScreen} {system : String} {range : NSRange}

theorem edit_currentSelectedSystem {e : Edit Char} (h : s.edit e = .ok s') :
    s'.controller.currentSelectedSystem = s.controller.currentSelectedSystem := by
  unfold edit at h
  split at h
  split at h
  · obtain ⟨v, -, h⟩ := Except.of_bind_eq_ok h
    cases h
    rfl
  · cases h
    rfl

theorem steps_currentSelectedSystem {e : NewPostEvent} (h : newPostMachine.Steps s e s') :
    s'.controller.currentSelectedSystem = s.controller.currentSelectedSystem := by
  have hok := h.2
  cases e with
  | beginEditing | endEditing | selectionChanged | chooseRank | chooseGameType =>
    cases hok
    rfl
  | insertText text => exact edit_currentSelectedSystem hok
  | deleteBackward count =>
    simp only [newPostMachine, handle] at hok
    split at hok
    · exact edit_currentSelectedSystem hok
    · cases hok
      rfl

/-- The system stays the one the editor was opened for. -/
theorem currentSelectedSystem_of_run {es : List NewPostEvent}
    (hrun : newPostMachine.Run (start system range) es s) :
    s.controller.currentSelectedSystem = system :=
  hrun.invariant (I := fun s => s.controller.currentSelectedSystem = system) rfl
    fun _ _ _ hs hstep => (steps_currentSelectedSystem hstep).trans hs

end NewPostScreen

end RLFinder
