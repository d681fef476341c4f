import RLFinder.TextViewReports
import RLFinder.Theory.Simulation
import RLFinder.Verify.Editor

/-!
# The placeholder editor and the plain buffer

The reports delivered in the middle of the delegate's methods change nothing while the view shows
what has been typed (`reportingHandle_eq`), so `reportingMachine` keeps the relation of
`newPostMachine`. Beside it a plain buffer accepts the very same edits (`buffer_simulation`): they
lie within the buffer and within the text they are applied to.
-/

namespace RLFinder

/-! ## Reports change nothing -/

namespace Reporting
open NewPostController (placeholder placeholder_ne_nil)

variable {v : UITextView} {text : List Char} {range : NSRange}

theorem assignText_nil : v.assignText [] = v.setText [] := by
  rw [UITextView.assignText, NewPostController.textViewDidChangeSelection, if_neg]
  rintro ⟨hshown, -⟩
  exact placeholder_ne_nil hshown.symm

/-- The caret is put at the start whether or not the delegate is told. -/
theorem assignSelectedRange_zero :
    v.assignSelectedRange ⟨0, 0⟩ = { v with selectedRange := ⟨0, 0⟩ } := by
  rw [UITextView.assignSelectedRange, NewPostController.textViewDidChangeSelection]
  split <;> rfl

theorem textViewDidChangeSelection_eq :
    textViewDidChangeSelection v = NewPostController.textViewDidChangeSelection v := by
  rw [textViewDidChangeSelection, assignSelectedRange_zero,
    NewPostController.textViewDidChangeSelection]

theorem textViewDidBeginEditing_eq :
    textViewDidBeginEditing v = NewPostController.textViewDidBeginEditing v :=
  assignSelectedRange_zero

theorem textViewDidChange_eq :
    textViewDidChange v = NewPostController.textViewDidChange v := by
  rw [textViewDidChange, List.take_zero, assignText_nil, assignSelectedRange_zero]
  have hassign : ({ v.assignText placeholder with
      textColor := .lightGray, selectedRange := ⟨0, 0⟩ } : UITextView) =
      { v.setText placeholder with textColor := .lightGray, selectedRange := ⟨0, 0⟩ } := by
    rw [UITextView.assignText, NewPostController.textViewDidChangeSelection]
    split <;> rfl
  rw [hassign]
  rfl

/-- Nothing is assigned when the text is not empty. -/
theorem textViewDidEndEditing_eq (h : v.text ≠ []) :
    textViewDidEndEditing v = NewPostController.textViewDidEndEditing v := by
  rw [textViewDidEndEditing, if_neg h, NewPostController.textViewDidEndEditing_of_ne_nil h]

theorem shouldChangeText_eq :
    shouldChangeText v text = NewPostController.shouldChangeText v text := by
  rw [shouldChangeText, assignText_nil]
  rfl

/-- The clearing branch asks for the placeholder's colour. -/
theorem not_clearsText_of_white (h : v.textColor = .white) : ¬ ClearsText v := by
  rintro ⟨-, -, hcolor⟩
  rw [h] at hcolor
  cases hcolor

end Reporting

namespace NewPostScreen
open NewPostController (placeholder shouldChangeText_of_placeholder shouldChangeText_of_white)

variable {s s' : NewPostScreen} {es : List NewPostEvent} {event : NewPostEvent} {e : Edit Char}
  {system : String} {range : NSRange}

theorem reportingEdit_eq : s.reportingEdit e = s.edit e := by
  simp only [reportingEdit, edit, Reporting.shouldChangeText_eq, Reporting.textViewDidChange_eq,
    Reporting.textViewDidChangeSelection_eq]

theorem reportingHandle_eq (h : s.ShowsTyped) : s.reportingHandle event = s.handle event := by
  cases event with
  | beginEditing => simp only [reportingHandle, handle, Reporting.textViewDidBeginEditing_eq]
  | endEditing =>
    simp only [reportingHandle, handle, Reporting.textViewDidEndEditing_eq h.text_ne_nil]
  | selectionChanged range =>
    simp only [reportingHandle, handle, Reporting.textViewDidChangeSelection_eq]
  | insertText text =>
    cases he : (NewPostEvent.insertText text).edit? s.controller.postBody.selectedRange with
    | none => simp only [reportingHandle, handle, he]
    | some e => simp only [reportingHandle, handle, he, reportingEdit_eq]
  | deleteBackward count =>
    cases he : (NewPostEvent.deleteBackward count).edit? s.controller.postBody.selectedRange with
    | none => simp only [reportingHandle, handle, he]
    | some e => simp only [reportingHandle, handle, he, reportingEdit_eq]
  | chooseRank | chooseGameType => rfl

/-! ## What an edit is applied to -/

/-- The text an edit is applied to contains its range, and is the author's, in white: the delegate
has emptied the placeholder when the first characters are typed. -/
theorem ShowsTyped.offered (h : s.ShowsTyped) (hrange : e.InRange s.typed) (hchanges : e.Changes) :
    e.InRange s.controller.postBody.text ∧
      ∃ v, Reporting.shouldChangeText s.controller.postBody e.replacement = (v, true) ∧
        e.InRange v.text ∧ v.textColor = .white := by
  unfold ShowsTyped at h
  generalize s.typed = typed at h hrange
  rw [Reporting.shouldChangeText_eq]
  cases h with
  | placeholder hshown hcolor =>
    obtain ⟨hlocation, hlength⟩ := Edit.inRange_nil.mp hrange
    have htext : e.replacement ≠ [] := hchanges.resolve_left fun h => h hlength
    refine ⟨?_, _, shouldChangeText_of_placeholder htext hshown hcolor, hrange, rfl⟩
    rw [Edit.InRange, hlocation, hlength]
    exact Nat.zero_le _
  | typed hne hcolor hselected =>
    exact ⟨hrange, _, shouldChangeText_of_white hcolor, hrange, hcolor⟩

/-- An edit applied to the author's text never reaches the clearing branch. -/
theorem not_clearsText_of_replace {v v' : UITextView} (h : v.replace e = .ok v')
    (hcolor : v.textColor = .white) :
    ¬ Reporting.ClearsText (Reporting.textViewDidChangeSelection v') := by
  have hcolor' : v'.textColor = .white := by
    unfold UITextView.replace at h
    split at h <;> cases h
    exact hcolor
  rw [Reporting.textViewDidChangeSelection_eq,
    NewPostController.textViewDidChangeSelection_of_white hcolor']
  exact Reporting.not_clearsText_of_white hcolor'

/-! ## The simulation -/

theorem edit_typed (h : s.edit e = .ok s') : s'.typed = e.apply s.typed := by
  unfold edit at h
  split at h
  split at h
  · obtain ⟨v, -, h⟩ := Except.of_bind_eq_ok h
    cases h
    rfl
  · rename_i v should heq hshould
    unfold NewPostController.shouldChangeText at heq
    split at heq <;> cases heq <;> exact absurd rfl hshould

theorem handle_eq_edit (he : event.edit? s.controller.postBody.selectedRange = some e) :
    s.handle event = s.edit e := by
  cases event with
  | insertText | deleteBackward => simp only [handle, he]
  | beginEditing | endEditing | selectionChanged | chooseRank | chooseGameType => cases he

theorem handle_typed (h : s.handle event = .ok s')
    (he : event.edit? s.controller.postBody.selectedRange = none) : s'.typed = s.typed := by
  cases event with
  | insertText | deleteBackward =>
    simp only [handle, he] at h
    cases h
    rfl
  | beginEditing | endEditing | selectionChanged | chooseRank | chooseGameType =>
    cases h
    rfl

/-- The plain buffer accepts the edits of every event and holds what has been typed. -/
theorem buffer_simulation : reportingMachine.Simulation (Edit.bufferMachine Char Fault) edits
    fun s xs => s.ShowsTyped ∧ s.typed = xs := by
  rintro s xs event s' ⟨hs, rfl⟩ ⟨hen, hstep⟩
  have hok : s.handle event = .ok s' := (reportingHandle_eq hs).symm.trans hstep
  have hs' : s'.ShowsTyped := hs.of_handle hen hok
  unfold edits
  cases he : event.edit? s.controller.postBody.selectedRange with
  | none =>
    refine ⟨_, .nil, hs', handle_typed hok he⟩
  | some e =>
    obtain ⟨hrange, hchanges⟩ := hs.edit_inRange hen he
    rw [handle_eq_edit he] at hok
    exact ⟨_, .single (Edit.bufferMachine_steps hrange hchanges), hs', edit_typed hok⟩

/-! ## Whole runs -/

/-- After every history of events the plain buffer that received the same edits is what the view
shows: an empty buffer as the grey placeholder, with the caret at its start while editing, and any
other as itself in white. Every event that may come next goes through; the range of its edit lies
within the text shown and within the text it is applied to, and the edit does not reach the clearing
branch of `textViewDidChange`. -/
theorem refines_buffer (hrun : reportingMachine.Run (start system range) es s) :
    (Edit.bufferMachine Char Fault).Run []
      (reportingMachine.observations edits (start system range) es) s.typed ∧
    (s.typed = [] ∧ s.controller.postBody.text = placeholder ∧
        s.controller.postBody.textColor = .lightGray ∧
        (s.isEditing = true → s.controller.postBody.selectedRange = ⟨0, 0⟩) ∨
      s.typed ≠ [] ∧ s.controller.postBody.text = s.typed ∧
        s.controller.postBody.textColor = .white) ∧
    ∀ event, s.Enabled event →
      (∃ s', reportingMachine.Steps s event s') ∧
      ∀ e ∈ s.edits event, e.InRange s.controller.postBody.text ∧
        ∃ v, Reporting.shouldChangeText s.controller.postBody e.replacement = (v, true) ∧
          e.InRange v.text ∧
          ∀ v', v.replace e = .ok v' →
            ¬ Reporting.ClearsText (Reporting.textViewDidChangeSelection v') := by
  obtain ⟨xs, hbuffer, hshows, rfl⟩ := buffer_simulation.run ⟨start_showsTyped, rfl⟩ hrun
  refine ⟨hbuffer, ?_, fun event hen => ⟨?_, fun e he => ?_⟩⟩
  · unfold ShowsTyped at hshows
    generalize s.typed = typed at hshows
    cases hshows with
    | placeholder hshown hcolor horigin => exact .inl ⟨rfl, hshown, hcolor, horigin⟩
    | typed hne hcolor _ => exact .inr ⟨hne, rfl, hcolor⟩
  · obtain ⟨s', hok, -⟩ := hshows.handle hen
    exact ⟨s', hen, (reportingHandle_eq hshows).trans hok⟩
  · obtain ⟨hrange, hchanges⟩ := hshows.edit_inRange hen (Option.mem_toList.mp he)
    obtain ⟨hshown, v, hv, hin, hcolor⟩ := hshows.offered hrange hchanges
    exact ⟨hshown, v, hv, hin, fun v' hv' => not_clearsText_of_replace hv' hcolor⟩

/-- The author types two characters and deletes one. -/
theorem refines_buffer_deleteBackward :
    ∃ s, reportingMachine.Run (start "PS4" ⟨12, 0⟩)
      [.beginEditing, .insertText ['L', 'F'], .deleteBackward 1] s ∧
      (Edit.bufferMachine Char Fault).Run [] [⟨0, 0, ['L', 'F']⟩, ⟨1, 1, []⟩] s.typed :=
  have hrun := Machine.Run.of_replay rfl
  ⟨_, hrun, (refines_buffer hrun).1⟩

end NewPostScreen
end RLFinder
