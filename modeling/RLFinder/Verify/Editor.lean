import RLFinder.Verify.NewPostLemmas

/-!
# The placeholder editor

The text view and the author's plain buffer are related (`Shows`): an empty buffer is shown as the
grey placeholder, any other as itself in white. Every event keeps the relation (`Shows.handle`), so
what `postPost` reads off the view is what was typed exactly when something was typed.
-/

namespace RLFinder
open NewPostController

/-- How the view shows the author's buffer. -/
inductive Shows (isEditing : Bool) : List Char → UITextView → Prop
  | placeholder {v : UITextView} : v.text = placeholder → v.textColor = .lightGray →
      (isEditing = true → v.selectedRange = ⟨0, 0⟩) → Shows isEditing [] v
  | typed {v : UITextView} : v.text ≠ [] → v.textColor = .white →
      v.selectedRange.location + v.selectedRange.length ≤ v.text.length → Shows isEditing v.text v

namespace Shows

variable {isEditing : Bool} {text : List Char} {v : UITextView} {range : NSRange}

theorem text_ne_nil (h : Shows isEditing text v) : v.text ≠ [] := by
  cases h with
  | placeholder hshown _ _ => exact hshown ▸ placeholder_ne_nil
  | typed hne _ _ => exact hne

theorem beginEditing (h : Shows isEditing text v) :
    Shows true text (textViewDidBeginEditing v) := by
  cases h with
  | placeholder hshown hcolor _ => exact .placeholder hshown hcolor fun _ => rfl
  | typed hne hcolor _ =>
    exact .typed (v := textViewDidBeginEditing v) hne hcolor (Nat.zero_le _)

theorem endEditing (h : Shows isEditing text v) : Shows false text (textViewDidEndEditing v) := by
  rw [textViewDidEndEditing_of_ne_nil h.text_ne_nil]
  cases h with
  | placeholder hshown hcolor _ => exact .placeholder hshown hcolor fun h => by cases h
  | typed hne hcolor hselected => exact .typed hne hcolor hselected

theorem selectionChanged (h : Shows isEditing text v)
    (hrange : range.location + range.length ≤ v.text.length) :
    Shows isEditing text (textViewDidChangeSelection { v with selectedRange := range }) := by
  cases h with
  | placeholder hshown hcolor _ =>
    rw [textViewDidChangeSelection, if_pos ⟨hshown, hcolor⟩]
    exact .placeholder hshown hcolor fun _ => rfl
  | typed hne hcolor _ =>
    rw [textViewDidChangeSelection_of_white (v := { v with selectedRange := range }) hcolor]
    exact .typed (v := { v with selectedRange := range }) hne hcolor hrange

end Shows

namespace NewPostScreen

variable {s s' : NewPostScreen} {es : List NewPostEvent} {system : String} {range : NSRange}

/-- The view shows what has been typed. -/
def ShowsTyped (s : NewPostScreen) : Prop := Shows s.isEditing s.typed s.controller.postBody

theorem start_showsTyped : (start system range).ShowsTyped :=
  .placeholder rfl rfl fun h => by cases h

/-! ## Edits -/

/-- The first edit over the placeholder: the view ends up with what it inserts, in white. -/
theorem edit_placeholder {text : List Char} (htext : text ≠ [])
    (hshown : s.controller.postBody.text = placeholder)
    (hcolor : s.controller.postBody.textColor = .lightGray) :
    s.edit ⟨0, 0, text⟩ = .ok { s.withView ⟨text, .white, ⟨text.length, 0⟩⟩ with
      typed := Edit.apply ⟨0, 0, text⟩ s.typed } := by
  have hreplace : UITextView.replace ⟨[], .white, ⟨0, 0⟩⟩ ⟨0, 0, text⟩ =
      .ok ⟨text, .white, ⟨text.length, 0⟩⟩ := by
    simp [UITextView.replace, Edit.InRange]
  rw [edit, shouldChangeText_of_placeholder htext hshown hcolor]
  simp only [if_true, hreplace]
  change Except.ok _ = Except.ok _
  rw [textViewDidChangeSelection_of_white rfl, textViewDidChange_of_white rfl, if_neg htext]

/-- An edit within the author's text: the view is edited like the buffer, unless nothing is left. -/
theorem edit_white {e : Edit Char} (hrange : e.InRange s.controller.postBody.text)
    (hcolor : s.controller.postBody.textColor = .white) :
    s.edit e = .ok { s.withView
      (if e.apply s.controller.postBody.text = [] then ⟨placeholder, .lightGray, ⟨0, 0⟩⟩
        else ⟨e.apply s.controller.postBody.text, .white,
          ⟨e.location + e.replacement.length, 0⟩⟩) with
      typed := e.apply s.typed } := by
  have hreplace : s.controller.postBody.replace e = .ok ⟨e.apply s.controller.postBody.text, .white,
      ⟨e.location + e.replacement.length, 0⟩⟩ := by
    rw [UITextView.replace, if_pos hrange, hcolor]
  rw [edit, shouldChangeText_of_white hcolor]
  simp only [if_true, hreplace]
  change Except.ok _ = Except.ok _
  rw [textViewDidChangeSelection_of_white rfl, textViewDidChange_of_white rfl]

/-- An edit within the author's buffer goes through and keeps the relation. -/
theorem ShowsTyped.edit (h : s.ShowsTyped) {e : Edit Char} (hrange : e.InRange s.typed)
    (hchanges : e.Changes) : ∃ s', s.edit e = .ok s' ∧ s'.ShowsTyped := by
  unfold ShowsTyped at h
  generalize htyped : s.typed = typed at h hrange
  cases h with
  | placeholder hshown hcolor =>
    obtain ⟨location, length, text⟩ := e
    obtain ⟨rfl, rfl⟩ := Edit.inRange_nil.mp hrange
    have htext : text ≠ [] := hchanges.resolve_left fun h => h rfl
    refine ⟨_, edit_placeholder htext hshown hcolor, ?_⟩
    simp only [ShowsTyped, htyped, Edit.apply_nil]
    exact .typed (v := ⟨text, .white, ⟨text.length, 0⟩⟩) htext rfl (Nat.le_refl _)
  | typed hne hcolor hselected =>
    refine ⟨_, edit_white hrange hcolor, ?_⟩
    simp only [ShowsTyped, htyped]
    split
    · rename_i hnil
      rw [hnil]
      exact .placeholder rfl rfl fun _ => rfl
    · rename_i hne
      exact .typed (v := ⟨e.apply s.controller.postBody.text, .white, _⟩) hne rfl
        (Edit.caret_le_length_apply hrange)

/-- While editing, the selection lies within the author's buffer: over the placeholder the caret is
kept at its start. -/
theorem ShowsTyped.selected (h : s.ShowsTyped) (hediting : s.isEditing = true) :
    s.controller.postBody.selectedRange.location + s.controller.postBody.selectedRange.length ≤
      s.typed.length := by
  unfold ShowsTyped at h
  generalize s.typed = typed at h
  cases h with
  | placeholder _ _ horigin =>
    rw [horigin hediting]
    exact Nat.le_refl _
  | typed _ _ hselected => exact hselected

theorem ShowsTyped.edit_inRange (h : s.ShowsTyped) {event : NewPostEvent} {e : Edit Char}
    (hen : s.Enabled event) (he : event.edit? s.controller.postBody.selectedRange = some e) :
    e.InRange s.typed ∧ e.Changes := by
  cases event with
  | insertText text =>
    cases he
    exact ⟨h.selected hen.1, hen.2⟩
  | deleteBackward count =>
    have hselected := h.selected hen.1
    simp only [NewPostEvent.edit?] at he
    split at he
    · rename_i hlength
      cases he
      exact ⟨hselected, .inl hlength⟩
    · rename_i hlength
      obtain ⟨hpos, hle⟩ := hen.2.resolve_left hlength
      cases he
      refine ⟨?_, .inl (Nat.ne_of_gt hpos)⟩
      simp only [Edit.InRange]
      omega
  | beginEditing | endEditing | selectionChanged | chooseRank | chooseGameType => cases he

/-! ## Events -/

/-- Every event goes through and keeps the relation. -/
theorem ShowsTyped.handle (h : s.ShowsTyped) {event : NewPostEvent} (hen : s.Enabled event) :
    ∃ s', s.handle event = .ok s' ∧ s'.ShowsTyped := by
  cases event with
  | beginEditing => exact ⟨_, rfl, h.beginEditing⟩
  | endEditing => exact ⟨_, rfl, h.endEditing⟩
  | selectionChanged range => exact ⟨_, rfl, h.selectionChanged hen⟩
  | insertText text =>
    obtain ⟨hrange, hchanges⟩ := h.edit_inRange hen rfl
    exact h.edit hrange hchanges
  | deleteBackward count =>
    simp only [NewPostScreen.handle]
    split
    · rename_i e he
      obtain ⟨hrange, hchanges⟩ := h.edit_inRange hen he
      exact h.edit hrange hchanges
    · exact ⟨s, rfl, h⟩
  | chooseRank segment => exact ⟨_, rfl, h⟩
  | chooseGameType segment => exact ⟨_, rfl, h⟩

theorem ShowsTyped.of_handle (h : s.ShowsTyped) {event : NewPostEvent} (hen : s.Enabled event)
    (hok : s.handle event = .ok s') : s'.ShowsTyped := by
  obtain ⟨t, ht, hshows⟩ := h.handle hen
  cases ht.symm.trans hok
  exact hshows

theorem showsTyped_of_run (hrun : newPostMachine.Run (start system range) es s) : s.ShowsTyped :=
  hrun.invariant start_showsTyped fun _ _ _ hs hstep => hs.of_handle hstep.1 hstep.2

/-! ## The post -/

/-- At any point of any history of events, `postPost` writes as `postBody` what the author has typed
if and only if that is not empty. -/
theorem postBody_eq_typed_iff (hrun : newPostMachine.Run (start system range) es s) (key : String) :
    (∃ w, s.controller.postPost key = some w ∧
      KeyTree.get (some w.value) ["postBody"] = some (.leaf (.string (String.ofList s.typed)))) ↔
    s.typed ≠ [] := by
  have hshows := showsTyped_of_run hrun
  unfold ShowsTyped at hshows
  rw [postPost_eq]
  simp only [Option.some.injEq, exists_eq_left', get_postBody_postWrite, KeyTree.leaf.injEq,
    Leaf.string.injEq, String.ofList_inj]
  generalize s.typed = typed at hshows
  cases hshows with
  | placeholder hshown _ _ => simp [hshown, placeholder_ne_nil]
  | typed hne _ _ => simpa using hne

theorem postBody_eq_typed_iff_insertText :
    ∃ s, newPostMachine.Run (start "PS4" ⟨0, 0⟩)
      [.beginEditing, .insertText ['L', 'F', ' ', '2', 's']] s ∧
      ∃ w, s.controller.postPost "-K1" = some w ∧
        KeyTree.get (some w.value) ["postBody"] = some (.leaf (.string (String.ofList s.typed))) :=
  have hrun := Machine.Run.of_replay rfl
  ⟨_, hrun, (postBody_eq_typed_iff hrun "-K1").mpr (by decide)⟩

/-- The author types one character and deletes it again: the placeholder is posted. -/
theorem placeholder_posted :
    ∃ s, newPostMachine.Run (start "PS4" ⟨0, 0⟩)
      [.beginEditing, .insertText ['L'], .deleteBackward 1, .endEditing] s ∧ s.typed = [] ∧
      ∃ w, s.controller.postPost "-K1" = some w ∧
        KeyTree.get (some w.value) ["postBody"] = some (.leaf (.string "Body of post")) :=
  ⟨_, .of_replay rfl, rfl, _, rfl, rfl⟩

end NewPostScreen
end RLFinder
