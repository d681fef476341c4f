import RLFinder.Verify.PartnerPostsLemmas

/-!
# The caret of a section

The controller keeps the collapsed flag of a section, the displayed header its caret. A tap flips
the flag and turns the caret only when the tier has posts, and a header created anew shows the caret
of a collapsed section. So the carets tell the truth throughout a run exactly when no empty tier is
tapped and no header of an expanded section is created anew (`caretsTruthful_throughout_iff`).
-/

namespace RLFinder
open PartnerPostsController (viewForHeaderInSection)

/-- The caret points up if and only if the section is expanded. -/
def PartnerPostHeader.Truthful (header : PartnerPostHeader) (isHidden : Bool) : Prop :=
  header.caret = .angleUp ↔ isHidden = false

namespace PostsScreen

variable {s s' : PostsScreen} {e : PostsEvent} {es : List PostsEvent} {i : Fin 7} {hidden : Bool}

/-- The caret of the displayed header of every section tells the truth. -/
def CaretsTruthful (s : PostsScreen) : Prop :=
  ∀ i, (s.controller.postsTable.headers i).Truthful (s.controller.isHidden i)

/-- A tap is on a tier with posts, a header scrolls back into view while its section is collapsed,
and a dictionary is delivered while all sections are. -/
def KeepsCarets (s : PostsScreen) : PostsEvent → Prop
  | .headerTap i => s.controller.posts i ≠ []
  | .headerReappears i => s.controller.isHidden i = true
  | .readCallback _ (.value _ value) =>
    value.asDictionary? ≠ none → ∀ i, s.controller.isHidden i = true
  | _ => True

/-! ## One header -/

/-- A newly created header has the storyboard's caret, which is right for a collapsed section. -/
theorem truthful_viewForHeaderInSection :
    (viewForHeaderInSection i).Truthful hidden ↔ hidden = true := by
  have hcaret : (viewForHeaderInSection i).caret = .angleDown := by fin_cases i <;> rfl
  rw [PartnerPostHeader.Truthful, hcaret]
  cases hidden <;> simp

/-- Flipping the flag alone makes a true caret wrong. -/
theorem not_truthful_not {header : PartnerPostHeader} (h : header.Truthful hidden) :
    ¬ header.Truthful (!hidden) := by
  intro hnot
  have hiff : hidden = false ↔ (!hidden) = false := h.symm.trans hnot
  cases hidden <;> simp at hiff

theorem truthful_turned {header : PartnerPostHeader} :
    ({ header with caret := if hidden then .angleUp else .angleDown } :
      PartnerPostHeader).Truthful (!hidden) := by
  rw [PartnerPostHeader.Truthful]
  cases hidden <;> simp

/-- Replacing one header only matters for its own section. -/
theorem truthful_setHeader {table : UITableView} {isHidden : Fin 7 → Bool}
    {header : PartnerPostHeader} (hothers : ∀ t, t ≠ i → (table.headers t).Truthful (isHidden t)) :
    (∀ t, ((table.setHeader i header).headers t).Truthful (isHidden t)) ↔
      header.Truthful (isHidden i) :=
  (Function.forall_update_iff table.headers fun t header => header.Truthful (isHidden t)).trans
    (and_iff_left hothers)

/-! ## What one event does to the carets -/

theorem start_caretsTruthful : start.CaretsTruthful :=
  fun _ => truthful_viewForHeaderInSection.mpr rfl

theorem keepsCarets_of_issuesRead (h : e.issuesRead = true) : s.KeepsCarets e := by
  cases e with
  | viewDidAppear | dropDownClicked => trivial
  | readCallback | headerTap | cellForRow | headerReappears => cases h

theorem caretsTruthful_readCallback {ticket : Nat} {result : ReadResult}
    {c : PartnerPostsController} (h : s.controller.readCallback result = .ok c)
    (hs : s.CaretsTruthful) :
    (∀ i, (c.postsTable.headers i).Truthful (c.isHidden i)) ↔
      s.KeepsCarets (.readCallback ticket result) := by
  rcases PartnerPostsController.readCallback_cases h with ⟨message, rfl, rfl⟩ |
    ⟨order, value, rfl, hv, rfl⟩ | ⟨order, value, entries, c₁, rfl, hv, hc, rfl⟩
  · exact iff_of_true hs trivial
  · exact iff_of_true hs fun hne => absurd hv hne
  · -- every header is created anew
    have hhidden : c₁.isHidden = s.controller.isHidden :=
      (PartnerPostsController.recordRanks_ok hc).1.isHidden
    have hne : value.asDictionary? ≠ none := by simp [hv]
    rw [KeepsCarets, forall_prop_of_true hne, ← hhidden]
    exact forall_congr' fun i => truthful_viewForHeaderInSection

theorem caretsTruthful_expandPosts {c : PartnerPostsController}
    (h : s.controller.expandPosts i = .ok c) (hs : s.CaretsTruthful) :
    (∀ t, (c.postsTable.headers t).Truthful (c.isHidden t)) ↔ s.KeepsCarets (.headerTap i) := by
  rcases PartnerPostsController.expandPosts_cases h with ⟨hnil, rfl⟩ | ⟨hne, u, -, -, rfl⟩
  · refine iff_of_false (fun h => ?_) fun hne => hne hnil
    have hi := h i
    rw [PartnerPostsController.isHidden_toggle_self] at hi
    exact not_truthful_not (hs i) hi
  · simp only [PartnerPostsController.setCaret]
    refine iff_of_true ((truthful_setHeader fun t ht => ?_).mpr ?_) hne
    · rw [PartnerPostsController.isHidden_toggle_of_ne ht]
      exact hs t
    · rw [PartnerPostsController.isHidden_toggle_self]
      exact truthful_turned

theorem caretsTruthful_headerReappears (hs : s.CaretsTruthful) :
    (∀ t, ((s.controller.postsTable.setHeader i (viewForHeaderInSection i)).headers t).Truthful
      (s.controller.isHidden t)) ↔ s.KeepsCarets (.headerReappears i) :=
  (truthful_setHeader fun t _ => hs t).trans truthful_viewForHeaderInSection

/-- An event keeps the carets true exactly when it turns or creates none wrongly. -/
theorem Effect.caretsTruthful_iff (h : Effect s e s') (hs : s.CaretsTruthful) :
    s'.CaretsTruthful ↔ s.KeepsCarets e := by
  cases h with
  | @issue _ c hissue htable hhidden _ =>
    refine iff_of_true (fun i => ?_) (keepsCarets_of_issuesRead hissue)
    change (c.postsTable.headers i).Truthful (c.isHidden i)
    rw [htable, hhidden]
    exact hs i
  | callback _ hc => exact caretsTruthful_readCallback hc hs
  | tap hc => exact caretsTruthful_expandPosts hc hs
  | cell => exact iff_of_true hs trivial
  | reappear => exact caretsTruthful_headerReappears hs

/-! ## Whole runs -/

/-- The carets tell the truth throughout a run if and only if every tap is on a tier with posts,
every header that scrolls back into view is that of a collapsed section, and every dictionary is
delivered while all sections are collapsed. -/
theorem caretsTruthful_throughout_iff (hrun : postsMachine.Run start es s) :
    postsMachine.Throughout start es CaretsTruthful ↔
      postsMachine.StepsMeet start es KeepsCarets := by
  refine hrun.throughout_iff_stepsMeet start_caretsTruthful ?_ ?_
  · intro s e s' hs hkeeps hstep
    exact ((effect_of_steps hstep).caretsTruthful_iff hs).mpr hkeeps
  · intro s e s' hs hkeeps hstep hs'
    exact hkeeps (((effect_of_steps hstep).caretsTruthful_iff hs).mp hs')

/-- One bronze post is read and its section is expanded. -/
def expanding : List PostsEvent := [.viewDidAppear, .readCallback 0 bronzeRead, .headerTap 0]

theorem caretsTruthful_throughout_iff_expanding :
    postsMachine.Throughout start expanding CaretsTruthful ↔
      postsMachine.StepsMeet start expanding KeepsCarets :=
  caretsTruthful_throughout_iff (.of_replay rfl)

/-- The caret points down over an expanded section once an empty tier is tapped, or the header of an
expanded section scrolls out of view and back. -/
theorem caret_wrong :
    (∃ s, postsMachine.Run start [.headerTap 0] s ∧ ¬ s.CaretsTruthful ∧
      s.controller.isHidden 0 = false ∧
      (s.controller.postsTable.headers 0).caret = .angleDown) ∧
    (∃ s, postsMachine.Run start (expanding ++ [.headerReappears 0]) s ∧ ¬ s.CaretsTruthful ∧
      s.controller.isHidden 0 = false ∧
      (s.controller.postsTable.headers 0).caret = .angleDown) :=
  ⟨⟨_, .of_replay rfl, fun h => (nomatch (h 0).mpr rfl), rfl, rfl⟩,
    ⟨_, .of_replay rfl, fun h => (nomatch (h 0).mpr rfl), rfl, rfl⟩⟩

end PostsScreen
end RLFinder
