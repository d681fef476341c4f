import RLFinder.NewPostView
import RLFinder.Theory.Simulation
import RLFinder.Verify.Editor
import RLFinder.Verify.SegmentedRuns

/-!
# The choosers choose segments

The post screen with its segmented controls implements the one that simply chooses segments
(`simulates_newPost`): a control chooses when its scroll view comes to rest by itself, its current
segment is always one of the segments, and what is posted is the same (`implements_newPost`). So
once a tap has been the last of each control, what was tapped is posted (`posts_tapped`).
-/

namespace RLFinder

/-- The segment an index stands for. -/
def segmentOf (n : Nat) [NeZero n] (index : Int) : Fin n := Fin.ofNat n index.toNat

theorem elementAt_ok [NeZero n] (elements : Vector α n) {index : Int} (h₀ : 0 ≤ index)
    (h₁ : index < n) : elementAt elements index = .ok (elements.get (segmentOf n index)) := by
  have hlt : index.toNat < n := by omega
  have hindex : segmentOf n index = ⟨index.toNat, hlt⟩ := Fin.ext (Nat.mod_eq_of_lt hlt)
  rw [elementAt, if_neg (by omega), hindex, getElem?_pos elements index.toNat hlt]
  rfl

/-- A tap on a chooser whose point is on no segment. -/
def NewPostViewEvent.Misses (rankLayout : Layout 7) (gameTypeLayout : Layout 4) :
    NewPostViewEvent → Prop
  | text _ => False
  | rankChooser e => e.Misses rankLayout
  | gameTypeChooser e => e.Misses gameTypeLayout

/-! ## The text view does not look at the segments -/

namespace NewPostScreen

variable {s s' : NewPostScreen} {e : NewPostEvent} {rank : Fin 7} {gameType : Fin 4}

def withSegments (s : NewPostScreen) (rank : Fin 7) (gameType : Fin 4) : NewPostScreen :=
  { s with controller := { s.controller with rankSegment := rank, gameTypeSegment := gameType } }

@[simp] theorem withSegments_postBody :
    (s.withSegments rank gameType).controller.postBody = s.controller.postBody := rfl

theorem edit_withSegments {edit : Edit Char} (h : s.edit edit = .ok s') :
    (s.withSegments rank gameType).edit edit = .ok (s'.withSegments rank gameType) := by
  simp only [NewPostScreen.edit, withSegments_postBody] at h ⊢
  split at h
  · rename_i hshould
    obtain ⟨v, hreplace, h⟩ := Except.of_bind_eq_ok h
    cases h
    simp only [hshould, if_true, hreplace]
    rfl
  · rename_i hshould
    cases h
    simp only [hshould]
    rfl

theorem handle_withSegments (htext : e.isText = true) (h : s.handle e = .ok s') :
    (s.withSegments rank gameType).handle e = .ok (s'.withSegments rank gameType) := by
  cases e with
  | beginEditing | endEditing | selectionChanged =>
    cases h
    rfl
  | insertText text => exact edit_withSegments h
  | deleteBackward count =>
    simp only [NewPostScreen.handle, withSegments_postBody] at h ⊢
    split at h
    · exact edit_withSegments h
    · cases h
      rfl
  | chooseRank | chooseGameType => cases htext

theorem enabled_withSegments (h : s.Enabled e) : (s.withSegments rank gameType).Enabled e := by
  cases e <;> exact h

end NewPostScreen

/-! ## The refinement -/

namespace NewPostView

variable {rankLayout : Layout 7} {gameTypeLayout : Layout 4} {v v₀ v' : NewPostView}
  {e : NewPostViewEvent} {es : List NewPostViewEvent} {system : String} {range : NSRange}

/-- The screen that simply chooses segments. -/
def toScreen (v : NewPostView) : NewPostScreen :=
  v.editor.withSegments (segmentOf 7 v.rankChooser.control.currentSegment)
    (segmentOf 4 v.gameTypeChooser.control.currentSegment)

/-- What an event is for the screen that simply chooses segments: movements of the choosers are
nothing until they come to rest. -/
def choices (rankLayout : Layout 7) (gameTypeLayout : Layout 4) (v : NewPostView) :
    NewPostViewEvent → List NewPostEvent
  | .text e => [e]
  | .rankChooser e =>
    (v.rankChooser.chosen rankLayout e).toList.map fun k => .chooseRank (segmentOf 7 k)
  | .gameTypeChooser e =>
    (v.gameTypeChooser.chosen gameTypeLayout e).toList.map fun k => .chooseGameType (segmentOf 4 k)

/-- Both choosers are sound, and the other screen shows the same. -/
structure Implements (rankLayout : Layout 7) (gameTypeLayout : Layout 4) (v : NewPostView)
    (s : NewPostScreen) : Prop where
  screen : s = v.toScreen
  rankChooser : v.rankChooser.Sound rankLayout
  gameTypeChooser : v.gameTypeChooser.Sound gameTypeLayout

theorem simulates_newPost : (newPostViewMachine rankLayout gameTypeLayout).Simulation newPostMachine
    (choices rankLayout gameTypeLayout) (Implements rankLayout gameTypeLayout) := by
  rintro v s e v' ⟨rfl, hrank, hgameType⟩ ⟨hen, hok⟩
  cases e with
  | text e =>
    obtain ⟨htext, hen⟩ := hen
    obtain ⟨editor, hedit, hok⟩ := Except.of_bind_eq_ok hok
    cases hok
    have hedit := Except.of_mapError_eq_ok hedit
    exact ⟨_, .single ⟨NewPostScreen.enabled_withSegments hen,
      NewPostScreen.handle_withSegments htext hedit⟩, rfl, hrank, hgameType⟩
  | rankChooser e =>
    obtain ⟨chooser, hchooser, hok⟩ := Except.of_bind_eq_ok hok
    cases hok
    obtain ⟨hrank', heffect⟩ := hrank.effect ⟨hen, Except.of_mapError_eq_ok hchooser⟩
    have hsegment := heffect.currentSegment
    refine ⟨_, ?_, rfl, hrank', hgameType⟩
    simp only [choices, toScreen, hsegment]
    cases v.rankChooser.chosen rankLayout e with
    | none => exact .nil
    | some k => exact .single ⟨trivial, rfl⟩
  | gameTypeChooser e =>
    obtain ⟨chooser, hchooser, hok⟩ := Except.of_bind_eq_ok hok
    cases hok
    obtain ⟨hgameType', heffect⟩ := hgameType.effect ⟨hen, Except.of_mapError_eq_ok hchooser⟩
    have hsegment := heffect.currentSegment
    refine ⟨_, ?_, rfl, hrank, hgameType'⟩
    simp only [choices, toScreen, hsegment]
    cases v.gameTypeChooser.chosen gameTypeLayout e with
    | none => exact .nil
    | some k => exact .single ⟨trivial, rfl⟩

theorem Implements.postPost {s : NewPostScreen} (h : Implements rankLayout gameTypeLayout v s)
    (key : String) :
    v.postPost key = .ok (s.controller.postPost key) := by
  obtain ⟨rfl, hrank, hgameType⟩ := h
  obtain ⟨hr₀, hr₁⟩ := hrank.control.current
  obtain ⟨hg₀, hg₁⟩ := hgameType.control.current
  have hrankAt := elementAt_ok ranks hr₀ hr₁
  have hgameTypeAt := elementAt_ok gameTypes hg₀ hg₁
  simp only [NewPostView.postPost, hrankAt, hgameTypeAt, bind, Except.bind]
  simp only [NewPostController.postType_eq, NewPostController.postPost,
    NewPostController.chosenRank]
  rfl

/-- An event of a chooser faults the screen where it faults the control. -/
theorem chooser_error_iff {l : Layout n} {s : SegmentedScreen n} {e : SegmentedEvent}
    (h : s.Sound l) (hen : s.Enabled l e) {g : SegmentedScreen n → NewPostView}
    {f : Fault ⊕ ControlFault} :
    ((s.handle l e).mapError .inr >>= fun s => pure (g s)) = .error f ↔
      f = .inr .assertionFailure ∧ e.Misses l := by
  rw [Except.bind_pure_eq_error_iff, Except.mapError_eq_error_iff]
  constructor
  · rintro ⟨f', hfault, rfl⟩
    obtain ⟨rfl, hmiss⟩ := (h.error_iff hen).mp hfault
    exact ⟨rfl, hmiss⟩
  · rintro ⟨rfl, hmiss⟩
    exact ⟨_, (h.error_iff hen).mpr ⟨rfl, hmiss⟩, rfl⟩

/-- An event that may come next faults exactly if it is a tap on no segment. -/
theorem Implements.error_iff {s : NewPostScreen} (h : Implements rankLayout gameTypeLayout v s)
    (hshows : s.ShowsTyped) (hen : v.Enabled rankLayout gameTypeLayout e)
    {f : Fault ⊕ ControlFault} : v.handle rankLayout gameTypeLayout e = .error f ↔
      f = .inr .assertionFailure ∧ e.Misses rankLayout gameTypeLayout := by
  cases e with
  | text e =>
    rw [h.screen] at hshows
    have hshows : v.editor.ShowsTyped := hshows
    obtain ⟨editor, hok, -⟩ := hshows.handle hen.2
    simp only [NewPostView.handle, hok]
    exact ⟨fun hfault => (by cases hfault), fun hmiss => hmiss.2.elim⟩
  | rankChooser e => exact chooser_error_iff h.rankChooser hen
  | gameTypeChooser e => exact chooser_error_iff h.gameTypeChooser hen

/-- The choosers always load. -/
theorem loaded_ok (rankLayout : Layout 7) (gameTypeLayout : Layout 4) (system : String)
    (range : NSRange) : ∃ v, loaded rankLayout gameTypeLayout system range = .ok v := by
  obtain ⟨rank, hrank, -⟩ := SegmentedControl.loaded_ok rankLayout
  obtain ⟨gameType, hgameType, -⟩ := SegmentedControl.loaded_ok gameTypeLayout
  rw [loaded, hrank, hgameType]
  exact ⟨_, rfl⟩

theorem implements_of_loaded (hload : loaded rankLayout gameTypeLayout system range = .ok v) :
    Implements rankLayout gameTypeLayout v (.start system range) := by
  obtain ⟨rank, hrank, hload⟩ := Except.of_bind_eq_ok hload
  obtain ⟨gameType, hgameType, hload⟩ := Except.of_bind_eq_ok hload
  cases hload
  obtain ⟨hrank, hrankSegment, -⟩ := SegmentedScreen.sound_of_loaded hrank
  obtain ⟨hgameType, hgameTypeSegment, -⟩ := SegmentedScreen.sound_of_loaded hgameType
  refine ⟨?_, hrank, hgameType⟩
  rw [toScreen, hrankSegment, hgameTypeSegment]
  rfl

/-! ## Runs -/

theorem run_rankChooser {r r' : SegmentedScreen 7} {es : List SegmentedEvent}
    (hrun : (segmentedMachine rankLayout).Run r es r') :
    (newPostViewMachine rankLayout gameTypeLayout).Run { v with rankChooser := r }
      (es.flatMap fun e => [.rankChooser e]) { v with rankChooser := r' } := by
  refine hrun.project (f := fun r => { v with rankChooser := r }) fun r e r' ⟨hen, hok⟩ => ?_
  refine .single ⟨hen, ?_⟩
  have hok : r.handle rankLayout e = .ok r' := hok
  simp only [newPostViewMachine, handle, hok]
  rfl

theorem run_gameTypeChooser {g g' : SegmentedScreen 4} {es : List SegmentedEvent}
    (hrun : (segmentedMachine gameTypeLayout).Run g es g') :
    (newPostViewMachine rankLayout gameTypeLayout).Run { v with gameTypeChooser := g }
      (es.flatMap fun e => [.gameTypeChooser e]) { v with gameTypeChooser := g' } := by
  refine hrun.project (f := fun g => { v with gameTypeChooser := g }) fun g e g' ⟨hen, hok⟩ => ?_
  refine .single ⟨hen, ?_⟩
  have hok : g.handle gameTypeLayout e = .ok g' := hok
  simp only [newPostViewMachine, handle, hok]
  rfl

/-- Seven segments of fifty points each. -/
def sevenSegments : Layout 7 where
  width := 350
  width_pos := by norm_num
  two_le := by norm_num
  count_le := by norm_num

theorem selectorWidth_sevenSegments : sevenSegments.selectorWidth = 50 := by
  norm_num [Layout.selectorWidth, Layout.selectorViewWidthMultiplier, sevenSegments]

theorem segmentFromTapPoint_sevenSegments : sevenSegments.segmentFromTapPoint 120 = 2 := by
  rw [Layout.segmentFromTapPoint, selectorWidth_sevenSegments]
  exact floorf_eq (by norm_num) (by norm_num) (by norm_num) (by norm_num)

/-- Taps on the third rank and the third game type. -/
def thirdTaps : List NewPostViewEvent := [
  .rankChooser (.tap 120), .rankChooser (.scroll (sevenSegments.offsetFromSegment 2)),
  .rankChooser .endScrollingAnimation, .gameTypeChooser (.tap 200),
  .gameTypeChooser (.scroll (SegmentedScreen.fourSegments.offsetFromSegment 2)),
  .gameTypeChooser .endScrollingAnimation]

theorem exists_thirdTaps : ∃ v₀ v,
    loaded sevenSegments SegmentedScreen.fourSegments "PS4" ⟨0, 0⟩ = .ok v₀ ∧
    (newPostViewMachine sevenSegments SegmentedScreen.fourSegments).Run v₀ thirdTaps v := by
  have hrank := SegmentedScreen.exists_tapped sevenSegments (x := 120)
    (by rw [segmentFromTapPoint_sevenSegments]; norm_num)
    (by rw [segmentFromTapPoint_sevenSegments]; norm_num)
  rw [segmentFromTapPoint_sevenSegments] at hrank
  obtain ⟨r, r', hrank, hrun⟩ := hrank
  obtain ⟨g, g', hgameType, hrun'⟩ := SegmentedScreen.exists_tapped_third
  let v₀ : NewPostView := {
    editor := .start "PS4" ⟨0, 0⟩
    rankChooser := { control := r }
    gameTypeChooser := { control := g } }
  have hfirst : (newPostViewMachine sevenSegments SegmentedScreen.fourSegments).Run v₀ _
      { v₀ with rankChooser := r' } := run_rankChooser (v := v₀) hrun
  have hsecond : (newPostViewMachine sevenSegments SegmentedScreen.fourSegments).Run
      { v₀ with rankChooser := r' } _ _ :=
    run_gameTypeChooser (v := { v₀ with rankChooser := r' }) hrun'
  refine ⟨v₀, _, ?_, hfirst.append hsecond⟩
  rw [loaded, hrank, hgameType]
  rfl

/-- The events the rank chooser sees. -/
def rankEvents : NewPostViewEvent → List SegmentedEvent
  | .rankChooser e => [e]
  | _ => []

/-- The events the game-type chooser sees. -/
def gameTypeEvents : NewPostViewEvent → List SegmentedEvent
  | .gameTypeChooser e => [e]
  | _ => []

theorem rankChooser_of_run (hrun : (newPostViewMachine rankLayout gameTypeLayout).Run v₀ es v) :
    (segmentedMachine rankLayout).Run v₀.rankChooser (es.flatMap rankEvents) v.rankChooser := by
  refine hrun.project (f := rankChooser) fun v e v' ⟨hen, hok⟩ => ?_
  cases e with
  | text | gameTypeChooser =>
    obtain ⟨_, -, hok⟩ := Except.of_bind_eq_ok hok
    cases hok
    exact .nil
  | rankChooser e =>
    obtain ⟨chooser, hchooser, hok⟩ := Except.of_bind_eq_ok hok
    cases hok
    exact .single ⟨hen, Except.of_mapError_eq_ok hchooser⟩

theorem gameTypeChooser_of_run (hrun : (newPostViewMachine rankLayout gameTypeLayout).Run v₀ es v) :
    (segmentedMachine gameTypeLayout).Run v₀.gameTypeChooser (es.flatMap gameTypeEvents)
      v.gameTypeChooser := by
  refine hrun.project (f := gameTypeChooser) fun v e v' ⟨hen, hok⟩ => ?_
  cases e with
  | text | rankChooser =>
    obtain ⟨_, -, hok⟩ := Except.of_bind_eq_ok hok
    cases hok
    exact .nil
  | gameTypeChooser e =>
    obtain ⟨chooser, hchooser, hok⟩ := Except.of_bind_eq_ok hok
    cases hok
    exact .single ⟨hen, Except.of_mapError_eq_ok hchooser⟩

/-- The last a chooser has seen is a tap, whose animation has ended. -/
def EndsWithTap (x : CGFloat) (es : List SegmentedEvent) : Prop :=
  ∃ es₁ es₂, es = es₁ ++ .tap x :: (es₂ ++ [.endScrollingAnimation]) ∧
    .endScrollingAnimation ∉ es₂

theorem EndsWithTap.currentSegment {l : Layout n} {s₀ s : SegmentedScreen n}
    {es : List SegmentedEvent} (h : EndsWithTap x es) (hs : s₀.Sound l)
    (hrun : (segmentedMachine l).Run s₀ es s) :
    s.control.currentSegment = l.segmentFromTapPoint x := by
  obtain ⟨es₁, es₂, rfl, hfirst⟩ := h
  obtain ⟨s₁, hbefore, hrun⟩ := hrun.split
  have hs₁ := hbefore.invariant hs fun _ _ _ hs hstep => (hs.effect hstep).1
  exact (hs₁.lands hrun hfirst).2.2.1

/-- However the choosers are tapped, dragged and interleaved with each other and with the editing of
the text: once a tap has been the last of each, the post goes to the rank and the game type that
were tapped. -/
theorem posts_tapped (hload : loaded rankLayout gameTypeLayout system range = .ok v₀)
    (hrun : (newPostViewMachine rankLayout gameTypeLayout).Run v₀ es v)
    (hrank : EndsWithTap x (es.flatMap rankEvents))
    (hgameType : EndsWithTap y (es.flatMap gameTypeEvents)) (key : String) :
    v.editor.controller.currentSelectedSystem = system ∧
    ∃ rank chosenRank chosenGameType w,
      elementAt ranks (rankLayout.segmentFromTapPoint x) = .ok rank ∧
      rank.postType = some chosenRank ∧
      elementAt gameTypes (gameTypeLayout.segmentFromTapPoint y) = .ok chosenGameType ∧
      v.postPost key = .ok (some w) ∧
      w.path = childByAutoId (v.editor.controller.postPlace chosenGameType chosenRank) key := by
  have hinit := implements_of_loaded hload
  obtain ⟨s, hs, himpl⟩ := simulates_newPost.run hinit hrun
  have hrankSegment := hrank.currentSegment hinit.rankChooser (rankChooser_of_run hrun)
  have hgameTypeSegment :=
    hgameType.currentSegment hinit.gameTypeChooser (gameTypeChooser_of_run hrun)
  obtain ⟨hr₀, hr₁⟩ := himpl.rankChooser.control.current
  obtain ⟨hg₀, hg₁⟩ := himpl.gameTypeChooser.control.current
  have hpost := himpl.postPost key
  rw [NewPostController.postPost_eq] at hpost
  have hsystem := NewPostScreen.currentSelectedSystem_of_run hs
  rw [himpl.screen] at hsystem hpost
  rw [← hrankSegment, ← hgameTypeSegment]
  exact ⟨hsystem, _, _, _, _, elementAt_ok _ hr₀ hr₁, NewPostController.postType_eq _,
    elementAt_ok _ hg₀ hg₁, hpost, rfl⟩

theorem posts_tapped_third : ∃ v₀ v w,
    loaded sevenSegments SegmentedScreen.fourSegments "PS4" ⟨0, 0⟩ = .ok v₀ ∧
    (newPostViewMachine sevenSegments SegmentedScreen.fourSegments).Run v₀ thirdTaps v ∧
    v.postPost "-K1" = .ok (some w) ∧
    w.path = childByAutoId (v.editor.controller.postPlace "standard" "goldPosts") "-K1" := by
  obtain ⟨v₀, v, hload, hrun⟩ := exists_thirdTaps
  obtain ⟨-, rank, chosenRank, chosenGameType, w, hrank, hchosen, hgameType, hpost, hpath⟩ :=
    posts_tapped hload hrun ⟨[], [_], rfl, by simp⟩ ⟨[], [_], rfl, by simp⟩ "-K1"
  rw [segmentFromTapPoint_sevenSegments] at hrank
  rw [SegmentedScreen.segmentFromTapPoint_fourSegments] at hgameType
  cases hrank
  cases hgameType
  cases hchosen
  exact ⟨v₀, v, w, hload, hrun, hpost, hpath⟩

end NewPostView
end RLFinder
