import RLFinder.Verify.SegmentedControlLemmas

/-!
# Tapping and dragging

Whatever its user does, the control keeps a current segment it has, and the one event that faults is
a tap that `Float` rounds to no segment (`faults_iff_misses`). Its segments are lit by how close the
selector is to each (`fade_of_run`). A tap whose animation ends selects the segment under it
(`tap_selects`); one on the segment the selector lies on starts no animation, and the control takes
no touches again (`usable_throughout_iff`). A drag may stop on a segment without decelerating, and
that the control does not notice: the selector rests on the current segment exactly in the runs
without such a stop on another one (`rests_throughout_iff`).
-/

namespace RLFinder

def Motion.isAnimating : Motion → Bool
  | animating _ => true
  | _ => false

/-- A tap whose point is on no segment. -/
def SegmentedEvent.Misses (l : Layout n) : SegmentedEvent → Prop
  | tap x => ¬ (0 ≤ l.segmentFromTapPoint x ∧ l.segmentFromTapPoint x < n)
  | _ => False

/-- Where the scroll view is moving to by itself. -/
def Motion.target? : Motion → Option CGFloat
  | decelerating target | animating target => some target
  | _ => none

namespace SegmentedScreen

/-- The control is sound, disabled while it animates, and moves to segments only. -/
structure Sound (l : Layout n) (s : SegmentedScreen n) : Prop where
  control : s.control.Sound l
  interaction : s.motion.isAnimating = true → s.control.isUserInteractionEnabled = false
  target : ∀ t ∈ s.motion.target?, ∃ k : Int, 0 ≤ k ∧ k < n ∧ t = l.offsetFromSegment k

/-- The scroll view has come to rest where it was moving to, on what is now the current segment. -/
structure CameToRest (l : Layout n) (s : SegmentedScreen n) (c : SegmentedControl n) : Prop where
  target : s.motion.target? = some s.control.contentOffset
  offset : c.contentOffset = s.control.contentOffset
  current : c.contentOffset = l.offsetFromSegment c.currentSegment
  index : 0 ≤ c.currentSegment ∧ c.currentSegment < n

/-- What an event does to a sound screen. -/
inductive Effect (l : Layout n) (s : SegmentedScreen n) :
    SegmentedEvent → SegmentedScreen n → Prop
  | tap : 0 ≤ l.segmentFromTapPoint x → l.segmentFromTapPoint x < n →
      l.offsetFromSegment (l.segmentFromTapPoint x) ≠ s.control.contentOffset →
      Effect l s (.tap x)
        { control := { s.control with isUserInteractionEnabled := false }
          motion := .animating (l.offsetFromSegment (l.segmentFromTapPoint x)) }
  | tapAtSelector : l.offsetFromSegment (l.segmentFromTapPoint x) = s.control.contentOffset →
      Effect l s (.tap x)
        { s with control := { s.control with isUserInteractionEnabled := false } }
  | beginDragging : Effect l s .beginDragging { s with motion := .dragging }
  | scroll {c : SegmentedControl n} : s.motion ≠ .idle →
      c.currentSegment = s.control.currentSegment → c.contentOffset = offset →
      c.isUserInteractionEnabled = s.control.isUserInteractionEnabled →
      Effect l s (.scroll offset) { s with control := c }
  | endDragging : Effect l s (.endDragging t true)
      { s with motion := .decelerating (l.offsetFromSegment (l.segmentFromOffset t)) }
  | stop {k : Int} : 0 ≤ k → k < n → s.control.contentOffset = l.offsetFromSegment k →
      Effect l s (.endDragging t false) { s with motion := .idle }
  | endDecelerating : CameToRest l s c →
      c.isUserInteractionEnabled = s.control.isUserInteractionEnabled →
      Effect l s .endDecelerating { control := c, motion := .idle }
  | endScrollingAnimation : CameToRest l s c → c.isUserInteractionEnabled = true →
      Effect l s .endScrollingAnimation { control := c, motion := .idle }

/-- The segment an event makes the current one, if any. -/
def chosen (l : Layout n) (s : SegmentedScreen n) : SegmentedEvent → Option Int
  | .endDecelerating | .endScrollingAnimation => some (l.segmentFromOffset s.control.contentOffset)
  | _ => none

variable {n : Nat} {l : Layout n} {s s' : SegmentedScreen n} {e : SegmentedEvent}
  {es : List SegmentedEvent} {c : SegmentedControl n} {x : CGFloat}

theorem CameToRest.currentSegment (h : CameToRest l s c) :
    c.currentSegment = l.segmentFromOffset s.control.contentOffset := by
  rw [← h.offset, h.current, Layout.segmentFromOffset_offsetFromSegment h.index.1 h.index.2]

theorem Effect.currentSegment (h : Effect l s e s') :
    s'.control.currentSegment = (s.chosen l e).getD s.control.currentSegment := by
  cases h with
  | tap | tapAtSelector | beginDragging | endDragging | stop => rfl
  | scroll _ hsegment => exact hsegment
  | endDecelerating hrest | endScrollingAnimation hrest => exact hrest.currentSegment

theorem Sound.of_control {motion : Motion} (h : c.Sound l) (htarget : motion.target? = none) :
    Sound l { control := c, motion } := by
  refine ⟨h, fun hanimating => ?_, fun t ht => ?_⟩
  · cases motion with
    | idle | dragging | decelerating => cases hanimating
    | animating => cases htarget
  · rw [htarget] at ht
    cases ht

theorem handle_of_misses (h : e.Misses l) : s.handle l e = .error .assertionFailure := by
  cases e with
  | tap x =>
    rw [SegmentedScreen.handle, SegmentedControl.tapWasRecognized_error h]
    rfl
  | beginDragging | scroll | endDragging | endDecelerating | endScrollingAnimation => cases h

/-- Every event that may come next goes through, unless it is a tap on no segment. -/
theorem Sound.handle (h : s.Sound l) (hen : s.Enabled l e) (hmiss : ¬ e.Misses l) :
    ∃ s', s.handle l e = .ok s' ∧ s'.Sound l ∧ Effect l s e s' := by
  cases e with
  | tap x =>
    have hindex := not_not.mp hmiss
    have hcontrol := h.control.setInteraction false
    have hok : s.handle l (.tap x) = .ok (scrollAnimated
        { s with control := { s.control with isUserInteractionEnabled := false } }
        (some (l.offsetFromSegment (l.segmentFromTapPoint x)))) := by
      rw [SegmentedScreen.handle, SegmentedControl.tapWasRecognized_ok hindex]
      rfl
    by_cases hat : l.offsetFromSegment (l.segmentFromTapPoint x) = s.control.contentOffset
    · rw [scrollAnimated, if_pos hat] at hok
      exact ⟨_, hok, ⟨hcontrol, fun _ => rfl, h.target⟩, .tapAtSelector hat⟩
    · rw [scrollAnimated, if_neg hat] at hok
      refine ⟨_, hok, ⟨hcontrol, fun _ => rfl, ?_⟩, .tap hindex.1 hindex.2 hat⟩
      rintro t ⟨⟩
      exact ⟨_, hindex.1, hindex.2, rfl⟩
  | beginDragging => exact ⟨_, rfl, .of_control h.control rfl, .beginDragging⟩
  | scroll offset =>
    obtain ⟨c, hok, hsound, hsegment, hoffset, henabled⟩ :=
      SegmentedControl.setContentOffset_ok (o := offset) h.control.toConsistent fun _ => h.control
    refine ⟨{ s with control := c }, ?_,
      ⟨hsound, fun hanimating => henabled.trans (h.interaction hanimating), h.target⟩,
      .scroll hen hsegment hoffset henabled⟩
    rw [SegmentedScreen.handle, hok]
    rfl
  | endDragging t willDecelerate =>
    obtain ⟨-, h₀, h₁, hstop⟩ := hen
    obtain ⟨hlow, hhigh⟩ := l.segmentFromOffset_mem h₀ h₁
    cases willDecelerate with
    | true =>
      refine ⟨_, ?_, ?_, .endDragging⟩
      · rw [← Layout.nearestSegmentOffset_eq]
        rfl
      · refine ⟨h.control, ?_, ?_⟩
        · rintro ⟨⟩
        · rintro t' ⟨⟩
          exact ⟨_, hlow, hhigh, rfl⟩
    | false =>
      rw [Layout.nearestSegmentOffset_eq] at hstop
      exact ⟨_, rfl, .of_control h.control rfl, .stop hlow hhigh (hstop rfl)⟩
  | endDecelerating =>
    have htarget : s.motion.target? = some s.control.contentOffset := by rw [hen]; rfl
    obtain ⟨k, h₀, h₁, hk⟩ := h.target _ htarget
    obtain ⟨c, hok, hsound, hsegment, hoffset, henabled⟩ :=
      SegmentedControl.scrollViewDidEndDecelerating_ok h.control h₀ h₁ hk
    refine ⟨{ control := c, motion := .idle }, ?_, .of_control hsound rfl,
      .endDecelerating ⟨htarget, hoffset, ?_, hsound.current⟩ henabled⟩
    · rw [SegmentedScreen.handle, hok]
      rfl
    · rw [hoffset, hsegment, hk]
  | endScrollingAnimation =>
    have htarget : s.motion.target? = some s.control.contentOffset := by rw [hen]; rfl
    obtain ⟨k, h₀, h₁, hk⟩ := h.target _ htarget
    obtain ⟨c, hok, hsound, hsegment, hoffset, henabled⟩ :=
      SegmentedControl.scrollViewDidEndScrollingAnimation_ok h.control h₀ h₁ hk
    refine ⟨{ control := c, motion := .idle }, ?_, .of_control hsound rfl,
      .endScrollingAnimation ⟨htarget, hoffset, ?_, hsound.current⟩ henabled⟩
    · rw [SegmentedScreen.handle, hok]
      rfl
    · rw [hoffset, hsegment, hk]

theorem Sound.steps (h : s.Sound l) (hen : s.Enabled l e) (hmiss : ¬ e.Misses l) :
    ∃ s', (segmentedMachine l).Steps s e s' ∧ s'.Sound l ∧ Effect l s e s' := by
  obtain ⟨s', hok, hsound, heffect⟩ := h.handle hen hmiss
  exact ⟨s', ⟨hen, hok⟩, hsound, heffect⟩

theorem Sound.effect (h : s.Sound l) (hstep : (segmentedMachine l).Steps s e s') :
    s'.Sound l ∧ Effect l s e s' := by
  have hmiss : ¬ e.Misses l := fun hmiss => by cases (handle_of_misses hmiss).symm.trans hstep.2
  obtain ⟨t, hok, hsound, heffect⟩ := h.handle hstep.1 hmiss
  cases hok.symm.trans hstep.2
  exact ⟨hsound, heffect⟩

theorem Sound.error_iff (h : s.Sound l) (hen : s.Enabled l e) {f : ControlFault} :
    s.handle l e = .error f ↔ f = .assertionFailure ∧ e.Misses l := by
  constructor
  · intro hfault
    by_cases hmiss : e.Misses l
    · exact ⟨Except.error.inj (hfault.symm.trans (handle_of_misses hmiss)), hmiss⟩
    · obtain ⟨s', hok, -⟩ := h.handle hen hmiss
      cases hok.symm.trans hfault
  · rintro ⟨rfl, hmiss⟩
    exact handle_of_misses hmiss

/-! ## Runs -/

theorem sound_of_loaded (hload : SegmentedControl.loaded l = .ok c) :
    Sound l { control := c } ∧ c.currentSegment = 0 ∧ c.contentOffset = l.offsetFromSegment 0 := by
  obtain ⟨c', hok, hsound, hsegment, hoffset, henabled⟩ := SegmentedControl.loaded_ok l
  cases hload.symm.trans hok
  exact ⟨.of_control hsound rfl, hsegment, hoffset⟩

theorem sound_of_run (hload : SegmentedControl.loaded l = .ok c)
    (hrun : (segmentedMachine l).Run { control := c } es s) : s.Sound l :=
  hrun.invariant (sound_of_loaded hload).1 fun _ _ _ hs hstep => (hs.effect hstep).1

/-- A loaded control can be tapped on every segment but its first. -/
theorem exists_tapped (l : Layout n) (h₀ : 0 < l.segmentFromTapPoint x)
    (h₁ : l.segmentFromTapPoint x < n) :
    ∃ c s, SegmentedControl.loaded l = .ok c ∧ (segmentedMachine l).Run { control := c }
      [.tap x, .scroll (l.offsetFromSegment (l.segmentFromTapPoint x)), .endScrollingAnimation]
      s := by
  obtain ⟨c, hload, -, -, hoffset, henabled⟩ := SegmentedControl.loaded_ok l
  obtain ⟨s₁, hstep₁, hs₁, heffect₁⟩ := (sound_of_loaded hload).1.steps (e := .tap x)
    ⟨henabled, .inl rfl⟩ (not_not_intro ⟨h₀.le, h₁⟩)
  cases heffect₁ with
  | tapAtSelector hat => exact absurd (Layout.offsetFromSegment_injective (hat.trans hoffset)) h₀.ne'
  | tap =>
    obtain ⟨s₂, hstep₂, hs₂, heffect₂⟩ := hs₁.steps
      (e := .scroll (l.offsetFromSegment (l.segmentFromTapPoint x))) (by rintro ⟨⟩) id
    cases heffect₂ with
    | scroll _ _ hoffset₂ =>
      obtain ⟨s₃, hstep₃, -⟩ := hs₂.steps (e := .endScrollingAnimation)
        (congrArg Motion.animating hoffset₂.symm) id
      exact ⟨c, s₃, hload, .cons hstep₁ (.cons hstep₂ (.single hstep₃))⟩

/-- A loaded control can be dragged to a segment and let go there. -/
theorem exists_dragged (l : Layout n) {k : Int} (h₀ : 0 ≤ k) (h₁ : k < n) :
    ∃ c s, SegmentedControl.loaded l = .ok c ∧ (segmentedMachine l).Run { control := c }
      [.beginDragging, .scroll (l.offsetFromSegment k), .endDragging (l.offsetFromSegment k) false]
      s ∧ s.motion = .idle ∧ s.control.currentSegment = 0 ∧
      s.control.contentOffset = l.offsetFromSegment k := by
  obtain ⟨c, hload, -, hsegment, -, henabled⟩ := SegmentedControl.loaded_ok l
  obtain ⟨hlow, hhigh⟩ := l.offsetFromSegment_mem h₀ h₁
  obtain ⟨s₁, hstep₁, hs₁, heffect₁⟩ := (sound_of_loaded hload).1.steps (e := .beginDragging)
    ⟨henabled, .inl rfl⟩ id
  cases heffect₁ with
  | beginDragging =>
    obtain ⟨s₂, hstep₂, hs₂, heffect₂⟩ := hs₁.steps (e := .scroll (l.offsetFromSegment k))
      (by rintro ⟨⟩) id
    cases heffect₂ with
    | scroll _ hsegment₂ hoffset₂ =>
      obtain ⟨s₃, hstep₃, -, heffect₃⟩ := hs₂.steps
        (e := .endDragging (l.offsetFromSegment k) false) ⟨rfl, hlow, hhigh, fun _ => by
          rw [Layout.nearestSegmentOffset_eq, Layout.segmentFromOffset_offsetFromSegment h₀ h₁]
          exact hoffset₂⟩ id
      cases heffect₃ with
      | stop =>
        exact ⟨c, _, hload, .cons hstep₁ (.cons hstep₂ (.single hstep₃)), rfl,
          hsegment₂.trans hsegment, hoffset₂⟩

/-- Four segments of eighty points each. -/
def fourSegments : Layout 4 where
  width := 320
  width_pos := by norm_num
  two_le := by norm_num
  count_le := by norm_num

theorem selectorWidth_fourSegments : fourSegments.selectorWidth = 80 := by
  norm_num [Layout.selectorWidth, Layout.selectorViewWidthMultiplier, fourSegments]

theorem segmentFromTapPoint_fourSegments : fourSegments.segmentFromTapPoint 200 = 2 := by
  rw [Layout.segmentFromTapPoint, selectorWidth_fourSegments]
  exact floorf_eq (by norm_num) (by norm_num) (by norm_num) (by norm_num)

/-- A tap on the third of the four segments. -/
theorem exists_tapped_third : ∃ c s, SegmentedControl.loaded fourSegments = .ok c ∧
    (segmentedMachine fourSegments).Run { control := c }
      [.tap 200, .scroll (fourSegments.offsetFromSegment 2), .endScrollingAnimation] s := by
  rw [← segmentFromTapPoint_fourSegments]
  refine exists_tapped fourSegments ?_ ?_
  · rw [segmentFromTapPoint_fourSegments]
    norm_num
  · rw [segmentFromTapPoint_fourSegments]
    norm_num

/-- Each segment is selected to the degree that the selector is over it, where `Float` takes the
selector to be; within the content that is where it is up to rounding, and these degrees add up to
one. -/
theorem fade_of_run (hload : SegmentedControl.loaded l = .ok c)
    (hrun : (segmentedMachine l).Run { control := c } es s) :
    (∀ i : Fin n,
      (s.control.views i).selectedAlpha =
        max 0 (1 - |l.shownPercent s.control.contentOffset - (i : Nat)|) ∧
      (s.control.views i).segmentAlpha = 1 - (s.control.views i).selectedAlpha) ∧
    (0 ≤ s.control.contentOffset ∧ s.control.contentOffset ≤ l.leftSpacerWidth →
      |l.shownPercent s.control.contentOffset - l.percentFromOffset s.control.contentOffset| ≤
        n / 2 ^ 24 ∧
      ∑ i : Fin n, (s.control.views i).selectedAlpha = 1) := by
  have hviews := (sound_of_run hload hrun).control.views
  refine ⟨fun i => ?_, fun ⟨h₀, h₁⟩ => ⟨Layout.abs_shownPercent_sub_le h₀ h₁, ?_⟩⟩
  · rw [hviews]
    exact ⟨rfl, rfl⟩
  · obtain ⟨hlow, hhigh⟩ := Layout.shownPercent_mem h₀ h₁
    obtain ⟨m, rfl⟩ : ∃ m, n = m + 1 := ⟨n - 1, by have := l.two_le; omega⟩
    simp only [hviews, SegmentedControl.faded]
    refine sum_hat hlow ?_
    push_cast at hhigh
    linarith

theorem fade_of_run_third : ∃ c s, SegmentedControl.loaded fourSegments = .ok c ∧
    (segmentedMachine fourSegments).Run { control := c }
      [.tap 200, .scroll (fourSegments.offsetFromSegment 2), .endScrollingAnimation] s ∧
    ∀ i, (s.control.views i).segmentAlpha = 1 - (s.control.views i).selectedAlpha := by
  obtain ⟨c, s, hload, hrun⟩ := exists_tapped_third
  exact ⟨c, s, hload, hrun, fun i => ((fade_of_run hload hrun).1 i).2⟩

/-! ## Resting -/

/-- At rest the selector is over the current segment. -/
def Rests (l : Layout n) (s : SegmentedScreen n) : Prop :=
  s.motion = .idle → s.control.contentOffset = l.offsetFromSegment s.control.currentSegment

/-- A drag that does not decelerate ends where it began. -/
def StopsAtCurrent (l : Layout n) (s : SegmentedScreen n) : SegmentedEvent → Prop
  | .endDragging _ false => l.segmentFromOffset s.control.contentOffset = s.control.currentSegment
  | _ => True

/-- The selector rests on the current segment all along exactly in the runs where no drag stops on
another segment without decelerating. -/
theorem rests_throughout_iff (hload : SegmentedControl.loaded l = .ok c)
    (hrun : (segmentedMachine l).Run { control := c } es s) :
    (segmentedMachine l).Throughout { control := c } es (Rests l) ↔
      (segmentedMachine l).StepsMeet { control := c } es (StopsAtCurrent l) := by
  obtain ⟨hsound, hsegment, hoffset⟩ := sound_of_loaded hload
  have h₀ : Rests l { control := c } := fun _ => by rw [hsegment, hoffset]
  refine hrun.throughout_iff_of_invariant hsound
    (fun _ _ _ hs hstep => (hs.effect hstep).1) h₀ ?_ ?_
  · intro s e s' hs hrests hstops hstep
    obtain ⟨-, heffect⟩ := hs.effect hstep
    cases heffect with
    | tap | beginDragging | endDragging => rintro ⟨⟩
    | tapAtSelector => exact hrests
    | scroll hmoving => exact fun hidle => absurd hidle hmoving
    | stop hlow hhigh hstop =>
      have hk : l.segmentFromOffset s.control.contentOffset = s.control.currentSegment := hstops
      rw [hstop, Layout.segmentFromOffset_offsetFromSegment hlow hhigh] at hk
      intro _
      rw [← hk]
      exact hstop
    | endDecelerating hrest | endScrollingAnimation hrest => exact fun _ => hrest.current
  · intro s e s' hs hrests hstops hstep hrests'
    obtain ⟨hs', heffect⟩ := hs.effect hstep
    cases heffect with
    | tap | tapAtSelector | beginDragging | endDragging | scroll | endDecelerating
      | endScrollingAnimation => exact hstops trivial
    | stop =>
      refine hstops ?_
      obtain ⟨hlow, hhigh⟩ := hs'.control.current
      rw [StopsAtCurrent, hrests' rfl, Layout.segmentFromOffset_offsetFromSegment hlow hhigh]

/-- A drag to the third segment that stops there leaves the first one current. -/
theorem rests_throughout_iff_third : ∃ c s, SegmentedControl.loaded fourSegments = .ok c ∧
    (segmentedMachine fourSegments).Run { control := c } [.beginDragging,
      .scroll (fourSegments.offsetFromSegment 2),
      .endDragging (fourSegments.offsetFromSegment 2) false] s ∧
    ¬ (segmentedMachine fourSegments).StepsMeet { control := c } [.beginDragging,
      .scroll (fourSegments.offsetFromSegment 2),
      .endDragging (fourSegments.offsetFromSegment 2) false] (StopsAtCurrent fourSegments) := by
  obtain ⟨c, s, hload, hrun, hidle, hsegment, hoffset⟩ :=
    exists_dragged fourSegments (k := 2) (by norm_num) (by norm_num)
  refine ⟨c, s, hload, hrun, fun hstops => ?_⟩
  have hrests := ((rests_throughout_iff hload hrun).mpr hstops).last hrun hidle
  rw [hoffset, hsegment] at hrests
  cases Layout.offsetFromSegment_injective hrests

/-! ## Tapping -/

/-- While the scroll view animates towards the tapped segment. -/
structure Tapped (l : Layout n) (k : Int) (s : SegmentedScreen n) : Prop where
  motion : s.motion = .animating (l.offsetFromSegment k)
  disabled : s.control.isUserInteractionEnabled = false

theorem Tapped.step (hs : s.Sound l) (h : Tapped l k s)
    (hstep : (segmentedMachine l).Steps s e s') (he : e ≠ .endScrollingAnimation) :
    (∃ offset, e = .scroll offset) ∧ Tapped l k s' := by
  obtain ⟨-, heffect⟩ := hs.effect hstep
  have hen := hstep.1
  have hdisabled := h.disabled
  have hmotion := h.motion
  cases e with
  | tap x => exact absurd (hen.1.symm.trans hdisabled) (by simp)
  | beginDragging => exact absurd (hen.1.symm.trans hdisabled) (by simp)
  | scroll offset =>
    refine ⟨⟨offset, rfl⟩, ?_⟩
    cases heffect with
    | scroll _ _ _ henabled => exact ⟨hmotion, henabled.trans hdisabled⟩
  | endDragging t willDecelerate => cases hen.1.symm.trans hmotion
  | endDecelerating => cases Eq.trans (Eq.symm hen) hmotion
  | endScrollingAnimation => exact absurd rfl he

theorem Tapped.run (hs : s.Sound l) (h : Tapped l k s) (hrun : (segmentedMachine l).Run s es s')
    (hfirst : .endScrollingAnimation ∉ es) :
    s'.Sound l ∧ Tapped l k s' ∧ ∀ e ∈ es, ∃ offset, e = SegmentedEvent.scroll offset := by
  induction hrun with
  | nil => exact ⟨hs, h, by simp⟩
  | snoc _ hstep ih =>
    simp only [List.mem_append, List.mem_singleton, not_or] at hfirst
    obtain ⟨hs, h, hscrolls⟩ := ih hfirst.1
    obtain ⟨hscroll, h'⟩ := h.step hs hstep (Ne.symm hfirst.2)
    refine ⟨(hs.effect hstep).1, h', fun e he => ?_⟩
    rcases List.mem_append.mp he with he | he
    · exact hscrolls e he
    · exact List.mem_singleton.mp he ▸ hscroll

/-- A tap is not on the segment that the selector lies on. -/
def TapsBeside (l : Layout n) (s : SegmentedScreen n) : SegmentedEvent → Prop
  | .tap x => l.offsetFromSegment (l.segmentFromTapPoint x) ≠ s.control.contentOffset
  | _ => True

/-- A control that waits for the end of an animation that does not take place. -/
structure Stuck (s : SegmentedScreen n) : Prop where
  disabled : s.control.isUserInteractionEnabled = false
  motion : s.motion.isAnimating = false

theorem Stuck.of_tap (hs : s.Sound l) (hbeside : ¬ TapsBeside l s e)
    (hstep : (segmentedMachine l).Steps s e s') : Stuck s' := by
  obtain ⟨-, heffect⟩ := hs.effect hstep
  cases heffect with
  | tap _ _ hne => exact absurd hne hbeside
  | tapAtSelector =>
    refine ⟨rfl, ?_⟩
    rcases hstep.1.2 with hidle | ⟨target, hdecelerating⟩
    · simp only [hidle, Motion.isAnimating]
    · simp only [hdecelerating, Motion.isAnimating]
  | beginDragging | scroll | endDragging | stop | endDecelerating | endScrollingAnimation =>
    exact absurd trivial hbeside

theorem Stuck.step (hs : s.Sound l) (h : Stuck s) (hstep : (segmentedMachine l).Steps s e s') :
    Stuck s' := by
  obtain ⟨-, heffect⟩ := hs.effect hstep
  have hen := hstep.1
  have hdisabled := h.disabled
  have hmotion := h.motion
  cases heffect with
  | tap | tapAtSelector | beginDragging => exact absurd (hen.1.symm.trans hdisabled) (by simp)
  | scroll _ _ _ henabled => exact ⟨henabled.trans hdisabled, hmotion⟩
  | endDragging | stop => exact ⟨hdisabled, rfl⟩
  | endDecelerating _ henabled => exact ⟨henabled.trans hdisabled, rfl⟩
  | endScrollingAnimation =>
    have hanimating : s.motion = .animating s.control.contentOffset := hen
    rw [hanimating] at hmotion
    cases hmotion

/-- Once it is stuck the control stays so. -/
theorem Stuck.run (hs : s.Sound l) (h : Stuck s) (hrun : (segmentedMachine l).Run s es s') :
    Stuck s' :=
  (hrun.invariant (I := fun s => s.Sound l ∧ Stuck s) ⟨hs, h⟩ fun _ _ _ h hstep =>
    ⟨(h.1.effect hstep).1, h.2.step h.1 hstep⟩).2

theorem Sound.lands (hs : s.Sound l) (hrun : (segmentedMachine l).Run s
      (.tap x :: (es ++ [.endScrollingAnimation])) s') (hfirst : .endScrollingAnimation ∉ es) :
    (∀ e ∈ es, ∃ offset, e = .scroll offset) ∧ s'.motion = .idle ∧
      s'.control.currentSegment = l.segmentFromTapPoint x ∧
      s'.control.contentOffset = l.offsetFromSegment (l.segmentFromTapPoint x) ∧
      s'.control.isUserInteractionEnabled = true := by
  obtain ⟨s₁, htap, hrun⟩ := hrun.cons_inv
  obtain ⟨s₂, hrun, hend⟩ := hrun.snoc_inv
  obtain ⟨hs₁, heffect⟩ := hs.effect htap
  have hmotion : s₂.motion = .animating s₂.control.contentOffset := hend.1
  have htapped : Tapped l (l.segmentFromTapPoint x) s₁ := by
    cases heffect with
    | tap => exact ⟨rfl, rfl⟩
    | tapAtSelector hat =>
      -- a stuck control would never have come to the end of an animation
      have hnot : ¬ TapsBeside l s (.tap x) := not_not_intro hat
      have hstuck := ((Stuck.of_tap hs hnot htap).run hs₁ hrun).motion
      rw [hmotion] at hstuck
      cases hstuck
  obtain ⟨hs₂, htapped, hscrolls⟩ := htapped.run hs₁ hrun hfirst
  obtain ⟨-, heffect⟩ := hs₂.effect hend
  refine ⟨hscrolls, ?_⟩
  cases heffect with
  | endScrollingAnimation hrest henabled =>
    have hat : _ = l.offsetFromSegment (l.segmentFromTapPoint x) :=
      hrest.offset.trans (Motion.animating.inj (hmotion.symm.trans htapped.motion))
    exact ⟨rfl, Layout.offsetFromSegment_injective (hrest.current.symm.trans hat), hat, henabled⟩

/-- Nothing but the movement itself happens between a tap and the end of its animation, which leaves
the tapped segment the current one, the selector over it, and the control usable. -/
theorem tap_selects (hload : SegmentedControl.loaded l = .ok c)
    (hrun : (segmentedMachine l).Run { control := c }
      (es ++ .tap x :: (es' ++ [.endScrollingAnimation])) s)
    (hfirst : .endScrollingAnimation ∉ es') :
    (∀ e ∈ es', ∃ offset, e = .scroll offset) ∧ s.motion = .idle ∧
      s.control.currentSegment = l.segmentFromTapPoint x ∧
      s.control.contentOffset = l.offsetFromSegment (l.segmentFromTapPoint x) ∧
      s.control.isUserInteractionEnabled = true := by
  obtain ⟨s₀, hbefore, hrun⟩ := hrun.split
  exact (sound_of_run hload hbefore).lands hrun hfirst

theorem tap_selects_third : ∃ c s, SegmentedControl.loaded fourSegments = .ok c ∧
    (segmentedMachine fourSegments).Run { control := c }
      [.tap 200, .scroll (fourSegments.offsetFromSegment 2), .endScrollingAnimation] s ∧
    s.control.currentSegment = 2 := by
  obtain ⟨c, s, hload, hrun⟩ := exists_tapped_third
  have hsplit : (segmentedMachine fourSegments).Run { control := c }
      ([] ++ .tap 200 :: ([.scroll (fourSegments.offsetFromSegment 2)] ++ [.endScrollingAnimation]))
      s := hrun
  refine ⟨c, s, hload, hrun, ?_⟩
  rw [← segmentFromTapPoint_fourSegments]
  exact (tap_selects hload hsplit (by simp)).2.2.1

/-! ## Taking touches -/

/-- The control takes touches unless it animates. -/
def Usable (s : SegmentedScreen n) : Prop :=
  s.control.isUserInteractionEnabled = !s.motion.isAnimating

theorem Usable.step (hs : s.Sound l) (h : Usable s) (hbeside : TapsBeside l s e)
    (hstep : (segmentedMachine l).Steps s e s') : Usable s' := by
  obtain ⟨-, heffect⟩ := hs.effect hstep
  have hen := hstep.1
  cases heffect with
  | tap => rfl
  | tapAtSelector hat => exact absurd hat hbeside
  | beginDragging => exact hen.1
  | scroll _ _ _ henabled => exact henabled.trans h
  | endDragging | stop =>
    rw [Usable, hen.1] at h
    exact h
  | endDecelerating _ henabled =>
    have hmotion : s.motion = .decelerating s.control.contentOffset := hen
    rw [Usable, hmotion] at h
    exact henabled.trans h
  | endScrollingAnimation _ henabled => exact henabled

theorem stuck_of_not_stepsMeet {s₀ : SegmentedScreen n} (hs : s₀.Sound l)
    (hrun : (segmentedMachine l).Run s₀ es s)
    (hmeet : ¬ (segmentedMachine l).StepsMeet s₀ es (TapsBeside l)) : Stuck s := by
  induction hrun with
  | nil => exact absurd Machine.stepsMeet_nil hmeet
  | @snoc es s e s' hrun hstep ih =>
    have hs' := hrun.invariant hs fun _ _ _ hs hstep => (hs.effect hstep).1
    rw [Machine.stepsMeet_snoc hrun] at hmeet
    by_cases hbefore : (segmentedMachine l).StepsMeet s₀ es (TapsBeside l)
    · exact Stuck.of_tap hs' (fun hbeside => hmeet ⟨hbefore, hbeside⟩) hstep
    · exact (ih hbefore).step hs' hstep

/-- The control takes touches whenever it does not animate, all along, exactly in the runs where no
tap is on the segment that the selector lies on. After such a tap it never takes another touch. -/
theorem usable_throughout_iff (hload : SegmentedControl.loaded l = .ok c)
    (hrun : (segmentedMachine l).Run { control := c } es s) :
    ((segmentedMachine l).Throughout { control := c } es Usable ↔
      (segmentedMachine l).StepsMeet { control := c } es (TapsBeside l)) ∧
    (¬ (segmentedMachine l).StepsMeet { control := c } es (TapsBeside l) →
      s.control.isUserInteractionEnabled = false ∧ s.motion.isAnimating = false) := by
  have hsound := (sound_of_loaded hload).1
  have h₀ : Usable { control := c } := by
    obtain ⟨c', hload', -, -, -, henabled⟩ := SegmentedControl.loaded_ok l
    cases hload.symm.trans hload'
    exact henabled
  refine ⟨hrun.throughout_iff_of_invariant hsound
    (fun _ _ _ hs hstep => (hs.effect hstep).1) h₀
    (fun s e s' hs h hbeside hstep => h.step hs hbeside hstep) ?_, fun hmeet => ?_⟩
  · intro s e s' hs _ hbeside hstep h'
    have hstuck := Stuck.of_tap hs hbeside hstep
    rw [Usable, hstuck.disabled, hstuck.motion] at h'
    cases h'
  · obtain ⟨hdisabled, hmotion⟩ := stuck_of_not_stepsMeet hsound hrun hmeet
    exact ⟨hdisabled, hmotion⟩

/-- A tap that begins beside the selector and ends over it. -/
theorem usable_throughout_iff_first : ∃ c s, SegmentedControl.loaded fourSegments = .ok c ∧
    (segmentedMachine fourSegments).Run { control := c } [.tap 40] s ∧
    ¬ (segmentedMachine fourSegments).Throughout { control := c } [.tap 40] Usable := by
  obtain ⟨c, hload, -, -, hoffset, henabled⟩ := SegmentedControl.loaded_ok fourSegments
  have hfirst : fourSegments.segmentFromTapPoint 40 = 0 := by
    rw [Layout.segmentFromTapPoint, selectorWidth_fourSegments]
    exact floorf_eq (by norm_num) (by norm_num) (by norm_num) (by norm_num)
  have hindex : 0 ≤ fourSegments.segmentFromTapPoint 40 ∧
      fourSegments.segmentFromTapPoint 40 < 4 := by
    rw [hfirst]
    decide
  obtain ⟨s, hstep, -⟩ := (sound_of_loaded hload).1.steps (e := .tap 40) ⟨henabled, .inl rfl⟩
    (not_not_intro hindex)
  refine ⟨c, s, hload, .single hstep, fun husable => ?_⟩
  have hbeside := (usable_throughout_iff hload (.single hstep)).1.mp husable [] (.tap 40) _
    List.prefix_rfl .nil
  refine hbeside ?_
  rw [hfirst, hoffset]

end SegmentedScreen
end RLFinder
