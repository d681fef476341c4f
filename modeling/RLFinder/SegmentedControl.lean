import Mathlib.Data.Rat.Floor
import RLFinder.Theory.Grid
import RLFinder.Theory.Machine
import RLFinder.Theory.Rounding

/-!
# The segmented control

`SJFluidSegmentedControl` with the fade transition, as the rank and game-type choosers use it: the
selector lies in a scroll view, and the offset of the scroll view says which segment it is over.
`segmentedMachine` lets the user tap and drag, and the scroll view report its movements back.
-/

namespace RLFinder

/-- Coordinates and alpha values. Their own arithmetic, in double precision, is taken exactly. -/
abbrev CGFloat := ℚ

def binary32 : FloatFormat where
  radix := 2
  precision := 24
  minExponent := -149
  one_lt_radix := Nat.one_lt_two
  precision_pos := Nat.succ_pos 23

/-- `Float(x)` -/
def toFloat (x : CGFloat) : CGFloat := binary32.round x

/-- `Int(floorf(Float(x)))` -/
def floorf (x : CGFloat) : Int := ⌊toFloat x⌋

/-- `Int(roundf(Float(x)))` -/
def roundf (x : CGFloat) : Int := roundAway (toFloat x)

inductive ControlFault
  | assertionFailure
  | indexOutOfRange
  deriving DecidableEq

/-! ## Calculations -/

/-- A control with its segments after layout: its width is `bounds.width`. The frames are taken as
the constraints ask for them, not aligned to pixels. -/
structure Layout (segmentsCount : Nat) where
  width : CGFloat
  width_pos : 0 < width
  two_le : 2 ≤ segmentsCount
  /-- `Float` tells the segments apart. -/
  count_le : segmentsCount ≤ 2 ^ 23

namespace Layout

variable {segmentsCount : Nat} (l : Layout segmentsCount)

def spacerViewWidthMultiplier (segmentsCount : Nat) : CGFloat :=
  (segmentsCount - 1) / 1 / segmentsCount

def selectorViewWidthMultiplier (segmentsCount : Nat) : CGFloat := 1 / segmentsCount

/-- `leftSpacerView.frame.width` -/
def leftSpacerWidth : CGFloat := l.width * spacerViewWidthMultiplier segmentsCount

/-- `selectorView.frame.width` -/
def selectorWidth : CGFloat := l.width * selectorViewWidthMultiplier segmentsCount

def leftSegmentIndexFromPercentage (percentage : CGFloat) : Int := floorf percentage

def rightSegmentIndexFromPercentage (percentage : CGFloat) : Int := floorf percentage + 1

def percentFromOffset (offset : CGFloat) : CGFloat :=
  (segmentsCount - 1) - offset / l.leftSpacerWidth * (segmentsCount - 1)

def offsetFromSegment (segment : Int) : CGFloat :=
  ((segmentsCount - segment - 1 : Int) : CGFloat) * l.leftSpacerWidth / (segmentsCount - 1)

def segmentFromOffset (offset : CGFloat) : Int :=
  segmentsCount - roundf (offset / l.leftSpacerWidth * (segmentsCount - 1)) - 1

def segmentFromTapPoint (x : CGFloat) : Int := floorf (x / l.selectorWidth)

def nearestSegmentOffsetFromOffset (offset : CGFloat) : CGFloat :=
  roundf (offset / l.leftSpacerWidth * (segmentsCount - 1)) / (segmentsCount - 1) *
    l.leftSpacerWidth

/-- Where the selector begins, seen from the control: it moves against the scroll view's content. -/
def selectorLeft (offset : CGFloat) : CGFloat := l.leftSpacerWidth - offset

end Layout

/-! ## The gradient view -/

def gradientBackVelocity : CGFloat := 1

/-- Where the gradient view lies, and how far its mask, the path of the selector, is moved in it. -/
structure GradientView where
  /-- `gradientViewLeftConstraint.constant` -/
  left : CGFloat := 0
  maskLeft : Option CGFloat := none

/-- The width of the gradient view (`setupGradientViewConstraints`). -/
def Layout.gradientWidth {segmentsCount : Nat} (l : Layout segmentsCount) : CGFloat :=
  l.width * ((segmentsCount + 2 + (segmentsCount + 1) * gradientBackVelocity) / segmentsCount)

/-- `setupGradientWithPercent(_:offsetFactor:)`; the percentage only shapes the path. -/
def Layout.setupGradientWithPercent {segmentsCount : Nat} (l : Layout segmentsCount)
    (factor : CGFloat) : GradientView :=
  let leftSideOfExpression :=
    (-1 - factor * segmentsCount) * l.selectorWidth * (1 + gradientBackVelocity)
  let rightSideOfExpression := l.selectorWidth * factor * segmentsCount
  let left := leftSideOfExpression + rightSideOfExpression
  { left, maskLeft := some (-left + l.selectorWidth * factor * segmentsCount) }

/-! ## The control -/

/-- The alpha values of the two containers of a segment. -/
structure SegmentView where
  segmentAlpha : CGFloat
  selectedAlpha : CGFloat
  deriving DecidableEq

structure SegmentedControl (segmentsCount : Nat) where
  currentSegment : Int := 0
  /-- `scrollView.contentOffset.x` -/
  contentOffset : CGFloat := 0
  views : Fin segmentsCount → SegmentView := fun _ => ⟨1, 1⟩
  changedViews : List Int := []
  /-- The segment the shadow was last set up for, and whether as visible. -/
  shadow : Option (Int × Bool) := none
  gradientView : GradientView := {}
  isUserInteractionEnabled : Bool := true

namespace SegmentedControl

variable {segmentsCount : Nat} (l : Layout segmentsCount) (c : SegmentedControl segmentsCount)

/-- Assign the alpha values of a segment's containers. -/
def setView (index : Int) (view : SegmentView) :
    Except ControlFault (SegmentedControl segmentsCount) :=
  if h : 0 ≤ index ∧ index.toNat < segmentsCount then
    .ok { c with views := Function.update c.views ⟨index.toNat, h.2⟩ view }
  else .error .indexOutOfRange

/-- `setupSegmentViewAtIndex(_:withSelectionPercent:)`, with the fade transition. -/
def setupSegmentViewAtIndex (index : Int) (percent : CGFloat) :
    Except ControlFault (SegmentedControl segmentsCount) :=
  let c := if percent < 1 ∧ percent > -1 then
      { c with changedViews := c.changedViews.insert index }
    else c
  c.setView index ⟨|percent|, 1 - |percent|⟩

def deselectSegmentAtIndex (index : Int) : Except ControlFault (SegmentedControl segmentsCount) :=
  c.setupSegmentViewAtIndex index 1

def selectSegmentAtIndex (index : Int) : Except ControlFault (SegmentedControl segmentsCount) :=
  c.setupSegmentViewAtIndex index 0

def resetSegmentViewAtIndex (index : Int) : Except ControlFault (SegmentedControl segmentsCount) :=
  c.setView index ⟨1, 1⟩

/-- `setupShadowForSegmentAtIndex(_:visible:animated:)`, which takes the width of the segment's
view. -/
def setupShadowForSegmentAtIndex (index : Int) (isVisible : Bool) :
    Except ControlFault (SegmentedControl segmentsCount) :=
  if 0 ≤ index ∧ index.toNat < segmentsCount then .ok { c with shadow := some (index, isVisible) }
  else .error .indexOutOfRange

/-- In `scrollViewDidScroll(_:)`: between segments there is no shadow. -/
def hideShadow : Except ControlFault (SegmentedControl segmentsCount) :=
  if l.offsetFromSegment (l.segmentFromOffset c.contentOffset) ≠ c.contentOffset then
    c.setupShadowForSegmentAtIndex c.currentSegment false
  else .ok c

/-- In `scrollViewDidScroll(_:)`: the set of changed views is filtered only for the effect, and what
is left of it is thrown away. -/
def deselectOthers (leftIndex rightIndex : Int) :
    Except ControlFault (SegmentedControl segmentsCount) :=
  (c.changedViews.filter fun number => number ≠ leftIndex ∧ number ≠ rightIndex).foldlM
    deselectSegmentAtIndex c

/-- In `scrollViewDidScroll(_:)`: the selector may be over the edge. -/
def setupIfPresent (index : Int) (percent : CGFloat) :
    Except ControlFault (SegmentedControl segmentsCount) :=
  if index ≥ 0 ∧ index < segmentsCount then c.setupSegmentViewAtIndex index percent else .ok c

def scrollViewDidScroll : Except ControlFault (SegmentedControl segmentsCount) := do
  let c ← c.hideShadow l
  let percent := l.percentFromOffset c.contentOffset
  let leftIndex := Layout.leftSegmentIndexFromPercentage percent
  let rightIndex := Layout.rightSegmentIndexFromPercentage percent
  let c ← c.deselectOthers leftIndex rightIndex
  let factor := toFloat (toFloat percent - floorf percent)
  let c ← c.setupIfPresent leftIndex factor
  let c ← c.setupIfPresent rightIndex (factor - 1)
  return { c with gradientView := l.setupGradientWithPercent (percent / segmentsCount) }

/-- `scrollView.contentOffset` is assigned; the scroll view reports a change. -/
def setContentOffset (offset : CGFloat) : Except ControlFault (SegmentedControl segmentsCount) :=
  if offset = c.contentOffset then .ok c
  else scrollViewDidScroll l { c with contentOffset := offset }

/-- `setCurrentSegmentIndex(_:animated: false)` when `currentSegment` is the index already. -/
def showSegment (index : Int) : Except ControlFault (SegmentedControl segmentsCount) :=
  if index < segmentsCount ∧ index ≥ 0 then do
    let c ← c.setupShadowForSegmentAtIndex index true
    c.setContentOffset l (l.offsetFromSegment index)
  else .error .assertionFailure

/-- Assign `currentSegment`. Its observer calls `setCurrentSegmentIndex(_:animated:)`, where the
same assignment changes nothing. -/
def assignCurrentSegment (index : Int) : Except ControlFault (SegmentedControl segmentsCount) :=
  if index ≠ c.currentSegment then showSegment l { c with currentSegment := index } index
  else .ok c

/-- `setCurrentSegmentIndex(_:animated:)`: the control, and where it has the scroll view scroll with
an animation, if at all. -/
def setCurrentSegmentIndex (index : Int) (shouldAnimate : Bool) :
    Except ControlFault (SegmentedControl segmentsCount × Option CGFloat) :=
  if index < segmentsCount ∧ index ≥ 0 then
    if shouldAnimate then .ok (c, some (l.offsetFromSegment index))
    else do
      let c ← c.assignCurrentSegment l index
      let c ← c.setupShadowForSegmentAtIndex index true
      let c ← c.setContentOffset l (l.offsetFromSegment index)
      return (c, none)
  else .error .assertionFailure

def changeSegmentToSegmentAtIndex (index : Int) :
    Except ControlFault (SegmentedControl segmentsCount) := do
  let c ← c.assignCurrentSegment l index
  c.setupShadowForSegmentAtIndex index true

def tapWasRecognized (x : CGFloat) :
    Except ControlFault (SegmentedControl segmentsCount × Option CGFloat) :=
  setCurrentSegmentIndex l { c with isUserInteractionEnabled := false } (l.segmentFromTapPoint x)
    true

def scrollViewDidEndDecelerating : Except ControlFault (SegmentedControl segmentsCount) :=
  if c.contentOffset < 0 ∨ c.contentOffset > l.width - l.selectorWidth then .ok c
  else c.changeSegmentToSegmentAtIndex l (l.segmentFromOffset c.contentOffset)

def scrollViewDidEndScrollingAnimation : Except ControlFault (SegmentedControl segmentsCount) := do
  let c ← c.changeSegmentToSegmentAtIndex l (l.segmentFromOffset c.contentOffset)
  return { c with isUserInteractionEnabled := true }

/-! ## Loading -/

def updateTransitionStyle : Except ControlFault (SegmentedControl segmentsCount) := do
  let c ← (List.range segmentsCount).foldlM (fun c index => do
    let c ← c.resetSegmentViewAtIndex index
    c.deselectSegmentAtIndex index) c
  c.selectSegmentAtIndex c.currentSegment

def updateLayoutDependantValues : Except ControlFault (SegmentedControl segmentsCount) := do
  let savedCurrentSegment := c.currentSegment
  let c ← c.assignCurrentSegment l 0
  let (c, _) ← c.setCurrentSegmentIndex l savedCurrentSegment false
  return c

/-- The control once its data source is set (`reloadData`) and it is laid out for the first time
(`layoutSubviews`). -/
def loaded : Except ControlFault (SegmentedControl segmentsCount) := do
  let c ← updateTransitionStyle {}
  c.updateLayoutDependantValues l

end SegmentedControl

/-! ## The scroll view and its user -/

/-- What moves the scroll view. -/
inductive Motion
  | idle
  | dragging
  | decelerating (target : CGFloat)
  | animating (target : CGFloat)

structure SegmentedScreen (segmentsCount : Nat) where
  control : SegmentedControl segmentsCount
  motion : Motion := .idle

inductive SegmentedEvent
  | tap (x : CGFloat)
  | beginDragging
  /-- The scroll view moves. -/
  | scroll (offset : CGFloat)
  /-- The finger is lifted; the movement goes on or stops at once. -/
  | endDragging (targetContentOffset : CGFloat) (willDecelerate : Bool)
  | endDecelerating
  | endScrollingAnimation

namespace SegmentedScreen

variable {segmentsCount : Nat} (l : Layout segmentsCount) (s : SegmentedScreen segmentsCount)

/-- An animated scroll to where the scroll view is already moves nothing and is not reported. -/
def scrollAnimated (target : Option CGFloat) : SegmentedScreen segmentsCount :=
  match target with
  | some target =>
    if target = s.control.contentOffset then s else { s with motion := .animating target }
  | none => s

def handle : SegmentedEvent → Except ControlFault (SegmentedScreen segmentsCount)
  | .tap x => do
    let (control, target) ← s.control.tapWasRecognized l x
    return scrollAnimated { s with control } target
  | .beginDragging => .ok { s with motion := .dragging }
  | .scroll offset => do
    let control ← s.control.setContentOffset l offset
    return { s with control }
  | .endDragging targetContentOffset willDecelerate =>
    .ok { s with motion := if willDecelerate then
        .decelerating (l.nearestSegmentOffsetFromOffset targetContentOffset)
      else .idle }
  | .endDecelerating => do
    let control ← s.control.scrollViewDidEndDecelerating l
    return { control, motion := .idle }
  | .endScrollingAnimation => do
    let control ← s.control.scrollViewDidEndScrollingAnimation l
    return { control, motion := .idle }

/-- A tap begins beside the selector and is recognized wherever the finger is then. A drag is
expected to end within the content; a deceleration and an animation end at their targets, and a drag
that does not decelerate is at its target already. -/
def Enabled : SegmentedEvent → Prop
  | .tap _ | .beginDragging => s.control.isUserInteractionEnabled = true ∧
    (s.motion = .idle ∨ ∃ target, s.motion = .decelerating target)
  | .scroll _ => s.motion ≠ .idle
  | .endDragging targetContentOffset willDecelerate => s.motion = .dragging ∧
    0 ≤ targetContentOffset ∧ targetContentOffset ≤ l.leftSpacerWidth ∧
    (willDecelerate = false →
      s.control.contentOffset = l.nearestSegmentOffsetFromOffset targetContentOffset)
  | .endDecelerating => s.motion = .decelerating s.control.contentOffset
  | .endScrollingAnimation => s.motion = .animating s.control.contentOffset

end SegmentedScreen

def segmentedMachine {segmentsCount : Nat} (l : Layout segmentsCount) :
    Machine (SegmentedScreen segmentsCount) SegmentedEvent ControlFault where
  enabled := SegmentedScreen.Enabled l
  step := SegmentedScreen.handle l

end RLFinder
