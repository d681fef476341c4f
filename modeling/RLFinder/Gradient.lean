import RLFinder.SegmentedControl

/-!
# The colours of the gradient view

The segmented control lays the colours of all its segments side by side on one gradient view that is
wider than itself, with the colours shown beyond the edges at either end, and moves that view behind
the selector. The data source may leave out each of its two methods, and may answer with any number
of colours.
-/

namespace RLFinder

inductive SJFluidSegmentedControlBounce
  | left
  | right

/-- The optional methods of the data source, and the control's own colours. -/
structure GradientColors (Color : Type*) where
  gradientColorsForSelectedSegment : Option (Int → List Color)
  gradientColorsForBounce : Option (SJFluidSegmentedControlBounce → List Color)
  selectorViewColor : Color
  gradientBounceColor : Color

namespace GradientColors

variable {Color : Type*} (d : GradientColors Color)

/-- A single colour is appended once more. -/
def appendFirst : List Color → List Color
  | [color] => [color, color]
  | colors => colors

def gradientColorForSegmentAtIndex (index : Int) : List Color :=
  match d.gradientColorsForSelectedSegment with
  | some gradientColors => appendFirst (gradientColors index)
  | none => [d.selectorViewColor, d.selectorViewColor]

def gradientColorForBounce (bounce : SJFluidSegmentedControlBounce) : List Color :=
  match d.gradientColorsForBounce with
  | some colors => appendFirst (colors bounce)
  | none => appendFirst [d.gradientBounceColor]

/-- `-1 ... count` -/
def indices (count : Nat) : List Int := (List.range (count + 2)).map fun (i : Nat) => (i : Int) - 1

/-- The colours at one index, in the loops of `setupColors` and `setupLocations`. -/
def segmentColors (count : Nat) (index : Int) : List Color :=
  let segmentColors := []
  let segmentColors := if index = -1 then d.gradientColorForBounce .left else segmentColors
  let segmentColors :=
    if index ≥ 0 ∧ index < count then d.gradientColorForSegmentAtIndex index else segmentColors
  if index = count then d.gradientColorForBounce .right else segmentColors

def gradientLocationForSegmentAtIndex (segmentIndex : Int) (colorIndex colorsCount : Nat)
    (segmentsCount : Nat) : CGFloat :=
  let totalCount := segmentsCount + 2 + (segmentsCount + 1) * gradientBackVelocity
  let offset := 1 + segmentIndex + (segmentIndex + 1) * gradientBackVelocity
  (offset + colorIndex / (colorsCount - 1)) / totalCount

def setupColors (count : Nat) : List Color :=
  (indices count).foldl (fun colors index =>
    let segmentColors := d.segmentColors count index
    if segmentColors.length = 0 then colors else colors ++ segmentColors) []

def setupLocations (count : Nat) : List CGFloat :=
  (indices count).foldl (fun locations index =>
    let segmentColors := d.segmentColors count index
    if segmentColors.length = 0 then locations
    else locations ++ (List.range segmentColors.length).map fun colorIndex =>
      gradientLocationForSegmentAtIndex index colorIndex segmentColors.length count) []

end GradientColors

/-- The colours of the gradient layer, each with where it is reached, seen from the control. -/
def SegmentedControl.stops {segmentsCount : Nat} {Color : Type*} (l : Layout segmentsCount)
    (c : SegmentedControl segmentsCount) (d : GradientColors Color) : List (Color × CGFloat) :=
  (d.setupColors segmentsCount).zip <| (d.setupLocations segmentsCount).map fun location =>
    c.gradientView.left + location * l.gradientWidth

end RLFinder
