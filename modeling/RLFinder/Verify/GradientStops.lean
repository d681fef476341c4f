import RLFinder.Gradient
import RLFinder.Verify.SegmentedRuns

/-!
# What shows through the selector

Whatever the data source answers, the gradient layer gets one location for each of its colours, in
ascending order between zero and one (`locations_wellFormed`). The gradient view moves against the
selector so that, when the selector is over a segment, the colours seen through it are those of that
segment, spread evenly from its left edge to its right one (`gradient_of_run`).
-/

namespace RLFinder

/-! ## Lists put together index by index -/

theorem zip_flatMap {ι α β : Type*} {f : ι → List α} {g : ι → List β}
    (h : ∀ i, (f i).length = (g i).length) (is : List ι) :
    (is.flatMap f).zip (is.flatMap g) = is.flatMap fun i => (f i).zip (g i) := by
  induction is with
  | nil => rfl
  | cons i is ih => simp only [List.flatMap_cons, List.zip_append (h i), ih]

theorem flatMap_eq_single {ι α : Type*} {f : ι → List α} {i : ι} {is : List ι} (hi : i ∈ is)
    (hnodup : is.Nodup) (hf : ∀ j ∈ is, j ≠ i → f j = []) : is.flatMap f = f i := by
  obtain ⟨before, after, rfl⟩ := List.append_of_mem hi
  have hnil : ∀ js : List ι, (∀ j ∈ js, j ∈ before ++ i :: after ∧ j ≠ i) → js.flatMap f = [] :=
    fun js hjs => List.flatMap_eq_nil_iff.mpr fun j hj => hf j (hjs j hj).1 (hjs j hj).2
  obtain ⟨-, hrest, hdisjoint⟩ := List.nodup_append.mp hnodup
  rw [List.flatMap_append, List.flatMap_cons, hnil before, hnil after, List.nil_append,
    List.append_nil]
  · intro j hj
    refine ⟨by simp [hj], ?_⟩
    rintro rfl
    exact (List.nodup_cons.mp hrest).1 hj
  · exact fun j hj => ⟨by simp [hj], hdisjoint j hj i (List.mem_cons_self ..)⟩

theorem zip_map_range {α β : Type*} (xs : List α) (f : Nat → β) :
    xs.zip ((List.range xs.length).map f) = xs.mapIdx fun j x => (x, f j) := by
  refine List.ext_getElem (by simp) fun j _ _ => ?_
  simp

namespace GradientColors

variable {Color : Type*} {d : GradientColors Color} {n j j' m m' : Nat} {i i' k : Int}

/-! ## Colours -/

theorem appendFirst_length_ne_one {colors : List Color} : (appendFirst colors).length ≠ 1 := by
  match colors with
  | [] => simp [appendFirst]
  | [color] => simp [appendFirst]
  | color :: color' :: colors => simp [appendFirst]

/-- There is never a single colour, for which there would be no distance to the next one. -/
theorem segmentColors_length_ne_one : (d.segmentColors n i).length ≠ 1 := by
  have hbounce : ∀ bounce, (d.gradientColorForBounce bounce).length ≠ 1 := by
    intro bounce
    unfold gradientColorForBounce
    split
    · exact appendFirst_length_ne_one
    · exact appendFirst_length_ne_one
  have hsegment : (d.gradientColorForSegmentAtIndex i).length ≠ 1 := by
    unfold gradientColorForSegmentAtIndex
    split
    · exact appendFirst_length_ne_one
    · simp
  simp only [segmentColors]
  split
  · exact hbounce _
  split
  · exact hsegment
  split
  · exact hbounce _
  · simp

theorem segmentColors_of_mem (h₀ : 0 ≤ k) (h₁ : k < n) :
    d.segmentColors n k = d.gradientColorForSegmentAtIndex k := by
  simp only [segmentColors]
  rw [if_neg h₁.ne, if_pos ⟨h₀, h₁⟩]

theorem mem_indices : i ∈ indices n ↔ -1 ≤ i ∧ i ≤ n := by
  simp only [indices, List.mem_map, List.mem_range]
  constructor
  · rintro ⟨a, ha, rfl⟩
    omega
  · rintro ⟨h₀, h₁⟩
    exact ⟨(i + 1).toNat, by omega, by omega⟩

theorem pairwise_indices : (indices n).Pairwise (· < ·) := by
  rw [indices, List.pairwise_map]
  exact List.pairwise_lt_range.imp fun h => by omega

theorem setupColors_eq : d.setupColors n = (indices n).flatMap (d.segmentColors n) := by
  rw [List.flatMap_eq_foldl, setupColors]
  congr
  funext colors index
  simp only
  split
  · rename_i hnil
    rw [List.length_eq_zero_iff.mp hnil, List.append_nil]
  · rfl

/-! ## Locations -/

/-- The locations of the colours at one index. -/
def segmentLocations (d : GradientColors Color) (n : Nat) (i : Int) : List CGFloat :=
  (List.range (d.segmentColors n i).length).map fun j =>
    gradientLocationForSegmentAtIndex i j (d.segmentColors n i).length n

theorem setupLocations_eq : d.setupLocations n = (indices n).flatMap (d.segmentLocations n) := by
  rw [List.flatMap_eq_foldl, setupLocations]
  congr
  funext locations index
  simp only
  split
  · rename_i hnil
    rw [segmentLocations, hnil, List.range_zero, List.map_nil, List.append_nil]
  · rfl

/-- How far a colour lies between the first and the last colour of its index. -/
def fraction (j m : Nat) : CGFloat := j / (m - 1)

theorem fraction_mem (hm : m ≠ 1) (hj : j < m) : 0 ≤ fraction j m ∧ fraction j m ≤ 1 := by
  have hpos : (0 : CGFloat) < m - 1 := by
    rw [sub_pos]
    exact_mod_cast (by omega : 1 < m)
  have hle : (j : CGFloat) + 1 ≤ m := by exact_mod_cast hj
  exact ⟨div_nonneg (Nat.cast_nonneg j) hpos.le, (div_le_one hpos).mpr (by linarith)⟩

theorem fraction_lt (hj : j < j') (hj' : j' < m) : fraction j m < fraction j' m := by
  have hpos : (0 : CGFloat) < m - 1 := by
    rw [sub_pos]
    exact_mod_cast (by omega : 1 < m)
  exact div_lt_div_of_pos_right (by exact_mod_cast hj) hpos

/-- In units of the selector's width the gradient view is `2 n + 3` wide, and the colours of an
index begin at twice the number of indices before it. -/
theorem location_eq :
    gradientLocationForSegmentAtIndex i j m n = (2 * (i + 1) + fraction j m) / (2 * n + 3) := by
  have hden : (n + 2 + (n + 1) * gradientBackVelocity : CGFloat) = 2 * n + 3 := by
    rw [gradientBackVelocity]
    ring
  have hnum : (1 + i + (i + 1) * gradientBackVelocity : CGFloat) = 2 * (i + 1) := by
    rw [gradientBackVelocity]
    ring
  simp only [gradientLocationForSegmentAtIndex, fraction, hden, hnum]

theorem den_pos (n : Nat) : (0 : CGFloat) < 2 * n + 3 := by positivity

theorem mem_segmentLocations {t : CGFloat} (h : t ∈ d.segmentLocations n i) :
    ∃ j < (d.segmentColors n i).length,
      t = (2 * (i + 1) + fraction j (d.segmentColors n i).length) / (2 * n + 3) := by
  simp only [segmentLocations, List.mem_map, List.mem_range, location_eq] at h
  obtain ⟨j, hj, rfl⟩ := h
  exact ⟨j, hj, rfl⟩

theorem pairwise_segmentLocations : (d.segmentLocations n i).Pairwise (· < ·) := by
  rw [segmentLocations, List.pairwise_map]
  refine List.pairwise_lt_range.imp_of_mem fun {j j'} hj hj' hlt => ?_
  have hfraction := fraction_lt hlt (List.mem_range.mp hj')
  rw [location_eq, location_eq]
  exact div_lt_div_of_pos_right (by linarith) (den_pos n)

/-- What the gradient layer asks of its locations holds whatever the data source answers. -/
theorem locations_wellFormed (d : GradientColors Color) (n : Nat) :
    (d.setupLocations n).length = (d.setupColors n).length ∧
      (d.setupLocations n).Pairwise (· < ·) ∧
      ∀ location ∈ d.setupLocations n, 0 ≤ location ∧ location ≤ 1 := by
  rw [setupLocations_eq, setupColors_eq]
  refine ⟨?_, ?_, ?_⟩
  · simp only [List.length_flatMap, segmentLocations, List.length_map, List.length_range]
  · refine List.pairwise_flatMap.mpr ⟨fun i _ => pairwise_segmentLocations, ?_⟩
    refine pairwise_indices.imp fun {i i'} hlt t ht t' ht' => ?_
    obtain ⟨j, hj, rfl⟩ := mem_segmentLocations ht
    obtain ⟨j', hj', rfl⟩ := mem_segmentLocations ht'
    have hhigh := (fraction_mem segmentColors_length_ne_one hj).2
    have hlow := (fraction_mem segmentColors_length_ne_one hj').1
    have hnext : (i : CGFloat) + 1 ≤ i' := by exact_mod_cast hlt
    exact div_lt_div_of_pos_right (by linarith) (den_pos n)
  · intro t ht
    obtain ⟨i, hi, ht⟩ := List.mem_flatMap.mp ht
    obtain ⟨j, hj, rfl⟩ := mem_segmentLocations ht
    obtain ⟨h₀, h₁⟩ := mem_indices.mp hi
    obtain ⟨hlow, hhigh⟩ := fraction_mem segmentColors_length_ne_one hj
    have hi₀ : (-1 : CGFloat) ≤ i := by exact_mod_cast h₀
    have hi₁ : (i : CGFloat) ≤ n := by exact_mod_cast h₁
    exact ⟨div_nonneg (by linarith) (den_pos n).le, (div_le_one (den_pos n)).mpr (by linarith)⟩

end GradientColors

/-! ## Positions -/

namespace SegmentedControl
open GradientColors

variable {Color : Type*} {d : GradientColors Color} {n : Nat} {l : Layout n}
  {c : SegmentedControl n} {k : Int} {j m : Nat}

theorem gradientWidth_eq (l : Layout n) : l.gradientWidth = (2 * n + 3) * l.selectorWidth := by
  have hn := l.one_lt_count
  have hne : (n : CGFloat) ≠ 0 := by linarith
  rw [Layout.gradientWidth, l.width_eq, gradientBackVelocity]
  field_simp
  ring

/-- The gradient view carries the colours of a segment with the selector, and twice as fast past
it. -/
theorem Sound.gradientView_left (h : c.Sound l) : c.gradientView.left =
    l.selectorLeft c.contentOffset -
      2 * (l.percentFromOffset c.contentOffset + 1) * l.selectorWidth := by
  have hn := l.one_lt_count
  have hne : (n : CGFloat) ≠ 0 := by linarith
  have hs := l.selectorWidth_pos.ne'
  rw [h.gradient, Layout.setupGradientWithPercent, Layout.selectorLeft, l.leftSpacerWidth_eq,
    Layout.percentFromOffset_eq, gradientBackVelocity]
  field_simp
  ring

/-- The mask is on the selector. -/
theorem Sound.gradientView_mask (h : c.Sound l) : ∃ maskLeft,
    c.gradientView.maskLeft = some maskLeft ∧
      c.gradientView.left + maskLeft = l.selectorLeft c.contentOffset := by
  have hn := l.one_lt_count
  have hne : (n : CGFloat) ≠ 0 := by linarith
  have hs := l.selectorWidth_pos.ne'
  rw [h.gradient]
  refine ⟨_, rfl, ?_⟩
  rw [Layout.selectorLeft, l.leftSpacerWidth_eq, Layout.percentFromOffset_eq]
  simp only [Layout.setupGradientWithPercent]
  field_simp
  ring

theorem Sound.position (h : c.Sound l) :
    c.gradientView.left + gradientLocationForSegmentAtIndex k j m n * l.gradientWidth =
      l.selectorLeft c.contentOffset +
        (2 * (k - l.percentFromOffset c.contentOffset) + fraction j m) * l.selectorWidth := by
  have hden := (den_pos n).ne'
  rw [h.gradientView_left, gradientWidth_eq, location_eq]
  field_simp
  ring

/-- The colours at one index, each with where it is reached. -/
def segmentStops (l : Layout n) (c : SegmentedControl n) (d : GradientColors Color) (i : Int) :
    List (Color × CGFloat) :=
  (d.segmentColors n i).mapIdx fun j color => (color, l.selectorLeft c.contentOffset +
    (2 * (i - l.percentFromOffset c.contentOffset) + fraction j (d.segmentColors n i).length) *
      l.selectorWidth)

theorem Sound.stops_eq (h : c.Sound l) :
    c.stops l d = (indices n).flatMap (segmentStops l c d) := by
  rw [stops, setupColors_eq, setupLocations_eq, List.map_flatMap, zip_flatMap]
  · refine congrArg (List.flatMap · _) (funext fun i => ?_)
    rw [segmentLocations, List.map_map, zip_map_range, segmentStops]
    simp only [Function.comp_apply, h.position]
  · intro i
    simp only [segmentLocations, List.length_map, List.length_range]

/-- Seen through the selector. -/
def Shows (l : Layout n) (c : SegmentedControl n) (x : CGFloat) : Prop :=
  l.selectorLeft c.contentOffset ≤ x ∧ x ≤ l.selectorLeft c.contentOffset + l.selectorWidth

instance {x : CGFloat} : Decidable (c.Shows l x) := inferInstanceAs (Decidable (_ ∧ _))

theorem shows_iff {x : CGFloat} :
    c.Shows l (l.selectorLeft c.contentOffset + x * l.selectorWidth) ↔ 0 ≤ x ∧ x ≤ 1 := by
  have hs := l.selectorWidth_pos
  unfold Shows
  constructor
  · rintro ⟨h₀, h₁⟩
    exact ⟨nonneg_of_mul_nonneg_left (by linarith) hs, le_of_mul_le_mul_right (by linarith) hs⟩
  · rintro ⟨h₀, h₁⟩
    have hlow := mul_nonneg h₀ hs.le
    have hhigh := mul_le_mul_of_nonneg_right h₁ hs.le
    exact ⟨by linarith, by linarith⟩

theorem mem_segmentStops {i : Int} {stop : Color × CGFloat} (h : stop ∈ segmentStops l c d i) :
    ∃ r, 0 ≤ r ∧ r ≤ 1 ∧ stop.2 = l.selectorLeft c.contentOffset +
      (2 * (i - l.percentFromOffset c.contentOffset) + r) * l.selectorWidth := by
  obtain ⟨j, hj, rfl⟩ := List.mem_mapIdx.mp h
  obtain ⟨h₀, h₁⟩ := fraction_mem segmentColors_length_ne_one hj
  exact ⟨_, h₀, h₁, rfl⟩

/-- Over a segment the selector shows its colours and no others. -/
theorem Sound.filter_stops (h : c.Sound l) (h₀ : 0 ≤ k) (h₁ : k < n)
    (hk : c.contentOffset = l.offsetFromSegment k) :
    ((c.stops l d).filter fun stop => c.Shows l stop.2) =
      (d.gradientColorForSegmentAtIndex k).mapIdx fun j color => (color,
        l.selectorLeft c.contentOffset +
          fraction j (d.gradientColorForSegmentAtIndex k).length * l.selectorWidth) := by
  have hp : l.percentFromOffset c.contentOffset = k := by
    rw [hk, Layout.percentFromOffset_offsetFromSegment]
  rw [h.stops_eq, List.filter_flatMap, flatMap_eq_single (mem_indices.mpr ⟨by omega, h₁.le⟩)
    (pairwise_indices.imp ne_of_lt)]
  · rw [List.filter_eq_self.mpr]
    · simp only [segmentStops, segmentColors_of_mem h₀ h₁, hp, sub_self, mul_zero, zero_add]
    · intro stop hstop
      obtain ⟨r, hr₀, hr₁, hr⟩ := mem_segmentStops hstop
      rw [hp, sub_self, mul_zero, zero_add] at hr
      rw [hr, decide_eq_true_iff, shows_iff]
      exact ⟨hr₀, hr₁⟩
  · intro i _ hi
    refine List.filter_eq_nil_iff.mpr fun stop hstop => ?_
    obtain ⟨r, hr₀, hr₁, hr⟩ := mem_segmentStops hstop
    rw [hr, hp, decide_eq_true_iff, shows_iff]
    rintro ⟨hlow, hhigh⟩
    rcases lt_or_gt_of_ne hi with hlt | hgt
    · have hle : (i : CGFloat) + 1 ≤ k := by exact_mod_cast hlt
      linarith
    · have hle : (k : CGFloat) + 1 ≤ i := by exact_mod_cast hgt
      linarith

end SegmentedControl

namespace SegmentedScreen

variable {Color : Type*} {n : Nat} {l : Layout n} {c : SegmentedControl n} {s : SegmentedScreen n}
  {es : List SegmentedEvent}

/-- In every run the mask of the gradient view is on the selector, and whenever the selector is over
a segment, the colours that the data source gives for that segment are the ones seen through it,
from its left edge to its right one. -/
theorem gradient_of_run (hload : SegmentedControl.loaded l = .ok c)
    (hrun : (segmentedMachine l).Run { control := c } es s) (d : GradientColors Color) :
    (∃ maskLeft, s.control.gradientView.maskLeft = some maskLeft ∧
      s.control.gradientView.left + maskLeft = l.selectorLeft s.control.contentOffset) ∧
    ∀ k : Int, 0 ≤ k → k < n → s.control.contentOffset = l.offsetFromSegment k →
      ((s.control.stops l d).filter fun stop => s.control.Shows l stop.2) =
        (d.gradientColorForSegmentAtIndex k).mapIdx fun j color => (color,
          l.selectorLeft s.control.contentOffset +
            j / ((d.gradientColorForSegmentAtIndex k).length - 1) * l.selectorWidth) := by
  have hsound := (sound_of_run hload hrun).control
  exact ⟨hsound.gradientView_mask, fun k h₀ h₁ hk => hsound.filter_stops h₀ h₁ hk⟩

theorem gradient_of_run_third : ∃ c s, SegmentedControl.loaded fourSegments = .ok c ∧
    (segmentedMachine fourSegments).Run { control := c }
      [.tap 200, .scroll (fourSegments.offsetFromSegment 2), .endScrollingAnimation] s ∧
    ∃ maskLeft, s.control.gradientView.maskLeft = some maskLeft ∧
      s.control.gradientView.left + maskLeft =
        fourSegments.selectorLeft s.control.contentOffset := by
  obtain ⟨c, s, hload, hrun⟩ := exists_tapped_third
  let d : GradientColors Nat := {
    gradientColorsForSelectedSegment := none
    gradientColorsForBounce := none
    selectorViewColor := 0
    gradientBounceColor := 1 }
  exact ⟨c, s, hload, hrun, (gradient_of_run hload hrun d).1⟩

end SegmentedScreen
end RLFinder
