import RLFinder.SegmentedControl

/-!
# What each method of the segmented control does

In units of the selector's width the scroll view's offsets are a grid, and every calculation of the
control is one on it (`offsetFromSegment_eq`, `segmentFromOffset_eq`). A control whose views agree
with its offset stays so (`Sound`): a report of the scroll view deselects every view that has been
changed and fades the two segments the selector is between (`scrollViewDidScroll_ok`).
-/

namespace RLFinder

/-! ## Conversions -/

section Conversions
variable {x : CGFloat} {k : Int}

/-- `Float` has the integers and their halves. -/
theorem representable_half (h : |k| ≤ 2 ^ 24) : binary32.Representable (k / 2 : CGFloat) :=
  ⟨k, -1, h, by decide, by rw [zpow_neg_one, div_eq_mul_inv]; rfl⟩

theorem representable_intCast (h : |k| ≤ 2 ^ 23) : binary32.Representable (k : CGFloat) :=
  ⟨k, 0, h.trans (by decide), by decide, by rw [zpow_zero, mul_one]⟩

theorem toFloat_le (hk : |k| ≤ 2 ^ 23) (h : x ≤ k) : toFloat x ≤ k :=
  FloatFormat.round_le (representable_intCast hk) h

theorem le_toFloat (hk : |k| ≤ 2 ^ 23) (h : k ≤ x) : k ≤ toFloat x :=
  FloatFormat.le_round (representable_intCast hk) h

theorem toFloat_intCast (hk : |k| ≤ 2 ^ 23) : toFloat k = k :=
  FloatFormat.round_eq_self (representable_intCast hk)

theorem abs_toFloat_sub_le {b : CGFloat} (h : |x| ≤ b) (hb : 1 ≤ b) :
    |toFloat x - x| ≤ b / 2 ^ 24 := by
  have hsmall : ((2 : Nat) : CGFloat) ^ (-149 : Int) ≤ 2 ^ (-23 : Int) :=
    zpow_le_zpow_right₀ one_le_two (by decide)
  have herror : |toFloat x - x| ≤ max (|x| * 2 / 2 ^ 24) (2 ^ (-149 : Int)) / 2 :=
    FloatFormat.abs_round_sub_le
  refine herror.trans ?_
  rw [div_le_iff₀ two_pos]
  refine max_le ?_ (hsmall.trans ?_)
  · linarith
  · norm_num
    linarith

/-- What lies in the lower half of a segment is on it. -/
theorem floorf_eq (h₀ : 0 ≤ k) (hk : k < 2 ^ 23) (hle : k ≤ x) (hhalf : x ≤ k + 1 / 2) :
    floorf x = k := by
  rw [floorf, Int.floor_eq_iff]
  refine ⟨le_toFloat (by rw [abs_of_nonneg h₀]; exact hk.le) hle, ?_⟩
  have hmiddle : toFloat x ≤ ((2 * k + 1 : Int) / 2 : CGFloat) := by
    refine FloatFormat.round_le (representable_half ?_) ?_
    · rw [abs_of_nonneg (by omega)]
      omega
    · push_cast
      linarith
  push_cast at hmiddle
  linarith

end Conversions
namespace Layout

variable {n : Nat} {l : Layout n} {o : CGFloat} {k : Int}

/-! ## Calculations -/

theorem one_lt_count (l : Layout n) : (1 : CGFloat) < n := by exact_mod_cast l.two_le

theorem selectorWidth_pos (l : Layout n) : 0 < l.selectorWidth := by
  have hn := l.one_lt_count
  have hw := l.width_pos
  rw [selectorWidth, selectorViewWidthMultiplier]
  exact mul_pos hw (div_pos one_pos (by linarith))

theorem width_eq (l : Layout n) : l.width = n * l.selectorWidth := by
  have hn := l.one_lt_count
  have hne : (n : CGFloat) ≠ 0 := by linarith
  rw [selectorWidth, selectorViewWidthMultiplier]
  field_simp

theorem leftSpacerWidth_eq (l : Layout n) : l.leftSpacerWidth = (n - 1) * l.selectorWidth := by
  rw [leftSpacerWidth, spacerViewWidthMultiplier, selectorWidth, selectorViewWidthMultiplier]
  ring

/-- The offset in units of the selector's width. -/
theorem div_leftSpacerWidth (l : Layout n) :
    o / l.leftSpacerWidth * (n - 1) = o / l.selectorWidth := by
  have hn := l.one_lt_count
  have hne : (n : CGFloat) - 1 ≠ 0 := by linarith
  have hs := l.selectorWidth_pos.ne'
  rw [leftSpacerWidth_eq]
  field_simp

theorem percentFromOffset_eq : l.percentFromOffset o = n - 1 - o / l.selectorWidth := by
  rw [percentFromOffset, div_leftSpacerWidth]

theorem offsetFromSegment_eq : l.offsetFromSegment k = (n - 1 - k) * l.selectorWidth := by
  have hn := l.one_lt_count
  have hne : (n : CGFloat) - 1 ≠ 0 := by linarith
  rw [offsetFromSegment, leftSpacerWidth_eq]
  push_cast
  field_simp
  ring

theorem segmentFromOffset_eq : l.segmentFromOffset o = n - 1 - roundf (o / l.selectorWidth) := by
  rw [segmentFromOffset, div_leftSpacerWidth]
  ring

/-- The nearest segment's offset is the offset of the nearest segment. -/
theorem nearestSegmentOffset_eq :
    l.nearestSegmentOffsetFromOffset o = l.offsetFromSegment (l.segmentFromOffset o) := by
  have hn := l.one_lt_count
  have hne : (n : CGFloat) - 1 ≠ 0 := by linarith
  rw [nearestSegmentOffsetFromOffset, offsetFromSegment_eq, segmentFromOffset_eq,
    div_leftSpacerWidth, leftSpacerWidth_eq]
  push_cast
  field_simp
  ring

@[simp] theorem offset_div_selectorWidth :
    l.offsetFromSegment k / l.selectorWidth = ((n - 1 - k : Int) : CGFloat) := by
  rw [offsetFromSegment_eq, mul_div_assoc, div_self l.selectorWidth_pos.ne']
  push_cast
  ring

/-- A segment is found at its own offset. -/
theorem segmentFromOffset_offsetFromSegment (h₀ : 0 ≤ k) (h₁ : k < n) :
    l.segmentFromOffset (l.offsetFromSegment k) = k := by
  have hn := l.count_le
  have hfloat : toFloat ((n - 1 - k : Int) : CGFloat) = ((n - 1 - k : Int) : CGFloat) :=
    toFloat_intCast (by rw [abs_of_nonneg (by omega)]; omega)
  rw [segmentFromOffset_eq, offset_div_selectorWidth, roundf, hfloat, roundAway_intCast]
  ring

@[simp] theorem percentFromOffset_offsetFromSegment :
    l.percentFromOffset (l.offsetFromSegment k) = k := by
  rw [percentFromOffset_eq, offset_div_selectorWidth]
  push_cast
  ring

theorem offsetFromSegment_injective : Function.Injective l.offsetFromSegment := by
  intro k k' h
  have hpercent := congrArg l.percentFromOffset h
  rw [percentFromOffset_offsetFromSegment, percentFromOffset_offsetFromSegment] at hpercent
  exact_mod_cast hpercent

/-- Within the content there is always a segment. -/
theorem segmentFromOffset_mem (h₀ : 0 ≤ o) (h₁ : o ≤ l.leftSpacerWidth) :
    0 ≤ l.segmentFromOffset o ∧ l.segmentFromOffset o < n := by
  have hs := l.selectorWidth_pos
  have hnonneg : 0 ≤ o / l.selectorWidth := div_nonneg h₀ hs.le
  have hle : o / l.selectorWidth ≤ ((n - 1 : Int) : CGFloat) := by
    rw [div_le_iff₀ hs]
    push_cast
    rw [← leftSpacerWidth_eq]
    exact h₁
  have hn := l.count_le
  have htwo := l.two_le
  have hnonneg' : (0 : CGFloat) ≤ toFloat (o / l.selectorWidth) := by
    exact_mod_cast le_toFloat (k := 0) (by decide) (by exact_mod_cast hnonneg)
  have hle' := toFloat_le (by rw [abs_of_nonneg (by omega)]; omega) hle
  have hlow := roundAway_nonneg hnonneg'
  have hhigh := roundAway_le hnonneg' hle'
  rw [segmentFromOffset_eq, roundf]
  omega

/-- The offsets of segments lie within the content. -/
theorem offsetFromSegment_mem (h₀ : 0 ≤ k) (h₁ : k < n) :
    0 ≤ l.offsetFromSegment k ∧ l.offsetFromSegment k ≤ l.leftSpacerWidth := by
  have hs := l.selectorWidth_pos
  have hk₀ : (0 : CGFloat) ≤ k := by exact_mod_cast h₀
  have hk₁ : (k : CGFloat) + 1 ≤ n := by exact_mod_cast h₁
  rw [offsetFromSegment_eq, leftSpacerWidth_eq]
  exact ⟨mul_nonneg (by linarith) hs.le, mul_le_mul_of_nonneg_right (by linarith) hs.le⟩

/-- Where the reports of the scroll view take the selector to be, in segments. -/
def shownPercent (l : Layout n) (offset : CGFloat) : CGFloat :=
  floorf (l.percentFromOffset offset) + toFloat (toFloat (l.percentFromOffset offset) -
    floorf (l.percentFromOffset offset))

theorem factor_mem (percent : CGFloat) : 0 ≤ toFloat (toFloat percent - floorf percent) ∧
    toFloat (toFloat percent - floorf percent) ≤ 1 := by
  have hnonneg := Int.fract_nonneg (toFloat percent)
  have hlt := Int.fract_lt_one (toFloat percent)
  constructor
  · exact_mod_cast le_toFloat (k := 0) (by decide) (by exact_mod_cast hnonneg)
  · exact_mod_cast toFloat_le (k := 1) (by decide) (by exact_mod_cast hlt.le)

theorem percentFromOffset_mem (h₀ : 0 ≤ o) (h₁ : o ≤ l.leftSpacerWidth) :
    0 ≤ l.percentFromOffset o ∧ l.percentFromOffset o ≤ n - 1 := by
  have hs := l.selectorWidth_pos
  have hnonneg := div_nonneg h₀ hs.le
  rw [leftSpacerWidth_eq, ← div_le_iff₀ hs] at h₁
  rw [percentFromOffset_eq]
  constructor <;> linarith

theorem shownPercent_mem (h₀ : 0 ≤ o) (h₁ : o ≤ l.leftSpacerWidth) :
    0 ≤ l.shownPercent o ∧ l.shownPercent o ≤ n - 1 := by
  obtain ⟨hlow, hhigh⟩ := percentFromOffset_mem h₀ h₁
  rw [shownPercent]
  generalize l.percentFromOffset o = percent at *
  obtain ⟨hfactor₀, hfactor₁⟩ := factor_mem percent
  have hn := l.count_le
  have htwo := l.two_le
  have hnonneg : (0 : CGFloat) ≤ toFloat percent := by
    exact_mod_cast le_toFloat (k := 0) (by decide) (by exact_mod_cast hlow)
  have hle : toFloat percent ≤ ((n - 1 : Int) : CGFloat) :=
    toFloat_le (by rw [abs_of_nonneg (by omega)]; omega) (by push_cast; exact hhigh)
  constructor
  · have hfloor : (0 : CGFloat) ≤ floorf percent := by exact_mod_cast Int.floor_nonneg.mpr hnonneg
    linarith
  rcases hle.eq_or_lt with heq | hlt
  · -- at the last segment nothing is left to round
    have hfloor : floorf percent = n - 1 := by rw [floorf, heq, Int.floor_intCast]
    rw [hfloor, heq, sub_self, toFloat, FloatFormat.round_zero]
    push_cast
    linarith
  · have hfloor : floorf percent + 1 ≤ n - 1 := Int.floor_lt.mpr hlt
    have hfloor' : (floorf percent : CGFloat) + 1 ≤ n - 1 := by exact_mod_cast hfloor
    linarith

/-- Within the content that is where the selector is, up to rounding. -/
theorem abs_shownPercent_sub_le (h₀ : 0 ≤ o) (h₁ : o ≤ l.leftSpacerWidth) :
    |l.shownPercent o - l.percentFromOffset o| ≤ n / 2 ^ 24 := by
  obtain ⟨hlow, hhigh⟩ := percentFromOffset_mem h₀ h₁
  rw [shownPercent, floorf]
  generalize l.percentFromOffset o = percent at *
  have htwo : (2 : CGFloat) ≤ n := by exact_mod_cast l.two_le
  have hfract : |toFloat percent - (⌊toFloat percent⌋ : CGFloat)| ≤ 1 :=
    (abs_of_nonneg (Int.fract_nonneg _)).trans_le (Int.fract_lt_one _).le
  have hwhole : |toFloat percent - percent| ≤ (n - 1) / 2 ^ 24 :=
    abs_toFloat_sub_le ((abs_of_nonneg hlow).trans_le hhigh) (by linarith)
  have hrest := abs_toFloat_sub_le hfract le_rfl
  rw [abs_le] at hwhole hrest ⊢
  constructor <;> linarith

end Layout
namespace SegmentedControl

variable {n : Nat} {l : Layout n} {c c' : SegmentedControl n} {index : Int} {o : CGFloat}

/-- How a segment looks at a distance from the selector. -/
def faded (distance : CGFloat) : SegmentView := ⟨1 - hat distance, hat distance⟩

theorem faded_of_abs_le {d : CGFloat} (h : |d| ≤ 1) : faded d = ⟨|d|, 1 - |d|⟩ := by
  rw [faded, hat_of_abs_le h, sub_sub_cancel]

theorem faded_of_one_le_abs {d : CGFloat} (h : 1 ≤ |d|) : faded d = ⟨1, 0⟩ := by
  rw [faded, hat_of_one_le_abs h, sub_zero]

/-! ## One view -/

theorem setView_ok (i : Fin n) {view : SegmentView} :
    c.setView (i : Nat) view = .ok { c with views := Function.update c.views i view } := by
  rw [setView, dif_pos ⟨Int.natCast_nonneg _, by simp⟩]
  simp

theorem setupSegmentViewAtIndex_ok (i : Fin n) {percent : CGFloat} :
    c.setupSegmentViewAtIndex (i : Nat) percent = .ok { c with
      changedViews := if percent < 1 ∧ percent > -1 then c.changedViews.insert (i : Nat)
        else c.changedViews
      views := Function.update c.views i ⟨|percent|, 1 - |percent|⟩ } := by
  unfold setupSegmentViewAtIndex
  split
  · exact setView_ok i
  · exact setView_ok i

theorem deselectSegmentAtIndex_ok (i : Fin n) : c.deselectSegmentAtIndex (i : Nat) =
    .ok { c with views := Function.update c.views i ⟨1, 0⟩ } := by
  rw [deselectSegmentAtIndex, setupSegmentViewAtIndex_ok]
  simp

theorem setupShadowForSegmentAtIndex_ok {isVisible : Bool} (h₀ : 0 ≤ index) (h₁ : index < n) :
    c.setupShadowForSegmentAtIndex index isVisible =
      .ok { c with shadow := some (index, isVisible) } :=
  if_pos ⟨h₀, by omega⟩

theorem exists_fin (h₀ : 0 ≤ index) (h₁ : index < n) : ∃ i : Fin n, index = (i : Nat) :=
  ⟨⟨index.toNat, by omega⟩, (Int.toNat_of_nonneg h₀).symm⟩

/-- Deselecting segments one by one leaves the others alone. -/
theorem deselectAll_ok {indices : List Int} (h : ∀ i ∈ indices, 0 ≤ i ∧ i < n) :
    indices.foldlM deselectSegmentAtIndex c = .ok { c with
      views := fun i => if ((i : Nat) : Int) ∈ indices then ⟨1, 0⟩ else c.views i } := by
  induction indices generalizing c with
  | nil => simp; rfl
  | cons index indices ih =>
    obtain ⟨h₀, h₁⟩ := h index (.head _)
    obtain ⟨j, rfl⟩ := exists_fin h₀ h₁
    rw [List.foldlM_cons, deselectSegmentAtIndex_ok]
    refine (ih fun i hi => h i (.tail _ hi)).trans ?_
    congr 2
    funext i
    by_cases hi : i = j
    · subst hi
      simp
    · simp [Function.update_of_ne hi, Fin.val_ne_of_ne hi]

/-- Setting up a segment that may not be there. -/
theorem setupIfPresent_ok {percent : CGFloat} :
    c.setupIfPresent index percent =
      .ok { c with
        changedViews := if (index ≥ 0 ∧ index < n) ∧ percent < 1 ∧ percent > -1 then
            c.changedViews.insert index
          else c.changedViews
        views := fun i => if ((i : Nat) : Int) = index then ⟨|percent|, 1 - |percent|⟩
          else c.views i } := by
  unfold setupIfPresent
  split
  · rename_i h
    obtain ⟨j, rfl⟩ := exists_fin h.1 h.2
    rw [setupSegmentViewAtIndex_ok]
    simp only [h, and_self, true_and]
    congr 2
    funext i
    by_cases hi : i = j
    · subst hi
      simp
    · simp [Function.update_of_ne hi, Fin.val_ne_of_ne hi]
  · rename_i h
    have hne : ∀ i : Fin n, ((i : Nat) : Int) ≠ index := fun i heq => h (by omega)
    simp [h, hne]

/-! ## Reports of the scroll view -/

/-- The segment and the changed views exist, and a view that has not been changed is deselected. -/
structure Consistent (c : SegmentedControl n) : Prop where
  current : 0 ≤ c.currentSegment ∧ c.currentSegment < n
  changed : ∀ i ∈ c.changedViews, 0 ≤ i ∧ i < n
  unchanged : ∀ i : Fin n, ((i : Nat) : Int) ∉ c.changedViews → c.views i = ⟨1, 0⟩

/-- Moreover every segment looks as its distance from the selector demands, and the gradient is
where the selector demands. -/
structure Sound (l : Layout n) (c : SegmentedControl n) : Prop extends Consistent c where
  views : ∀ i : Fin n, c.views i = faded (l.shownPercent c.contentOffset - (i : Nat))
  gradient : c.gradientView =
    l.setupGradientWithPercent (l.percentFromOffset c.contentOffset / n)

theorem Sound.setInteraction (h : c.Sound l) (isUserInteractionEnabled : Bool) :
    Sound l { c with isUserInteractionEnabled } :=
  { current := h.current
    changed := h.changed
    unchanged := h.unchanged
    views := h.views
    gradient := h.gradient }

/-- The parts of a control that reports of the scroll view leave alone. -/
structure Untouched (c c' : SegmentedControl n) : Prop where
  currentSegment : c'.currentSegment = c.currentSegment
  contentOffset : c'.contentOffset = c.contentOffset
  isUserInteractionEnabled : c'.isUserInteractionEnabled = c.isUserInteractionEnabled

/-- What a report leaves of a view: the two segments the selector is between are faded, the changed
ones deselected, and the others have been deselected before. -/
theorem ite_eq_faded {m k : Int} {factor : CGFloat} {changed : List Int} {view : SegmentView}
    (h₀ : 0 ≤ factor) (h₁ : factor ≤ 1) (h : k ∉ changed → view = ⟨1, 0⟩) :
    (if k = m + 1 then (⟨|factor - 1|, 1 - |factor - 1|⟩ : SegmentView)
      else if k = m then ⟨|factor|, 1 - |factor|⟩
      else if k ∈ changed.filter fun number => number ≠ m ∧ number ≠ m + 1 then ⟨1, 0⟩
      else view) = faded (m + factor - k) := by
  split
  · rename_i hk
    have hd : m + factor - (k : CGFloat) = factor - 1 := by
      rw [hk]
      push_cast
      ring
    rw [hd, faded_of_abs_le (abs_le.mpr ⟨by linarith, by linarith⟩)]
  rename_i hright
  split
  · rename_i hk
    rw [hk, add_sub_cancel_left, faded_of_abs_le (abs_le.mpr ⟨by linarith, h₁⟩)]
  rename_i hleft
  rw [faded_of_one_le_abs (one_le_abs_of_ne h₀ h₁ hleft hright)]
  split
  · rfl
  · rename_i hchanged
    refine h fun hmem => hchanged (List.mem_filter.mpr ⟨hmem, ?_⟩)
    exact decide_eq_true ⟨hleft, hright⟩

/-- A segment that is not deselected is one of the two the selector is between. -/
theorem eq_of_abs_lt {m k : Int} {factor : CGFloat} (h₀ : 0 ≤ factor) (h₁ : factor ≤ 1)
    (h : |m + factor - k| < 1) :
    k = m ∧ factor < 1 ∨ k = m + 1 ∧ factor - 1 > -1 := by
  by_cases hleft : k = m
  · rw [hleft, add_sub_cancel_left] at h
    exact .inl ⟨hleft, (abs_lt.mp h).2⟩
  by_cases hright : k = m + 1
  · refine .inr ⟨hright, ?_⟩
    rw [hright] at h
    have hlow := (abs_lt.mp h).1
    push_cast at hlow
    linarith
  · exact absurd (one_le_abs_of_ne h₀ h₁ hleft hright) (not_le.mpr h)

theorem mem_insertIf {P : Prop} [Decidable P] {indices : List Int} {k : Int} :
    (k ∈ if P then indices.insert index else indices) ↔ (P ∧ k = index) ∨ k ∈ indices := by
  split <;> simp [List.mem_insert_iff, *]

/-- The shadow plays no part in what follows it. -/
theorem hideShadow_ok (h : c.Consistent) : ∃ shadow, c.hideShadow l = .ok { c with shadow } := by
  unfold hideShadow
  split
  · exact ⟨_, setupShadowForSegmentAtIndex_ok h.current.1 h.current.2⟩
  · exact ⟨c.shadow, rfl⟩

theorem scrollViewDidScroll_ok (h : c.Consistent) :
    ∃ c', c.scrollViewDidScroll l = .ok c' ∧ c'.Sound l ∧ Untouched c c' := by
  obtain ⟨shadow, hshadow⟩ := hideShadow_ok (l := l) h
  have hdeselect : ∀ leftIndex rightIndex, ({ c with shadow } : SegmentedControl n).deselectOthers
      leftIndex rightIndex = _ := fun leftIndex rightIndex =>
    deselectAll_ok fun i hi => h.changed i (List.mem_of_mem_filter hi)
  simp only [scrollViewDidScroll, hshadow, bind, Except.bind, hdeselect, setupIfPresent_ok,
    Layout.leftSegmentIndexFromPercentage, Layout.rightSegmentIndexFromPercentage]
  refine ⟨_, rfl, ?_, ⟨rfl, rfl, rfl⟩⟩
  obtain ⟨h₀, h₁⟩ := Layout.factor_mem (l.percentFromOffset c.contentOffset)
  have hshown : l.shownPercent c.contentOffset = _ := Layout.shownPercent.eq_1 ..
  generalize toFloat (toFloat (l.percentFromOffset c.contentOffset) -
    floorf (l.percentFromOffset c.contentOffset)) = factor at *
  generalize floorf (l.percentFromOffset c.contentOffset) = m at *
  have hviews := fun i : Fin n => ite_eq_faded (m := m) h₀ h₁ (h.unchanged i)
  simp only [Int.cast_natCast] at hviews
  refine { current := h.current, changed := ?_, unchanged := ?_, views := ?_, gradient := rfl }
  · intro k hk
    rcases mem_insertIf.mp hk with ⟨⟨hrange, -⟩, rfl⟩ | hk
    · exact hrange
    · rcases mem_insertIf.mp hk with ⟨⟨hrange, -⟩, rfl⟩ | hk
      · exact hrange
      · exact h.changed k hk
  · intro i hi
    simp only [hviews]
    refine faded_of_one_le_abs (not_lt.mp fun hnear => hi ?_)
    rcases eq_of_abs_lt (k := (i : Nat)) h₀ h₁ (by simpa using hnear) with
      ⟨hleft, hlt⟩ | ⟨hright, hpos⟩
    · refine mem_insertIf.mpr (.inr (mem_insertIf.mpr (.inl ⟨⟨?_, hlt, ?_⟩, hleft⟩)))
      · rw [← hleft]
        exact ⟨by omega, by omega⟩
      · linarith
    · refine mem_insertIf.mpr (.inl ⟨⟨?_, ?_, hpos⟩, hright⟩)
      · rw [← hright]
        exact ⟨by omega, by omega⟩
      · linarith
  · intro i
    simp only [hshown]
    exact hviews i

/-! ## Changing the segment -/

theorem setContentOffset_ok (h : c.Consistent) (hsame : o = c.contentOffset → c.Sound l) :
    ∃ c', c.setContentOffset l o = .ok c' ∧ c'.Sound l ∧ c'.currentSegment = c.currentSegment ∧
      c'.contentOffset = o ∧ c'.isUserInteractionEnabled = c.isUserInteractionEnabled := by
  unfold setContentOffset
  split
  · rename_i heq
    exact ⟨c, rfl, hsame heq, rfl, heq.symm, rfl⟩
  · have hmoved : Consistent { c with contentOffset := o } := ⟨h.current, h.changed, h.unchanged⟩
    obtain ⟨c', hok, hsound, hu⟩ := scrollViewDidScroll_ok (l := l) hmoved
    exact ⟨c', hok, hsound, hu.currentSegment, hu.contentOffset, hu.isUserInteractionEnabled⟩

/-- Showing the current segment scrolls to it. -/
theorem showSegment_ok (h : c.Consistent) (hcurrent : index = c.currentSegment)
    (hsame : l.offsetFromSegment index = c.contentOffset → c.Sound l) :
    ∃ c', c.showSegment l index = .ok c' ∧ c'.Sound l ∧ c'.currentSegment = index ∧
      c'.contentOffset = l.offsetFromSegment index ∧
      c'.isUserInteractionEnabled = c.isUserInteractionEnabled := by
  obtain ⟨h₀, h₁⟩ := h.current
  rw [← hcurrent] at h₀ h₁
  have hshadow : Consistent { c with shadow := some (index, true) } :=
    ⟨h.current, h.changed, h.unchanged⟩
  obtain ⟨c', hok, hsound, hsegment, hoffset, henabled⟩ := setContentOffset_ok (l := l)
    (o := l.offsetFromSegment index) hshadow fun heq =>
      { hshadow with views := (hsame heq).views, gradient := (hsame heq).gradient }
  refine ⟨c', ?_, hsound, hsegment.trans hcurrent.symm, hoffset, henabled⟩
  rw [showSegment, if_pos ⟨h₁, h₀⟩, setupShadowForSegmentAtIndex_ok h₀ h₁]
  exact hok

/-- Assigning another segment scrolls to it, assigning the same one does nothing. -/
theorem assignCurrentSegment_ok (h : c.Sound l) (h₀ : 0 ≤ index) (h₁ : index < n) :
    ∃ c', c.assignCurrentSegment l index = .ok c' ∧ c'.Sound l ∧ c'.currentSegment = index ∧
      c'.contentOffset = (if index = c.currentSegment then c.contentOffset
        else l.offsetFromSegment index) ∧
      c'.isUserInteractionEnabled = c.isUserInteractionEnabled := by
  unfold assignCurrentSegment
  by_cases hsame : index = c.currentSegment
  · rw [if_neg (not_not.mpr hsame), if_pos hsame]
    exact ⟨c, rfl, h, hsame.symm, rfl, rfl⟩
  · rw [if_pos hsame, if_neg hsame]
    have hassigned : Consistent { c with currentSegment := index } :=
      ⟨⟨h₀, h₁⟩, h.changed, h.unchanged⟩
    exact showSegment_ok hassigned rfl fun _ =>
      { hassigned with views := h.views, gradient := h.gradient }

theorem changeSegment_ok (h : c.Sound l) (h₀ : 0 ≤ index) (h₁ : index < n) :
    ∃ c', c.changeSegmentToSegmentAtIndex l index = .ok c' ∧ c'.Sound l ∧
      c'.currentSegment = index ∧
      c'.contentOffset = (if index = c.currentSegment then c.contentOffset
        else l.offsetFromSegment index) ∧
      c'.isUserInteractionEnabled = c.isUserInteractionEnabled := by
  obtain ⟨c', hok, hsound, hsegment, hoffset, henabled⟩ := assignCurrentSegment_ok h h₀ h₁
  refine ⟨{ c' with shadow := some (index, true) }, ?_, ?_, hsegment, hoffset, henabled⟩
  · rw [changeSegmentToSegmentAtIndex, hok]
    exact setupShadowForSegmentAtIndex_ok h₀ h₁
  · exact ⟨⟨hsound.current, hsound.changed, hsound.unchanged⟩, hsound.views, hsound.gradient⟩

/-- A scroll view that has come to rest on a segment makes it the current one. -/
theorem changeSegment_of_offset (h : c.Sound l) (h₀ : 0 ≤ index) (h₁ : index < n)
    (ho : c.contentOffset = l.offsetFromSegment index) :
    ∃ c', c.changeSegmentToSegmentAtIndex l (l.segmentFromOffset c.contentOffset) = .ok c' ∧
      c'.Sound l ∧ c'.currentSegment = index ∧ c'.contentOffset = c.contentOffset ∧
      c'.isUserInteractionEnabled = c.isUserInteractionEnabled := by
  rw [ho, Layout.segmentFromOffset_offsetFromSegment h₀ h₁]
  obtain ⟨c', hok, hsound, hsegment, hoffset, henabled⟩ := changeSegment_ok h h₀ h₁
  refine ⟨c', hok, hsound, hsegment, ?_, henabled⟩
  rw [hoffset, ho, ite_self]

theorem scrollViewDidEndDecelerating_ok (h : c.Sound l) (h₀ : 0 ≤ index) (h₁ : index < n)
    (ho : c.contentOffset = l.offsetFromSegment index) :
    ∃ c', c.scrollViewDidEndDecelerating l = .ok c' ∧ c'.Sound l ∧ c'.currentSegment = index ∧
      c'.contentOffset = c.contentOffset ∧
      c'.isUserInteractionEnabled = c.isUserInteractionEnabled := by
  have hwidth : l.width - l.selectorWidth = l.leftSpacerWidth := by
    rw [l.width_eq, l.leftSpacerWidth_eq]
    ring
  obtain ⟨hlow, hhigh⟩ := l.offsetFromSegment_mem h₀ h₁
  rw [scrollViewDidEndDecelerating, if_neg]
  · exact changeSegment_of_offset h h₀ h₁ ho
  · rw [hwidth, ho]
    rintro (hlt | hgt)
    · exact absurd hlow (not_le.mpr hlt)
    · exact absurd hhigh (not_le.mpr hgt)

theorem scrollViewDidEndScrollingAnimation_ok (h : c.Sound l) (h₀ : 0 ≤ index) (h₁ : index < n)
    (ho : c.contentOffset = l.offsetFromSegment index) :
    ∃ c', c.scrollViewDidEndScrollingAnimation l = .ok c' ∧ c'.Sound l ∧
      c'.currentSegment = index ∧ c'.contentOffset = c.contentOffset ∧
      c'.isUserInteractionEnabled = true := by
  obtain ⟨c', hok, hsound, hsegment, hoffset, -⟩ := changeSegment_of_offset h h₀ h₁ ho
  refine ⟨{ c' with isUserInteractionEnabled := true }, ?_, hsound.setInteraction true, hsegment,
    hoffset, rfl⟩
  rw [scrollViewDidEndScrollingAnimation, hok]
  rfl

theorem tapWasRecognized_ok {x : CGFloat}
    (h : 0 ≤ l.segmentFromTapPoint x ∧ l.segmentFromTapPoint x < n) :
    c.tapWasRecognized l x = .ok ({ c with isUserInteractionEnabled := false },
      some (l.offsetFromSegment (l.segmentFromTapPoint x))) := by
  rw [tapWasRecognized, setCurrentSegmentIndex, if_pos ⟨h.2, h.1⟩]
  rfl

theorem tapWasRecognized_error {x : CGFloat}
    (h : ¬ (0 ≤ l.segmentFromTapPoint x ∧ l.segmentFromTapPoint x < n)) :
    c.tapWasRecognized l x = .error .assertionFailure := by
  rw [tapWasRecognized, setCurrentSegmentIndex, if_neg fun hindex => h ⟨hindex.2, hindex.1⟩]

/-! ## Loading -/

theorem resetAll_ok {indices : List Nat} (h : ∀ i ∈ indices, i < n) :
    indices.foldlM (fun c (i : Nat) => do
      let c ← resetSegmentViewAtIndex c i
      c.deselectSegmentAtIndex i) c = .ok { c with
        views := fun i => if i.val ∈ indices then ⟨1, 0⟩ else c.views i } := by
  induction indices generalizing c with
  | nil => simp; rfl
  | cons index indices ih =>
    have hreset : c.resetSegmentViewAtIndex index = _ := setView_ok ⟨index, h index (.head _)⟩
    have hdeselect := deselectSegmentAtIndex_ok (c := { c with
      views := Function.update c.views ⟨index, h index (.head _)⟩ ⟨1, 1⟩ })
      ⟨index, h index (.head _)⟩
    rw [List.foldlM_cons, hreset]
    simp only [bind, Except.bind] at hdeselect ⊢
    rw [hdeselect]
    refine (ih fun i hi => h i (.tail _ hi)).trans ?_
    congr 2
    funext i
    by_cases hi : i = ⟨index, h index (.head _)⟩
    · subst hi
      simp
    · have hne : i.val ≠ index := fun heq => hi (Fin.ext heq)
      simp [Function.update_of_ne hi, hne]

theorem updateTransitionStyle_ok (h : 0 < n) : ∃ c : SegmentedControl n,
    updateTransitionStyle {} = .ok c ∧ c.Consistent ∧ c.currentSegment = 0 ∧
      c.contentOffset = 0 ∧ c.isUserInteractionEnabled = true := by
  have hreset := resetAll_ok (n := n) (c := {}) fun i (hi : i ∈ List.range n) =>
    List.mem_range.mp hi
  have hselect : ∀ c : SegmentedControl n, c.selectSegmentAtIndex 0 = _ := fun c =>
    setupSegmentViewAtIndex_ok (n := n) ⟨0, h⟩
  simp only [updateTransitionStyle, bind, Except.bind] at hreset ⊢
  rw [hreset]
  simp only [hselect]
  refine ⟨_, rfl, ⟨⟨le_rfl, Int.natCast_pos.mpr h⟩, ?_, ?_⟩, rfl, rfl, rfl⟩
  · intro i hi
    obtain rfl : i = 0 := by simpa using hi
    exact ⟨le_rfl, Int.natCast_pos.mpr h⟩
  · intro i hi
    have hne : i ≠ ⟨0, h⟩ := by
      rintro rfl
      exact hi (by simp)
    simp [Function.update_of_ne hne]

/-- A fresh control loads: all segments deselected but the first, which the selector is over. -/
theorem loaded_ok (l : Layout n) : ∃ c, loaded l = .ok c ∧ c.Sound l ∧ c.currentSegment = 0 ∧
    c.contentOffset = l.offsetFromSegment 0 ∧ c.isUserInteractionEnabled = true := by
  have hn : 0 < n := lt_of_lt_of_le two_pos l.two_le
  obtain ⟨c, hok, hc, hcurrent, hoffset, henabled⟩ := updateTransitionStyle_ok hn
  have hpos : l.offsetFromSegment 0 ≠ c.contentOffset := by
    have hone := l.one_lt_count
    rw [hoffset, Layout.offsetFromSegment_eq]
    exact (mul_pos (by push_cast; linarith) l.selectorWidth_pos).ne'
  have hshadow : Consistent { c with shadow := some (0, true) } :=
    ⟨hc.current, hc.changed, hc.unchanged⟩
  obtain ⟨c', hok', hsound, hsegment, hoffset', henabled'⟩ := setContentOffset_ok (l := l)
    (o := l.offsetFromSegment 0) hshadow fun heq => absurd heq hpos
  refine ⟨c', ?_, hsound, hsegment.trans hcurrent, hoffset', henabled'.trans henabled⟩
  have hassign : c.assignCurrentSegment l 0 = .ok c := if_neg (by simp [hcurrent])
  have hset : c.setCurrentSegmentIndex l 0 false = .ok (c', none) := by
    rw [setCurrentSegmentIndex, if_pos ⟨Int.natCast_pos.mpr hn, le_rfl⟩]
    simp only [hassign, bind, Except.bind,
      setupShadowForSegmentAtIndex_ok le_rfl (Int.natCast_pos.mpr hn), hok']
    rfl
  rw [loaded, hok]
  simp only [bind, Except.bind, updateLayoutDependantValues, hcurrent, hassign, hset]
  rfl

end SegmentedControl
end RLFinder
