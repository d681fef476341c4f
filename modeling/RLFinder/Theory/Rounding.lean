import Mathlib.Data.Int.Log
import RLFinder.Theory.Grid

/-!
# Rounding to floating-point numbers

A format keeps the numbers `m * radix ^ e` with `|m| ≤ radix ^ precision` and `minExponent ≤ e`; the
largest exponent is left open. Every number rounds to a nearest one of them, halves to the even
multiple of the last place (`FloatFormat.round`). No number rounds past a representable one
(`round_le`, `le_round`), so those stay as they are (`round_eq_self`), and the error is bounded
relative to the number until the format runs out of exponents (`abs_round_sub_le`).
-/

structure FloatFormat where
  radix : ℕ
  precision : ℕ
  minExponent : ℤ
  one_lt_radix : 1 < radix
  precision_pos : 0 < precision

namespace FloatFormat

variable {K : Type*} [Field K] [LinearOrder K] [IsStrictOrderedRing K] [FloorRing K]
  {f : FloatFormat} {x r : K} {e : ℤ}

/-- The exponent of the last place of the numbers around this one. -/
def exponent (f : FloatFormat) (x : K) : ℤ :=
  max (Int.log f.radix |x| + 1 - f.precision) f.minExponent

/-- The last place. -/
def ulp (f : FloatFormat) (x : K) : K := f.radix ^ f.exponent x

def round (f : FloatFormat) (x : K) : K := roundEven (x / f.ulp x) * f.ulp x

def Representable (f : FloatFormat) (x : K) : Prop :=
  ∃ m e : ℤ, |m| ≤ f.radix ^ f.precision ∧ f.minExponent ≤ e ∧ x = m * f.radix ^ e

theorem radix_pos (f : FloatFormat) : (0 : K) < f.radix := by
  exact_mod_cast one_pos.trans f.one_lt_radix

theorem one_le_radix (f : FloatFormat) : (1 : K) ≤ f.radix := by exact_mod_cast f.one_lt_radix.le

theorem radix_zpow_add {e' : ℤ} : (f.radix : K) ^ (e + e') = f.radix ^ e * f.radix ^ e' :=
  zpow_add₀ f.radix_pos.ne' ..

theorem radix_zpow_pos : (0 : K) < f.radix ^ e := zpow_pos f.radix_pos e

theorem radix_zpow_le {e' : ℤ} (h : e ≤ e') : (f.radix : K) ^ e ≤ f.radix ^ e' :=
  zpow_le_zpow_right₀ f.one_le_radix h

theorem ulp_pos : 0 < f.ulp x := radix_zpow_pos

@[simp] theorem round_zero : f.round (0 : K) = 0 := by
  have h : roundEven (0 : K) = 0 :=
    le_antisymm (roundEven_le (by simp)) (le_roundEven (by simp))
  rw [round, zero_div, h, Int.cast_zero, zero_mul]

/-! ## Multiples of the last place -/

theorem round_le_mul {k : ℤ} (h : x ≤ k * f.ulp x) : f.round x ≤ k * f.ulp x :=
  mul_le_mul_of_nonneg_right
    (by exact_mod_cast roundEven_le ((div_le_iff₀ ulp_pos).mpr h)) ulp_pos.le

theorem mul_le_round {k : ℤ} (h : k * f.ulp x ≤ x) : k * f.ulp x ≤ f.round x :=
  mul_le_mul_of_nonneg_right
    (by exact_mod_cast le_roundEven ((le_div_iff₀ ulp_pos).mpr h)) ulp_pos.le

/-- The largest power of the radix below a number, if that is a multiple of the last place. -/
theorem zpow_log_eq (h : f.exponent x = Int.log f.radix |x| + 1 - f.precision) :
    (f.radix : K) ^ Int.log f.radix |x| =
      ((f.radix ^ (f.precision - 1) : ℤ) : K) * f.ulp x := by
  have hp := f.precision_pos
  rw [ulp, h, Int.cast_pow, Int.cast_natCast, ← zpow_natCast, ← radix_zpow_add]
  congr 1
  omega

/-- A representable number is a multiple of the last place of any other, or a multiple lies between
the two in magnitude. -/
theorem Representable.multiple (h : f.Representable r) (hx : x ≠ 0) :
    (∃ k : ℤ, r = k * f.ulp x) ∨ ∃ k : ℤ, |r| ≤ k * f.ulp x ∧ k * f.ulp x ≤ |x| := by
  obtain ⟨m, e, hm, he, rfl⟩ := h
  rcases le_or_gt (f.exponent x) e with hle | hgt
  · refine .inl ⟨m * f.radix ^ (e - f.exponent x).toNat, ?_⟩
    rw [ulp, Int.cast_mul, Int.cast_pow, Int.cast_natCast, mul_assoc, ← zpow_natCast,
      ← radix_zpow_add]
    congr 2
    omega
  · have hexponent : f.exponent x = Int.log f.radix |x| + 1 - f.precision := by
      unfold exponent at hgt ⊢
      omega
    have hm' : |(m : K)| ≤ f.radix ^ (f.precision : ℤ) := by
      rw [← Int.cast_abs, zpow_natCast]
      exact_mod_cast hm
    have hpos : (0 : K) < f.radix ^ e := radix_zpow_pos
    refine .inr ⟨f.radix ^ (f.precision - 1), ?_, ?_⟩
    · rw [← zpow_log_eq hexponent, abs_mul, abs_of_pos hpos]
      calc |(m : K)| * f.radix ^ e ≤ f.radix ^ (f.precision : ℤ) * f.radix ^ e :=
            mul_le_mul_of_nonneg_right hm' hpos.le
        _ = f.radix ^ (f.precision + e) := radix_zpow_add.symm
        _ ≤ f.radix ^ Int.log f.radix |x| := radix_zpow_le (by omega)
    · rw [← zpow_log_eq hexponent]
      exact Int.zpow_log_le_self f.one_lt_radix (abs_pos.mpr hx)

/-! ## Representable numbers -/

/-- No number rounds past a representable one above it. -/
theorem round_le (hr : f.Representable r) (h : x ≤ r) : f.round x ≤ r := by
  rcases eq_or_ne x 0 with rfl | hx
  · rwa [round_zero]
  rcases hr.multiple hx with ⟨k, rfl⟩ | ⟨k, hrk, hkx⟩
  · exact round_le_mul h
  rcases le_or_gt 0 x with hpos | hneg
  · rw [abs_of_nonneg hpos] at hkx
    exact (round_le_mul (h.trans ((le_abs_self r).trans hrk))).trans (hkx.trans h)
  · rw [abs_of_neg hneg] at hkx
    have hle : x ≤ ((-k : ℤ) : K) * f.ulp x := by
      push_cast
      linarith
    refine (round_le_mul hle).trans ?_
    push_cast
    linarith [neg_abs_le r]

/-- No number rounds past a representable one below it. -/
theorem le_round (hr : f.Representable r) (h : r ≤ x) : r ≤ f.round x := by
  rcases eq_or_ne x 0 with rfl | hx
  · rwa [round_zero]
  rcases hr.multiple hx with ⟨k, rfl⟩ | ⟨k, hrk, hkx⟩
  · exact mul_le_round h
  rcases le_or_gt 0 x with hpos | hneg
  · rw [abs_of_nonneg hpos] at hkx
    exact ((le_abs_self r).trans hrk).trans (mul_le_round hkx)
  · rw [abs_of_neg hneg] at hkx
    have hle : ((-k : ℤ) : K) * f.ulp x ≤ x := by
      push_cast
      linarith [neg_abs_le r]
    refine le_trans ?_ (mul_le_round hle)
    push_cast
    linarith

theorem round_eq_self (hr : f.Representable r) : f.round r = r :=
  le_antisymm (round_le hr le_rfl) (le_round hr le_rfl)

/-! ## The error -/

/-- A number is at most half its last place away from what it rounds to. -/
theorem abs_round_sub_le_ulp : |f.round x - x| ≤ f.ulp x / 2 := by
  have hulp := ulp_pos (f := f) (x := x)
  have hx : x = x / f.ulp x * f.ulp x := (div_mul_cancel₀ x hulp.ne').symm
  have hround : f.round x - x = (roundEven (x / f.ulp x) - x / f.ulp x) * f.ulp x := by
    rw [sub_mul, ← hx, round]
  calc |f.round x - x| = |roundEven (x / f.ulp x) - x / f.ulp x| * f.ulp x := by
        rw [hround, abs_mul, abs_of_pos hulp]
    _ ≤ 1 / 2 * f.ulp x := mul_le_mul_of_nonneg_right abs_roundEven_sub_le hulp.le
    _ = f.ulp x / 2 := by ring

theorem ulp_le (hx : x ≠ 0) :
    f.ulp x ≤ max (|x| * f.radix / f.radix ^ f.precision) (f.radix ^ f.minExponent) := by
  rw [ulp, exponent]
  rcases max_choice (Int.log f.radix |x| + 1 - f.precision) f.minExponent with h | h
  · refine le_max_of_le_left ?_
    rw [h, zpow_sub₀ f.radix_pos.ne', radix_zpow_add, zpow_one, zpow_natCast]
    refine div_le_div_of_nonneg_right ?_ (pow_pos f.radix_pos _).le
    exact mul_le_mul_of_nonneg_right
      (Int.zpow_log_le_self f.one_lt_radix (abs_pos.mpr hx)) f.radix_pos.le
  · rw [h]
    exact le_max_right _ _

theorem abs_round_sub_le : |f.round x - x| ≤
    max (|x| * f.radix / f.radix ^ f.precision) (f.radix ^ f.minExponent) / 2 := by
  rcases eq_or_ne x 0 with rfl | hx
  · rw [round_zero, sub_zero, abs_zero]
    exact div_nonneg (le_max_of_le_right radix_zpow_pos.le) two_pos.le
  · exact abs_round_sub_le_ulp.trans (div_le_div_of_nonneg_right (ulp_le hx) two_pos.le)

end FloatFormat
