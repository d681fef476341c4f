import Mathlib.Algebra.BigOperators.Fin
import Mathlib.Algebra.Order.Floor.Ring
import Mathlib.Algebra.Order.Round
import Mathlib.Tactic.FieldSimp
import Mathlib.Tactic.Linarith
import Mathlib.Tactic.Ring

/-!
# Positions between grid points

A position on a grid is a number; the grid points are the integers. It snaps to the nearest one,
halves away from zero (`roundAway`) or to the even one (`roundEven`), and lights up the two points
around it, each by how close it is (`hat`). Within the grid the lights always add up to one
(`sum_hat`).
-/

variable {K : Type*} [Field K] [LinearOrder K] [IsStrictOrderedRing K] [FloorRing K] {x : K}

/-! ## Snapping -/

/-- The nearest integer, halves away from zero. -/
def roundAway (x : K) : ℤ := if 0 ≤ x then ⌊x + 1 / 2⌋ else ⌈x - 1 / 2⌉

omit [IsStrictOrderedRing K] in
theorem roundAway_of_nonneg (h : 0 ≤ x) : roundAway x = ⌊x + 1 / 2⌋ := if_pos h

theorem abs_sub_roundAway_le : |x - roundAway x| ≤ 1 / 2 := by
  unfold roundAway
  rw [abs_le]
  split
  · have hle := Int.floor_le (x + 1 / 2)
    have hlt := Int.lt_floor_add_one (x + 1 / 2)
    constructor <;> linarith
  · have hle := Int.le_ceil (x - 1 / 2)
    have hlt := Int.ceil_lt_add_one (x - 1 / 2)
    constructor <;> linarith

@[simp] theorem roundAway_intCast (k : ℤ) : roundAway (k : K) = k := by
  have h : |((k - roundAway (k : K) : ℤ) : K)| < 1 := by
    rw [Int.cast_sub]
    exact abs_sub_roundAway_le.trans_lt one_half_lt_one
  rw [← Int.cast_abs, ← Int.cast_one, Int.cast_lt, Int.abs_lt_one_iff] at h
  omega

theorem roundAway_nonneg (h : 0 ≤ x) : 0 ≤ roundAway x := by
  rw [roundAway_of_nonneg h]
  exact Int.floor_nonneg.mpr (by linarith [one_half_pos (α := K)])

theorem roundAway_le {k : ℤ} (h : 0 ≤ x) (hk : x ≤ k) : roundAway x ≤ k := by
  rw [roundAway_of_nonneg h, ← Int.lt_add_one_iff, Int.floor_lt, Int.cast_add, Int.cast_one]
  linarith [one_half_lt_one (α := K)]

/-- The nearest integer, halves to the even one. -/
def roundEven (x : K) : ℤ :=
  if x - ⌊x⌋ < 1 / 2 ∨ x - ⌊x⌋ = 1 / 2 ∧ ⌊x⌋ % 2 = 0 then ⌊x⌋ else ⌊x⌋ + 1

theorem abs_roundEven_sub_le : |roundEven x - x| ≤ 1 / 2 := by
  have hle := Int.floor_le x
  have hlt := Int.lt_floor_add_one x
  unfold roundEven
  rw [abs_le]
  split
  · rename_i h
    have hhalf : x - ⌊x⌋ ≤ 1 / 2 := h.elim le_of_lt fun h => h.1.le
    constructor <;> linarith
  · rename_i h
    have hhalf : 1 / 2 ≤ x - ⌊x⌋ := not_lt.mp fun hlt => h (.inl hlt)
    push_cast
    constructor <;> linarith

omit [IsStrictOrderedRing K] in
theorem le_roundEven {k : ℤ} (h : (k : K) ≤ x) : k ≤ roundEven x := by
  have hle : k ≤ ⌊x⌋ := Int.le_floor.mpr h
  unfold roundEven
  split <;> omega

theorem roundEven_le {k : ℤ} (h : x ≤ k) : roundEven x ≤ k := by
  unfold roundEven
  rcases h.eq_or_lt with rfl | hlt
  · have hhalf : (k : K) - ⌊(k : K)⌋ < 1 / 2 := by
      rw [Int.floor_intCast, sub_self]
      exact one_half_pos
    rw [if_pos (.inl hhalf), Int.floor_intCast]
  · have hfloor : ⌊x⌋ < k := Int.floor_lt.mpr hlt
    split <;> omega

/-! ## Lighting up -/

/-- How much of its light a point at this distance gets. -/
def hat (x : K) : K := max 0 (1 - |x|)

omit [FloorRing K] in
theorem hat_of_abs_le (h : |x| ≤ 1) : hat x = 1 - |x| := max_eq_right (by linarith)

omit [FloorRing K] in
theorem hat_of_one_le_abs (h : 1 ≤ |x|) : hat x = 0 := max_eq_left (by linarith)

omit [FloorRing K] in
/-- The grid points that are not next to a position are at least one away. -/
theorem one_le_abs_of_ne {m k : ℤ} (h₀ : 0 ≤ x) (h₁ : x ≤ 1) (hleft : k ≠ m) (hright : k ≠ m + 1) :
    1 ≤ |m + x - k| := by
  rcases lt_or_gt_of_ne hleft with hlt | hgt
  · have hle : (k : K) + 1 ≤ m := by exact_mod_cast hlt
    exact le_abs.mpr (.inl (by linarith))
  · have hle : (m : K) + 2 ≤ k := by exact_mod_cast (by omega : m + 2 ≤ k)
    exact le_abs.mpr (.inr (by linarith))

/-- Between the first and the last point of a grid, the lights of all points add up to one. -/
theorem sum_hat {n : ℕ} (h₀ : 0 ≤ x) (h₁ : x ≤ n) :
    ∑ i : Fin (n + 1), hat (x - (i : ℕ)) = 1 := by
  induction n with
  | zero =>
    have hx : x = 0 := le_antisymm (by simpa using h₁) h₀
    simp [hx, hat]
  | succ n ih =>
    rw [Fin.sum_univ_castSucc]
    simp only [Fin.val_castSucc, Fin.val_last, Nat.cast_add, Nat.cast_one] at h₁ ⊢
    rcases le_or_gt x n with hle | hgt
    · rw [ih hle, hat_of_one_le_abs (le_abs.mpr (.inr (by linarith))), add_zero]
    · -- only the last two points are near
      have hsum : ∑ i : Fin (n + 1), hat (x - (i : ℕ)) = hat (x - n) := by
        refine (Finset.sum_eq_single (Fin.last n) (fun i _ hi => ?_) (by simp)).trans (by simp)
        have hlt : (i : ℕ) + 1 ≤ n := Fin.val_lt_last hi
        have hle : ((i : ℕ) : K) + 1 ≤ n := by exact_mod_cast hlt
        exact hat_of_one_le_abs (le_abs.mpr (.inl (by linarith)))
      rw [hsum, hat_of_abs_le (abs_le.mpr ⟨by linarith, by linarith⟩),
        hat_of_abs_le (abs_le.mpr ⟨by linarith, by linarith⟩), abs_of_nonneg (by linarith),
        abs_of_nonpos (by linarith)]
      ring
