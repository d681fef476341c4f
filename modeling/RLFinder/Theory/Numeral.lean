import Mathlib.Data.Nat.Digits.Defs

/-!
# Numerals and bytes

Reading a list of digits, the most significant first, and taking a byte out of a number with a mask
and a shift.
-/

namespace Numeral

variable {b : Nat} {digits : List Nat}

/-- The value of a list of digits in base `b`, the most significant first. -/
def value (b : Nat) (digits : List Nat) : Nat := digits.foldl (fun n d => b * n + d) 0

theorem value_eq_ofDigits : value b digits = Nat.ofDigits b digits.reverse := by
  rw [Nat.ofDigits_eq_foldr, List.foldr_reverse, value]
  simp only [Nat.cast_id, Nat.add_comm]

theorem value_lt (hb : 1 < b) (h : ∀ d ∈ digits, d < b) : value b digits < b ^ digits.length := by
  rw [value_eq_ofDigits, ← List.length_reverse]
  exact Nat.ofDigits_lt_base_pow_length hb fun d hd => h d (List.mem_reverse.mp hd)

/-- A mask of eight bits and a shift take out one byte. -/
theorem and_shiftRight_eq_byte (n k : Nat) : (n &&& 255 <<< k) >>> k = n / 2 ^ k % 256 := by
  rw [Nat.shiftRight_and_distrib, Nat.shiftLeft_shiftRight, Nat.shiftRight_eq_div_pow]
  exact Nat.and_two_pow_sub_one_eq_mod _ 8

end Numeral
