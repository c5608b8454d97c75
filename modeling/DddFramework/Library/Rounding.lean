import Mathlib.Data.Int.Log
import Mathlib.Data.Rat.Floor
import Mathlib.Algebra.Order.Ring.Rat
import Mathlib.Tactic.FieldSimp
import Mathlib.Tactic.Linarith

/-! Rationals rounded to a number of significant binary digits: to the nearest such
number, and from halfway to the even one. Whole numbers of so many digits are kept,
and rounding takes nothing across one of them. Exponents are not bounded. -/
namespace DddFramework.Library

/-- The nearest whole number, the even one of two. -/
def nearest (x : ℚ) : ℤ :=
  if x - ⌊x⌋ < 1 / 2 then ⌊x⌋
  else if 1 / 2 < x - ⌊x⌋ then ⌊x⌋ + 1
  else if ⌊x⌋ % 2 = 0 then ⌊x⌋
  else ⌊x⌋ + 1

theorem nearest_intCast (n : ℤ) : nearest n = n := by
  unfold nearest
  rw [Int.floor_intCast, sub_self, if_pos (by norm_num)]

theorem floor_le_nearest (x : ℚ) : ⌊x⌋ ≤ nearest x := by
  unfold nearest
  split_ifs <;> omega

theorem abs_nearest_sub_le (x : ℚ) : |(nearest x : ℚ) - x| ≤ 1 / 2 := by
  have hfloor := Int.floor_le x
  have hnext := Int.lt_floor_add_one x
  rw [abs_le]
  unfold nearest
  split_ifs <;> push_cast <;> constructor <;> linarith

section
variable (digits : ℕ)

/-- The distance of two neighbours among the numbers of so many digits, at this size. -/
def spacing (x : ℚ) : ℚ := 2 ^ (Int.log 2 |x| + 1 - digits)

def round (x : ℚ) : ℚ := nearest (x / spacing digits x) * spacing digits x

theorem spacing_pos (x : ℚ) : 0 < spacing digits x := zpow_pos two_pos _

variable {digits} {x : ℚ}

theorem round_eq_self {count : ℤ} (h : x = count * spacing digits x) : round digits x = x := by
  have hcount : x / spacing digits x = count := by
    rw [div_eq_iff (spacing_pos digits x).ne']
    exact h
  unfold round
  rw [hcount, nearest_intCast]
  exact h.symm

theorem le_round_of_multiple {count : ℤ} (h : count * spacing digits x ≤ x) :
    count * spacing digits x ≤ round digits x := by
  have hfloor : count ≤ ⌊x / spacing digits x⌋ := by
    rw [Int.le_floor, le_div_iff₀ (spacing_pos digits x)]
    exact h
  unfold round
  apply mul_le_mul_of_nonneg_right _ (spacing_pos digits x).le
  exact_mod_cast hfloor.trans (floor_le_nearest _)

theorem two_zpow_of_nonneg {exponent : ℤ} (h : 0 ≤ exponent) :
    (2 : ℚ) ^ exponent = ((2 ^ exponent.toNat : ℤ) : ℚ) := by
  obtain ⟨count, rfl⟩ := Int.eq_ofNat_of_zero_le h
  simp

theorem exists_multiple (n : ℤ) (h : Int.log 2 |x| + 1 ≤ digits) :
    ∃ count : ℤ, (n : ℚ) = count * spacing digits x := by
  refine ⟨n * 2 ^ (digits - (Int.log 2 |x| + 1)).toNat, ?_⟩
  have hpower := two_zpow_of_nonneg (show 0 ≤ (digits : ℤ) - (Int.log 2 |x| + 1) by omega)
  rw [Int.cast_mul, ← hpower, spacing, mul_assoc, ← zpow_add₀ two_ne_zero]
  simp

theorem exists_multiple_log (hdigits : 0 < digits) :
    ∃ count : ℤ, (2 : ℚ) ^ Int.log 2 |x| = count * spacing digits x := by
  have hpower := two_zpow_of_nonneg (show 0 ≤ (digits : ℤ) - 1 by omega)
  refine ⟨2 ^ ((digits : ℤ) - 1).toNat, ?_⟩
  rw [← hpower, spacing, ← zpow_add₀ two_ne_zero]
  congr 1
  omega

theorem zpow_log_le_abs (hx : x ≠ 0) : (2 : ℚ) ^ Int.log 2 |x| ≤ |x| := by
  have hlog := Int.zpow_log_le_self Nat.one_lt_two (abs_pos.mpr hx)
  exact_mod_cast hlog

theorem pow_le_zpow_log (h : (digits : ℤ) ≤ Int.log 2 |x|) :
    (2 : ℚ) ^ digits ≤ 2 ^ Int.log 2 |x| := by
  have hpower := zpow_le_zpow_right₀ (one_le_two (α := ℚ)) h
  exact_mod_cast hpower

theorem log_eq_of_abs_eq (h : |x| = 2 ^ digits) : Int.log 2 |x| = digits := by
  have hlog := Int.log_zpow (R := ℚ) Nat.one_lt_two digits
  rw [h]
  exact_mod_cast hlog

theorem round_intCast (hdigits : 0 < digits) {n : ℤ} (h : |n| ≤ 2 ^ digits) :
    round digits n = n := by
  by_cases hlog : Int.log 2 |(n : ℚ)| + 1 ≤ digits
  · obtain ⟨count, hcount⟩ := exists_multiple n hlog
    exact round_eq_self hcount
  · have hn : (n : ℚ) ≠ 0 := by
      intro hzero
      rw [hzero, abs_zero, Int.log_zero_right] at hlog
      omega
    have hsize := (pow_le_zpow_log (show (digits : ℤ) ≤ _ by omega)).trans (zpow_log_le_abs hn)
    have habs : |(n : ℚ)| = 2 ^ digits := le_antisymm (by exact_mod_cast h) hsize
    obtain ⟨count, hcount⟩ := @exists_multiple_log digits (n : ℚ) hdigits
    rw [log_eq_of_abs_eq habs, zpow_natCast, ← habs] at hcount
    rcases abs_choice (n : ℚ) with hsign | hsign <;> rw [hsign] at hcount
    · exact round_eq_self hcount
    · apply @round_eq_self digits n (-count)
      push_cast
      linarith

theorem le_round (hdigits : 0 < digits) {n : ℤ} (h : |n| ≤ 2 ^ digits) (hle : n ≤ x) :
    n ≤ round digits x := by
  by_cases hlog : Int.log 2 |x| + 1 ≤ digits
  · obtain ⟨count, hcount⟩ := exists_multiple n hlog
    rw [hcount] at hle ⊢
    exact le_round_of_multiple hle
  · have hx : x ≠ 0 := by
      rintro rfl
      rw [abs_zero, Int.log_zero_right] at hlog
      omega
    have hpower := pow_le_zpow_log (show (digits : ℤ) ≤ Int.log 2 |x| by omega)
    have hsize := zpow_log_le_abs hx
    have hbound : |(n : ℚ)| ≤ 2 ^ digits := by exact_mod_cast h
    rcases le_or_gt 0 x with hpos | hneg
    · obtain ⟨count, hcount⟩ := @exists_multiple_log digits x hdigits
      rw [abs_of_nonneg hpos] at hsize hpower hcount
      calc (n : ℚ) ≤ 2 ^ digits := (le_abs_self _).trans hbound
        _ ≤ 2 ^ Int.log 2 x := hpower
        _ = count * spacing digits x := hcount
        _ ≤ round digits x := le_round_of_multiple (hcount ▸ hsize)
    · have hsame : x = n := by
        rw [abs_of_neg hneg] at hsize hpower
        have hlow := (abs_le.mp hbound).1
        linarith
      rw [hsame, round_intCast hdigits h]

theorem abs_round_sub_le : |round digits x - x| ≤ |x| / 2 ^ digits := by
  by_cases hx : x = 0
  · rw [hx, abs_zero, zero_div]
    unfold round
    rw [zero_div, show nearest 0 = 0 from nearest_intCast 0]
    simp
  · have hspacing := spacing_pos digits x
    have hscaled : round digits x - x =
        (nearest (x / spacing digits x) - x / spacing digits x) * spacing digits x := by
      unfold round
      field_simp
    have hhalf : 1 / 2 * spacing digits x = 2 ^ Int.log 2 |x| / 2 ^ digits := by
      rw [spacing, zpow_sub₀ two_ne_zero, zpow_add_one₀ two_ne_zero, zpow_natCast]
      field_simp
    calc |round digits x - x|
        = |(nearest (x / spacing digits x) : ℚ) - x / spacing digits x| * spacing digits x := by
          rw [hscaled, abs_mul, abs_of_pos hspacing]
      _ ≤ 1 / 2 * spacing digits x :=
          mul_le_mul_of_nonneg_right (abs_nearest_sub_le _) hspacing.le
      _ = 2 ^ Int.log 2 |x| / 2 ^ digits := hhalf
      _ ≤ |x| / 2 ^ digits := by
          apply div_le_div_of_nonneg_right (zpow_log_le_abs hx)
          positivity

/-- The floor of a rounded quotient is the quotient of whole numbers: from below the
next whole number, half a unit of the last digit does not reach it. -/
theorem floor_round_div (hdigits : 0 < digits) {a b : ℤ} (hb : 0 < b) (h : |a| < 2 ^ digits) :
    ⌊round digits (a / b : ℚ)⌋ = a / b := by
  have hpos : (0 : ℚ) < b := by exact_mod_cast hb
  have hquotient : |a / b| ≤ 2 ^ digits := (Int.abs_ediv_le_abs a b).trans h.le
  rw [Int.floor_eq_iff]
  constructor
  · apply le_round hdigits hquotient
    rw [le_div_iff₀ hpos]
    exact_mod_cast Int.ediv_mul_le a hb.ne'
  · have herror := (abs_le.mp (@abs_round_sub_le digits (a / b : ℚ))).2
    have hunit : |(a / b : ℚ)| / 2 ^ digits < 1 / b := by
      rw [abs_div, abs_of_pos hpos, div_div, div_lt_div_iff₀ (by positivity) hpos, one_mul,
        mul_comm]
      exact mul_lt_mul_of_pos_left (by exact_mod_cast h) hpos
    have hnext : (a / b : ℚ) + 1 / b ≤ (a / b : ℤ) + 1 := by
      rw [← add_div, div_le_iff₀ hpos]
      have hlt := Int.lt_ediv_add_one_mul_self a hb
      exact_mod_cast hlt
    linarith

theorem exists_int_round (n : ℤ) : ∃ m : ℤ, round digits n = m := by
  by_cases hlog : Int.log 2 |(n : ℚ)| + 1 ≤ digits
  · obtain ⟨count, hcount⟩ := exists_multiple n hlog
    exact ⟨n, round_eq_self hcount⟩
  · have hpower := two_zpow_of_nonneg (show 0 ≤ Int.log 2 |(n : ℚ)| + 1 - digits by omega)
    refine ⟨nearest (n / spacing digits n) * 2 ^ (Int.log 2 |(n : ℚ)| + 1 - digits).toNat, ?_⟩
    rw [Int.cast_mul, ← hpower]
    rfl

end
end DddFramework.Library
