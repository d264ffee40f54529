/-
  Rounding whole numbers to 53 bits.

  * `nearestNat n` is what is left of `n` in 53 bits, and `nearestNat_nearest`: no
    number of 53 bits is nearer to `n`;
  * `nearestNat_of_lt` and `nearestNat_mul`: numbers of 53 bits are kept, and others
    are rounded the same at all scales;
  * `nearestNat_lt_iff` says which numbers are rounded to less than `2 ^ 1024`;
  * `nearest n` and `Fits n` are the same with signs.
-/
import ThemeProps.Decimal.Fixed
import Mathlib.Algebra.Order.Ring.Int
import Mathlib.Algebra.Order.Ring.Nat
import Mathlib.Tactic.Positivity
import Mathlib.Tactic.Common

namespace ThemeProps

/-! ## Rounded quotients -/

namespace Decimal

theorem roundDiv_bounds (num den : Nat) :
    num / den ≤ roundDiv num den ∧ roundDiv num den ≤ num / den + 1 := by
  unfold roundDiv
  dsimp only
  split_ifs <;> omega

theorem roundDiv_mul_right {num den : Nat} {c : Nat} (hc : 0 < c) :
    roundDiv (num * c) (den * c) = roundDiv num den := by
  have quotient := Nat.mul_div_mul_right num den hc
  have remainder : 2 * (num * c % (den * c)) = 2 * (num % den) * c := by
    rw [Nat.mul_mod_mul_right, Nat.mul_assoc]
  simp only [roundDiv, quotient, remainder, Nat.mul_lt_mul_right hc, Nat.mul_left_inj hc.ne']

theorem roundDiv_one (n : Nat) : roundDiv n 1 = n := by simp [roundDiv, Nat.mod_one]

/-- No multiple of the divisor is nearer. -/
theorem roundDiv_nearest {den : Nat} (hden : 0 < den) (num c : Nat) :
    (num - (roundDiv num den * den : Nat) : Int).natAbs ≤
      (num - (c * den : Nat) : Int).natAbs := by
  have whole := Nat.div_add_mod num den
  have rest := Nat.mod_lt num hden
  have next : (num / den + 1) * den = den * (num / den) + den := by
    rw [Nat.mul_comm, Nat.mul_succ]
  have rounded : roundDiv num den * den = den * (num / den) ∧ 2 * (num % den) ≤ den ∨
      roundDiv num den * den = den * (num / den) + den ∧ den ≤ 2 * (num % den) := by
    rw [roundDiv]
    split_ifs with h
    · exact .inl ⟨Nat.mul_comm .., by omega⟩
    · exact .inr ⟨next, by omega⟩
  have side : c * den ≤ den * (num / den) ∨ den * (num / den) + den ≤ c * den := by
    rw [← next, Nat.mul_comm den]
    obtain below | above := Nat.lt_or_ge c (num / den + 1)
    · exact .inl (Nat.mul_le_mul_right _ (Nat.le_of_lt_succ below))
    · exact .inr (Nat.mul_le_mul_right _ above)
  omega

/-- Between an even number and the number before it, a tie goes to the even one. -/
theorem roundDiv_lt_iff {n q c : Nat} (hq : 0 < q) (even : c % 2 = 0) :
    roundDiv n (2 * q) < c ↔ n + q < c * (2 * q) := by
  have whole := Nat.div_add_mod n (2 * q)
  have rest : n % (2 * q) < 2 * q := Nat.mod_lt _ (by omega)
  have bounds := roundDiv_bounds n (2 * q)
  obtain lt | eq | gt := Nat.lt_trichotomy (n / (2 * q) + 1) c
  · have : (n / (2 * q) + 2) * (2 * q) ≤ c * (2 * q) := Nat.mul_le_mul_right _ lt
    rw [Nat.add_mul, Nat.mul_comm (n / (2 * q))] at this
    exact iff_of_true (by omega) (by omega)
  · have product : c * (2 * q) = 2 * q * (n / (2 * q)) + 2 * q := by
      rw [← eq, Nat.mul_comm, Nat.mul_add, Nat.mul_one]
    rw [product, roundDiv]
    split_ifs <;> omega
  · have : c * (2 * q) ≤ n / (2 * q) * (2 * q) := Nat.mul_le_mul_right _ (by omega)
    rw [Nat.mul_comm (n / (2 * q))] at this
    exact iff_of_false (by omega) (by omega)

end Decimal

/-! ## Rounding to 53 bits -/

namespace Double

open Decimal

/-- The natural number nearest to `n` that has 53 bits but for zeros at its end; of two that are
equally near, the one with the even 53rd bit. -/
def nearestNat (n : Nat) : Nat :=
  roundDiv n (2 ^ (n.log2 - 52)) * 2 ^ (n.log2 - 52)

section
variable {n k : Nat}

theorem log2_mul_two_pow (hn : n ≠ 0) : (n * 2 ^ k).log2 = n.log2 + k := by
  have pos := Nat.two_pow_pos k
  rw [Nat.log2_eq_iff (by positivity)]
  constructor
  · rw [Nat.pow_add]
    exact Nat.mul_le_mul_right _ (Nat.log2_self_le hn)
  · rw [Nat.add_right_comm, Nat.pow_add]
    exact Nat.mul_lt_mul_of_pos_right Nat.lt_log2_self pos

/-- What is left of a number when it is cut to 53 bits. -/
theorem div_bounds (hn : 2 ^ 52 ≤ n) :
    2 ^ 52 ≤ n / 2 ^ (n.log2 - 52) ∧ n / 2 ^ (n.log2 - 52) < 2 ^ 53 := by
  have ne : n ≠ 0 := by omega
  have large : 52 ≤ n.log2 := (Nat.le_log2 ne).2 hn
  constructor
  · rw [Nat.le_div_iff_mul_le (Nat.two_pow_pos _), ← Nat.pow_add,
      show 52 + (n.log2 - 52) = n.log2 by omega]
    exact Nat.log2_self_le ne
  · rw [Nat.div_lt_iff_lt_mul (Nat.two_pow_pos _), ← Nat.pow_add,
      show 53 + (n.log2 - 52) = n.log2 + 1 by omega]
    exact Nat.lt_log2_self

theorem log2_sub_of_lt (hn : n < 2 ^ 53) : n.log2 - 52 = 0 := by
  by_cases zero : n = 0
  · rw [zero]
    rfl
  · have := (Nat.log2_lt zero).2 hn
    omega

theorem nearestNat_of_lt (hn : n < 2 ^ 53) : nearestNat n = n := by
  rw [nearestNat, log2_sub_of_lt hn, Nat.pow_zero, roundDiv_one, Nat.mul_one]

/-- A number up to `2 ^ 53` loses nothing when it is cut to 53 bits. -/
theorem div_mul_of_le (hn : n ≤ 2 ^ 53) : n / 2 ^ (n.log2 - 52) * 2 ^ (n.log2 - 52) = n := by
  obtain lt | rfl := Nat.lt_or_eq_of_le hn
  · rw [log2_sub_of_lt lt, Nat.pow_zero, Nat.div_one, Nat.mul_one]
  · rfl

/-- Numbers of 53 bits or more are rounded the same at all scales. -/
theorem nearestNat_mul (hn : 2 ^ 52 ≤ n) : nearestNat (n * 2 ^ k) = nearestNat n * 2 ^ k := by
  have large : 52 ≤ n.log2 := (Nat.le_log2 (by omega)).2 hn
  have cut : (n * 2 ^ k).log2 - 52 = n.log2 - 52 + k := by
    rw [log2_mul_two_pow (by omega)]
    omega
  rw [nearestNat, cut, Nat.pow_add, roundDiv_mul_right (Nat.two_pow_pos k), ← Nat.mul_assoc,
    nearestNat]

/-- **No number of 53 bits is nearer**, whatever its scale. -/
theorem nearestNat_nearest (n : Nat) {m : Nat} (hm : m < 2 ^ 53) (j : Nat) :
    (n - nearestNat n : Int).natAbs ≤ (n - (m * 2 ^ j : Nat) : Int).natAbs := by
  have multiple (c : Nat) := roundDiv_nearest (Nat.two_pow_pos (n.log2 - 52)) n c
  obtain coarse | fine := Nat.lt_or_ge j (n.log2 - 52)
  · -- the number is below `2 ^ n.log2`, which is a multiple itself
    have large : 2 ^ 52 * 2 ^ (n.log2 - 52) ≤ n := by
      rw [← pow_add, show 52 + (n.log2 - 52) = n.log2 by omega]
      refine Nat.log2_self_le ?_
      rintro rfl
      exact absurd coarse (Nat.not_lt_zero j)
    have small : m * 2 ^ j ≤ 2 ^ 52 * 2 ^ (n.log2 - 52) := by
      calc m * 2 ^ j ≤ 2 ^ 53 * 2 ^ (n.log2 - 52 - 1) :=
            Nat.mul_le_mul hm.le (pow_le_pow_right₀ one_le_two (by omega))
        _ = 2 ^ 52 * 2 ^ (n.log2 - 52) := by
            rw [← pow_add, ← pow_add, show 53 + (n.log2 - 52 - 1) = 52 + (n.log2 - 52) by omega]
    have nearest := multiple (2 ^ 52)
    rw [nearestNat]
    omega
  · have scaled : m * 2 ^ (j - (n.log2 - 52)) * 2 ^ (n.log2 - 52) = m * 2 ^ j := by
      rw [mul_assoc, ← pow_add, Nat.sub_add_cancel fine]
    have nearest := multiple (m * 2 ^ (j - (n.log2 - 52)))
    rwa [scaled] at nearest

/-- Halfway between the greatest double and `2 ^ 1024`, numbers start to be rounded up to it. -/
theorem nearestNat_lt_iff : nearestNat n < 2 ^ 1024 ↔ n + 2 ^ 970 < 2 ^ 1024 := by
  have pos : 0 < 2 ^ 970 := by positivity
  have limit : 2 ^ 1024 = 2 ^ 54 * 2 ^ 970 := by rw [← pow_add]
  have unit : 2 ^ 971 = 2 * 2 ^ 970 := by rw [← pow_succ']
  by_cases small : n < 2 ^ 53
  · rw [nearestNat_of_lt small]
    generalize 2 ^ 1024 = a at *
    generalize 2 ^ 970 = q at *
    omega
  have bounds := div_bounds (n := n) (by omega)
  have rounded := roundDiv_bounds n (2 ^ (n.log2 - 52))
  have large : 52 ≤ n.log2 := (Nat.le_log2 (by omega)).2 (by omega)
  obtain lt | eq | gt := Nat.lt_trichotomy n.log2 1023
  · have below : n < 2 ^ 53 * 2 ^ 970 := by
      rw [← pow_add]
      exact Nat.lt_log2_self.trans_le (pow_le_pow_right₀ one_le_two (by omega))
    have below' : nearestNat n ≤ 2 ^ 53 * 2 ^ 970 :=
      Nat.mul_le_mul (by omega) (pow_le_pow_right₀ one_le_two (by omega))
    generalize 2 ^ 1024 = a at *
    generalize 2 ^ 970 = q at *
    omega
  · have cut : n.log2 - 52 = 971 := by omega
    rw [nearestNat]
    rw [cut, unit, limit, show 2 ^ 54 * 2 ^ 970 = 2 ^ 53 * (2 * 2 ^ 970) by omega,
      Nat.mul_lt_mul_right (by omega), roundDiv_lt_iff pos rfl]
  · have above : 2 ^ 54 * 2 ^ 970 ≤ n := by
      rw [← pow_add]
      exact (pow_le_pow_right₀ one_le_two (by omega)).trans (Nat.log2_self_le (by omega))
    have above' : 2 ^ 52 * 2 ^ 972 ≤ nearestNat n :=
      Nat.mul_le_mul (by omega) (pow_le_pow_right₀ one_le_two (by omega))
    have unit' : 2 ^ 972 = 2 ^ 2 * 2 ^ 970 := by rw [← pow_add]
    rw [unit'] at above'
    generalize 2 ^ 1024 = a at *
    generalize 2 ^ 970 = q at *
    omega

end

/-! ## Signs -/

/-- The whole number nearest to `n` that has 53 bits but for zeros at its end. -/
def nearest (n : Int) : Int := n.sign * nearestNat n.natAbs

/-- The number is nearer to the greatest double than to `2 ^ 1024`, or closer to zero. -/
def Fits (n : Int) : Prop := n.natAbs + 2 ^ 970 < 2 ^ 1024

instance (n : Int) : Decidable (Fits n) := inferInstanceAs (Decidable (_ < _))

section
variable {n : Int} (hn : n.natAbs ≤ 2 ^ 53)
include hn

/-- Numbers up to `2 ^ 53` are kept. -/
theorem nearest_of_le : nearest n = n := by
  have kept : nearestNat n.natAbs = n.natAbs := by
    obtain lt | eq := Nat.lt_or_eq_of_le hn
    · exact nearestNat_of_lt lt
    · rw [eq]
      rfl
  rw [nearest, kept, Int.sign_mul_natAbs]

theorem fits_of_le : Fits n := by
  have sum : 2 ^ 53 * 2 ^ 970 + 2 ^ 53 * 2 ^ 970 = 2 ^ 1024 := by
    rw [← two_mul, ← pow_add, ← pow_succ']
  have pos : 0 < 2 ^ 970 := by positivity
  rw [Fits, ← sum]
  generalize 2 ^ 970 = q at *
  omega

end

end Double
end ThemeProps
