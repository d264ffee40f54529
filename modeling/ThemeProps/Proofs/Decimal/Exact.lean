/-
  Numbers by their exact values.

  * `Amount` is what a number amounts to, a rational number or an infinity, and
    `Number.amount?` is the amount of a number; NaN has none;
  * `Double.ofFloat_eq`: the bits of a double are decoded to the unpacked form
    that arithmetic works with, and `Double.canonical_unpack`: in that form a value
    has one mantissa and one exponent;
  * `Number.same_iff`: hence two numbers are the same if and only if they have an
    amount and it is the same, whatever their forms.
-/
import ThemeProps.Value.Basic
import Mathlib

namespace ThemeProps

open Float.Model Float.Model.UnpackedFloat

/-! ## Amounts -/

/-- What a number amounts to. -/
inductive Amount where
  | rational (r : ℚ)
  | infinite (negative : Bool)
deriving DecidableEq

/-- The amount of an encoded value. -/
def Binary.amount? : Binary → Option Amount
  | nan => none
  | infinite negative => some (.infinite negative)
  | finite negative m q => some (.rational (if negative then -(m * 2 ^ q) else m * 2 ^ q))

/-- The amount of a number. -/
def Number.amount? : Number → Option Amount
  | int n => some (.rational n)
  | float x => (Binary.ofFloat x).amount?

namespace Double

/-! ## Bits -/

theorem toNat_unpackMantissa (b : BitVec 64) :
    (@unpackMantissa .binary64 b).toNat = b.toNat % 2 ^ 52 := by
  rw [unpackMantissa, BitVec.toNat_cast, BitVec.extractLsb_toNat, Nat.shiftRight_zero]
  rfl

theorem toNat_unpackExponent (b : BitVec 64) :
    (@unpackExponent .binary64 b).toNat = b.toNat / 2 ^ 52 % 2 ^ 11 := by
  rw [unpackExponent, BitVec.toNat_cast, BitVec.extractLsb_toNat, Nat.shiftRight_eq_div_pow]
  rfl

theorem toNat_unpackSign (b : BitVec 64) :
    (@unpackSign .binary64 b).toNat = b.toNat / 2 ^ 63 := by
  have lt := b.isLt
  have bit : (@unpackSign .binary64 b).toNat = b.toNat / 2 ^ 63 % 2 := by
    rw [unpackSign, BitVec.toNat_cast, BitVec.extractLsb_toNat, Nat.shiftRight_eq_div_pow]
    rfl
  rw [bit]
  omega

/-- A sign as it is decoded. -/
def isNegative : Sign → Bool
  | .negative => true
  | .positive => false

/-- An unpacked number, as it is decoded. -/
def decoded : UnpackedFloat → Binary
  | .notANumber => .nan
  | .infinity s => .infinite (isNegative s)
  | .zero s => .finite (isNegative s) 0 (-1074)
  | .finite s m e _ => .finite (isNegative s) m e

theorem isNegative_unpackSign (b : BitVec 64) :
    isNegative (.ofBitVec (@unpackSign .binary64 b)) = (b.toNat / 2 ^ 63 == 1) := by
  have sign := toNat_unpackSign b
  have lt := b.isLt
  rw [Sign.ofBitVec]
  split_ifs with h
  · rw [h] at sign
    rw [← sign]
    rfl
  · have : b.toNat / 2 ^ 63 ≠ 0 := fun zero => h (BitVec.eq_of_toNat_eq (sign.trans zero))
    have one : b.toNat / 2 ^ 63 = 1 := by omega
    rw [one]
    rfl

/-- The hidden first bit of a mantissa. -/
theorem toNat_one_append (v : BitVec 52) : (1#1 ++ v).toNat = 2 ^ 52 + v.toNat := by
  rw [BitVec.toNat_append, Nat.shiftLeft_eq, BitVec.toNat_ofNat, Nat.mul_comm,
    ← Nat.two_pow_add_eq_or_of_lt v.isLt, Nat.mod_eq_of_lt (by decide), Nat.mul_one]

/-- A double is decoded to the number that it is unpacked to. -/
theorem ofFloat_eq (x : Float) : Binary.ofFloat x = decoded x.toModel.unpack := by
  have sign : _ = (x.toBits.toNat / twoTo 63 == 1) := isNegative_unpackSign x.toBits.toBitVec
  have exponent : _ = x.toBits.toNat / twoTo 52 % twoTo 11 :=
    toNat_unpackExponent x.toBits.toBitVec
  have mantissa : _ = x.toBits.toNat % twoTo 52 := toNat_unpackMantissa x.toBits.toBitVec
  have zero {m : BitVec Format.binary64.mantissaBitsWithoutImplicit} :
      m.toNat = 0 ↔ m = BitVec.ofNat _ 0 := BitVec.toNat_inj (y := 0#52)
  have least {e : BitVec Format.binary64.exponentBits} :
      e.toNat = 0 ↔ e = BitVec.ofNat _ 0 := BitVec.toNat_inj (y := 0#11)
  have greatest {e : BitVec Format.binary64.exponentBits} :
      e.toNat = 2047 ↔ e = -BitVec.ofNat _ 1 := BitVec.toNat_inj (y := -1#11)
  show _ = decoded (UnpackedFloat.unpack Format.binary64 x.toBits.toBitVec)
  rw [Binary.ofFloat, ← sign, ← exponent, ← mantissa, UnpackedFloat.unpack]
  simp only [zero, least, greatest]
  split_ifs with hgreatest hzero hleast hzero
  · rfl
  · rfl
  · rw [hzero]; rfl
  · rw [hleast]; rfl
  · show _ = Binary.finite _ (1#1 ++ @unpackMantissa .binary64 x.toBits.toBitVec).toNat _
    rw [toNat_one_append]
    rfl

/-! ## One form for each value -/

/-- The mantissa has 53 bits, or fewer if the exponent is the least one. -/
def Canonical : UnpackedFloat → Prop
  | .finite _ m e _ => m < 2 ^ 53 ∧ -1074 ≤ e ∧ (2 ^ 52 ≤ m ∨ e = -1074)
  | _ => True

theorem canonical_unpack (x : Float) : Canonical x.toModel.unpack := by
  show Canonical (UnpackedFloat.unpack Format.binary64 x.toBits.toBitVec)
  rw [UnpackedFloat.unpack]
  have mantissa := (@unpackMantissa .binary64 x.toBits.toBitVec).isLt
  split_ifs with hgreatest hzero hleast hzero
  · trivial
  · trivial
  · trivial
  · rw [hleast]
    exact ⟨mantissa.trans (by decide), by decide, .inr (by decide)⟩
  · have nonzero : (@unpackExponent .binary64 x.toBits.toBitVec).toNat ≠ 0 :=
      fun zero => hleast (BitVec.eq_of_toNat_eq zero)
    show (1#1 ++ @unpackMantissa .binary64 x.toBits.toBitVec).toNat < 2 ^ 53 ∧
      -1074 ≤ ((@unpackExponent .binary64 x.toBits.toBitVec).toNat : Int) - (1023 + 52) ∧ _
    rw [toNat_one_append]
    have mantissa' : (@unpackMantissa .binary64 x.toBits.toBitVec).toNat < 2 ^ 52 :=
      mantissa
    exact ⟨by omega, by omega, .inl (by omega)⟩

section
variable {m m' : Nat} {e e' : Int}

/-- Of two values in this form, the one with the larger exponent is larger. -/
theorem value_lt_of_lt (hm : m < 2 ^ 53) (he : -1074 ≤ e) (hm' : 2 ^ 52 ≤ m' ∨ e' = -1074)
    (h : e < e') : (m : ℚ) * 2 ^ e < m' * 2 ^ e' := by
  have large : 2 ^ 52 ≤ m' := hm'.resolve_right (by omega)
  have upper : (m : ℚ) < 2 ^ 53 := by exact_mod_cast hm
  have lower : (2 ^ 52 : ℚ) ≤ m' := by exact_mod_cast large
  calc (m : ℚ) * 2 ^ e < 2 ^ 53 * 2 ^ e := by gcongr
    _ = 2 ^ 52 * 2 ^ (e + 1) := by rw [zpow_add_one₀ two_ne_zero]; ring
    _ ≤ m' * 2 ^ e' := by
      gcongr
      · norm_num
      · omega

/-- A value in this form determines its mantissa and its exponent. -/
theorem value_inj (hm : m < 2 ^ 53) (he : -1074 ≤ e) (hme : 2 ^ 52 ≤ m ∨ e = -1074)
    (hm' : m' < 2 ^ 53) (he' : -1074 ≤ e') (hme' : 2 ^ 52 ≤ m' ∨ e' = -1074) :
    (m : ℚ) * 2 ^ e = m' * 2 ^ e' ↔ e = e' ∧ m = m' := by
  constructor
  · intro h
    obtain lt | rfl | gt := lt_trichotomy e e'
    · exact absurd h (value_lt_of_lt hm he hme' lt).ne
    · have power : (2 : ℚ) ^ e ≠ 0 := by positivity
      exact ⟨rfl, by exact_mod_cast mul_right_cancel₀ power h⟩
    · exact absurd h (value_lt_of_lt hm' he' hme gt).ne'
  · rintro ⟨rfl, rfl⟩
    rfl

end

/-! ## Comparing doubles -/

/-- Numbers in this form compare as equal if and only if they have the same amount. -/
theorem compare_eq_iff {u v : UnpackedFloat} (hu : Canonical u) (hv : Canonical v) :
    u.compare v = some .eq ↔
      ∃ a, (decoded u).amount? = some a ∧ (decoded v).amount? = some a := by
  have pos {m : Nat} {e : Int} (h : 0 < m) : 0 < (m : ℚ) * 2 ^ e := by positivity
  rcases u with (_ | _) | _ | _ | ⟨_ | _, m, e, hm⟩ <;>
    rcases v with (_ | _) | _ | _ | ⟨_ | _, m', e', hm'⟩
  case infinity.negative.infinity.negative => exact iff_of_true rfl ⟨_, rfl, rfl⟩
  case infinity.positive.infinity.positive => exact iff_of_true rfl ⟨_, rfl, rfl⟩
  all_goals simp [UnpackedFloat.compare, decoded, Binary.amount?, isNegative]
  case zero.finite.negative => exact ⟨hm'.ne', zpow_ne_zero _ two_ne_zero⟩
  case zero.finite.positive => exact ⟨hm'.ne', zpow_ne_zero _ two_ne_zero⟩
  case finite.negative.zero => exact ⟨hm.ne', zpow_ne_zero _ two_ne_zero⟩
  case finite.positive.zero => exact ⟨hm.ne', zpow_ne_zero _ two_ne_zero⟩
  case finite.negative.finite.positive => exact ((neg_neg_of_pos (pos hm)).trans (pos hm')).ne'
  case finite.positive.finite.negative => exact ((neg_neg_of_pos (pos hm')).trans (pos hm)).ne
  case finite.negative.finite.negative =>
    exact (value_inj hu.1 hu.2.1 hu.2.2 hv.1 hv.2.1 hv.2.2).symm.trans eq_comm
  case finite.positive.finite.positive =>
    exact (value_inj hu.1 hu.2.1 hu.2.2 hv.1 hv.2.1 hv.2.2).symm.trans eq_comm

/-- Doubles are equal if and only if they have the same amount. -/
theorem beq_iff (x y : Float) : (x == y) = true ↔
    ∃ a, (Binary.ofFloat x).amount? = some a ∧ (Binary.ofFloat y).amount? = some a := by
  rw [ofFloat_eq, ofFloat_eq, ← compare_eq_iff (canonical_unpack x) (canonical_unpack y)]
  exact beq_iff_eq (a := x.toModel.unpack.compare y.toModel.unpack)

end Double

/-! ## Whole amounts -/

theorem value_eq_div (m : Nat) (q : Int) :
    (m : ℚ) * 2 ^ q = (Binary.numerator m q : ℚ) / (Binary.denominator q : ℚ) := by
  have power : (2 : ℚ) ^ q = 2 ^ q.toNat / 2 ^ (-q).toNat := by
    rw [← zpow_natCast, ← zpow_natCast, ← zpow_sub₀ two_ne_zero]
    congr 1
    omega
  rw [power, mul_div_assoc']
  simp [Binary.numerator, Binary.denominator, twoTo]

/-- A quotient is a whole number if and only if it has no remainder. -/
theorem div_eq_whole {num den : Nat} (hden : den ≠ 0) {negative : Bool} {n : Int} :
    (if num % den = 0 then some (if negative then -((num / den : Nat) : Int) else (num / den : Nat))
      else none) = some n ↔
      (if negative then -((num : ℚ) / den) else (num : ℚ) / den) = n := by
  have den0 : (den : ℚ) ≠ 0 := by exact_mod_cast hden
  by_cases whole : num % den = 0
  · obtain ⟨k, rfl⟩ := Nat.dvd_of_mod_eq_zero whole
    have quotient : ((den * k : Nat) : ℚ) / den = k := by
      rw [Nat.cast_mul, mul_div_cancel_left₀ _ den0]
    rw [if_pos whole, quotient, Nat.mul_div_cancel_left k (Nat.pos_of_ne_zero hden)]
    cases negative
    · simp; norm_cast
    · simp; norm_cast
  · rw [if_neg whole]
    refine iff_of_false nofun fun h => whole (Nat.mod_eq_zero_of_dvd ?_)
    have product : (num : Int) = (if negative then -n else n) * den := by
      have quotient : (num : ℚ) / den = (if negative then -n else n : Int) := by
        cases negative
        · simpa using h
        · simpa using congrArg Neg.neg h
      rw [div_eq_iff den0] at quotient
      exact_mod_cast quotient
    exact Int.natCast_dvd_natCast.1 ⟨_, product.trans (mul_comm _ _)⟩

/-- A double is a whole number if and only if it amounts to one. -/
theorem integer?_eq_some {x : Float} {n : Int} :
    integer? x = some n ↔ (Binary.ofFloat x).amount? = some (.rational n) := by
  rw [integer?]
  cases Binary.ofFloat x with
  | nan => exact iff_of_false nofun nofun
  | infinite negative => exact iff_of_false nofun nofun
  | finite negative m q =>
    have den : Binary.denominator q ≠ 0 := by simp [Binary.denominator, twoTo]
    rw [Binary.amount?, value_eq_div, Option.some_inj, Amount.rational.injEq, ← div_eq_whole den]

/-- **Numbers are the same** if and only if they amount to the same. -/
theorem Number.same_iff {m n : Number} :
    m.same n = true ↔ ∃ a, m.amount? = some a ∧ n.amount? = some a := by
  cases m with
  | int m =>
    cases n with
    | int n => simp [same, amount?, @eq_comm _ n m]
    | float y => simp [same, amount?, integer?_eq_some]
  | float x =>
    cases n with
    | int n => simp [same, amount?, integer?_eq_some]
    | float y => exact Double.beq_iff x y

end ThemeProps
