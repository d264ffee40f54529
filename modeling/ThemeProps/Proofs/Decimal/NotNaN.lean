/-
  Doubles that are not NaN.

  * `isNaN_unpack_pack`: packing makes no number NaN, nor does rounding;
  * `isNaN_mul` and `isNaN_div`: nor does multiplying or dividing by a number that is
    neither zero nor an infinity;
  * `Numeral.isNaN_toFloat`: so the double of a numeral is a number.
-/
import ThemeProps.Decimal.Numeral
import ThemeProps.Proofs.Decimal.Conversion

namespace ThemeProps.Double

open Float.Model Float.Model.UnpackedFloat

/-- Packing makes no number of another one NaN. -/
theorem isNaN_unpack_pack {x : UnpackedFloat} (h : x.isNaN = false) :
    (UnpackedFloat.unpack Format.binary64 (UnpackedFloat.pack Format.binary64 x)).isNaN =
      false := by
  have limited {s : Sign} {e : BitVec 11} {m : BitVec 52} (he : e ≠ -1#11 ∨ m = 0#52) :
      (UnpackedFloat.unpack Format.binary64 (packComponents Format.binary64 s e m)).isNaN =
        false := by
    rw [UnpackedFloat.unpack]
    simp only [unpackExponent_packComponents, unpackMantissa_packComponents]
    split_ifs with greatest zero
    · rfl
    · exact absurd he (not_or.2 ⟨not_not.2 greatest, zero⟩)
    all_goals rfl
  cases x with
  | notANumber => cases h
  | infinity s => exact limited (.inr rfl)
  | zero s => exact limited (.inl (by decide))
  | finite s m e pos =>
    rw [UnpackedFloat.pack]
    dsimp only
    split_ifs with overflow
    · exact limited (.inr rfl)
    · refine limited (.inl fun greatest => overflow ?_)
      have same := congrArg BitVec.toNat greatest
      rw [BitVec.toNat_ofNat] at same
      have : _ % 2048 = 2047 := same
      show 2048 ≤ _
      omega
    · exact limited (.inl (by decide))

theorem isNaN_neg {x : UnpackedFloat} (h : x.isNaN = false) : x.neg.isNaN = false := by
  cases x with
  | notANumber => cases h
  | _ => rfl

theorem isNaN_roundWithAccuracy (s : Sign) (m : Nat) (e : Int) (a : Accuracy) :
    (roundWithAccuracy Format.binary64 s m e a).isNaN = false := by
  rw [roundWithAccuracy]
  dsimp only
  split_ifs <;> rfl

theorem isNaN_ofNat (n : Nat) : (UnpackedFloat.ofNat Format.binary64 n).isNaN = false := by
  rw [UnpackedFloat.ofNat, UnpackedFloat.ofInt, UnpackedFloat.normalize]
  cases compare (n : Int) 0 with
  | eq => rfl
  | _ => exact isNaN_roundWithAccuracy ..

/-- The number is neither NaN nor an infinity nor zero. -/
def isRegular : UnpackedFloat → Bool
  | .finite .. => true
  | _ => false

/-- Powers of ten that are looked up. -/
theorem isRegular_power {n : Nat} (h : n < Float.exactlyRepresentablePowersOfTen.size) :
    isRegular Float.exactlyRepresentablePowersOfTen[n].toModel.unpack = true := by
  have all : Float.exactlyRepresentablePowersOfTen.all (isRegular ·.toModel.unpack) = true := by
    decide +kernel
  exact Array.all_eq_true.1 all n h

section
variable {x y : UnpackedFloat} (hx : x.isNaN = false) (hy : isRegular y = true)
include hx hy

theorem isNaN_mul : (UnpackedFloat.mul Format.binary64 x y).isNaN = false := by
  cases y with
  | finite =>
    cases x with
    | notANumber => cases hx
    | finite => exact isNaN_roundWithAccuracy ..
    | _ => rfl
  | _ => cases hy

theorem isNaN_div : (UnpackedFloat.div Format.binary64 x y).isNaN = false := by
  cases y with
  | finite =>
    cases x with
    | notANumber => cases hx
    | finite => exact isNaN_roundWithAccuracy ..
    | _ => rfl
  | _ => cases hy

end

theorem isNaN_ofScientific (m : Nat) (e : Int) :
    (UnpackedFloat.ofScientific Format.binary64 m e).isNaN = false := by
  rw [UnpackedFloat.ofScientific]
  split_ifs
  · rfl
  · rfl
  · rfl
  · exact isNaN_mul rfl rfl
  · exact isNaN_div rfl rfl

theorem isNaN_unpack_ofScientific (m : Nat) (negative : Bool) (e : Nat) :
    (Float.ofScientific m negative e).toModel.unpack.isNaN = false := by
  rw [Float.ofScientific]
  by_cases small : m < 2 ^ 53 ∧ e ≤ 22
  · rw [dif_pos small]
    have power := isRegular_power (Nat.lt_succ_of_le small.2)
    have converted : m.toUInt64.toFloat.toModel.unpack.isNaN = false :=
      isNaN_unpack_pack (isNaN_ofNat _)
    cases negative
    · exact isNaN_unpack_pack (isNaN_mul converted power)
    · exact isNaN_unpack_pack (isNaN_div converted power)
  · rw [dif_neg small]
    exact isNaN_unpack_pack (isNaN_ofScientific _ _)

end ThemeProps.Double

namespace ThemeProps

/-- **The double of a numeral is a number.** -/
theorem Numeral.isNaN_toFloat (n : Numeral) : n.toFloat.isNaN = false := by
  obtain ⟨x, same, size⟩ : ∃ x : Float, (n.toFloat = if n.negative then -x else x) ∧
      x.toModel.unpack.isNaN = false := by
    refine ⟨_, rfl, ?_⟩
    split_ifs
    · rfl
    · rfl
    · exact Double.isNaN_unpack_ofScientific ..
  rw [same]
  split_ifs
  · exact Double.isNaN_unpack_pack (Double.isNaN_neg size)
  · exact size

end ThemeProps
