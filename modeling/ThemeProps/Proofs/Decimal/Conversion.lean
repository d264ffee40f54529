/-
  Whole numbers as doubles.

  A double is an unpacked number that is rounded and then packed into its bits.

  * `Shifted`: a mantissa that is shifted to the right keeps track of the bits that
    it loses, and so `normal_roundWithAccuracy`: rounding gives the nearest number;
  * `Normal.pack`: packing keeps a number or, if it is too large, makes it an
    infinity, and so `packed_ofNat` and `packed_ofInt`: a whole number becomes the
    nearest double;
  * `amount_ofInt` and `roundInt?_eq` put this together, and `ofInt_pos` is what it
    says of a number above zero.
-/
import ThemeProps.Proofs.Decimal.Exact
import ThemeProps.Proofs.Decimal.Nearest

namespace ThemeProps.Double

open Float.Model Float.Model.UnpackedFloat Decimal

/-! ## Shifting -/

/-- What is left of `m` without its last `k` bits, and how the lost bits compare to a half. -/
structure Shifted (m k : Nat) (em : ExtendedMantissa) : Prop where
  mantissa : em.mantissa = m / 2 ^ k
  roundBit : em.roundBit = decide (2 ^ k ≤ 2 * (m % 2 ^ k))
  stickyBit : em.stickyBit = decide (2 * (m % 2 ^ k) ≠ 0 ∧ 2 * (m % 2 ^ k) ≠ 2 ^ k)

theorem Shifted.shiftRightOne {m k : Nat} {em : ExtendedMantissa} (h : Shifted m k em) :
    Shifted m (k + 1) em.shiftRightOne := by
  have lost : m % 2 ^ (k + 1) = m % 2 ^ k + 2 ^ k * (m / 2 ^ k % 2) := Nat.mod_pow_succ
  have less : m % 2 ^ k < 2 ^ k := Nat.mod_lt _ (Nat.two_pow_pos k)
  have bit : m / 2 ^ k % 2 = 0 ∨ m / 2 ^ k % 2 = 1 := Nat.mod_two_eq_zero_or_one _
  constructor
  · show em.mantissa / 2 = _
    rw [h.mantissa, Nat.div_div_eq_div_mul, Nat.pow_succ]
  · show (em.mantissa % 2 != 0) = _
    rw [h.mantissa, lost, Nat.pow_succ]
    generalize m / 2 ^ k % 2 = b at *
    generalize m % 2 ^ k = r at *
    generalize 2 ^ k = q at *
    rcases bit with rfl | rfl <;> simp <;> omega
  · show (em.roundBit || em.stickyBit) = _
    rw [h.roundBit, h.stickyBit, lost, Nat.pow_succ]
    generalize m / 2 ^ k % 2 = b at *
    generalize m % 2 ^ k = r at *
    generalize 2 ^ k = q at *
    rw [← Bool.decide_or, decide_eq_decide]
    rcases bit with rfl | rfl <;> omega

theorem shifted (m k : Nat) :
    Shifted m k (ExtendedMantissa.ofMantissaAndAccuracy m .exact >>> k) := by
  induction k with
  | zero => exact ⟨(Nat.div_one m).symm, by simp [Nat.mod_one]; rfl, by simp [Nat.mod_one]; rfl⟩
  | succ k ih => exact ih.shiftRightOne

theorem Shifted.roundedMantissa {m k : Nat} {em : ExtendedMantissa} (h : Shifted m k em) :
    em.roundedMantissa = roundDiv m (2 ^ k) := by
  obtain ⟨mantissa, roundBit, stickyBit⟩ := em
  obtain ⟨rfl, rfl, rfl⟩ := h
  have pos := Nat.two_pow_pos k
  unfold roundDiv
  dsimp only
  generalize 2 * (m % 2 ^ k) = r at *
  generalize m / 2 ^ k = q at *
  generalize 2 ^ k = d at *
  by_cases half : d ≤ r <;> by_cases sticky : r ≠ 0 ∧ r ≠ d
  · rw [decide_eq_true half, decide_eq_true sticky, if_neg (by omega)]
    rfl
  · rw [decide_eq_true half, decide_eq_false sticky]
    show q + q % 2 = _
    split_ifs <;> omega
  · rw [decide_eq_false half, decide_eq_true sticky, if_pos (by omega)]
    rfl
  · rw [decide_eq_false half, decide_eq_false sticky, if_pos (by omega)]
    rfl

section
variable {m : Nat} {e : Int}

/-- A mantissa of 53 bits or more is shifted so far that 53 bits are left. -/
theorem shift (hm : 2 ^ 52 ≤ m) (he : -1074 ≤ e) :
    Shifted m (m.log2 - 52) (shiftToTargetExponent Format.binary64 m e .exact).1 ∧
      (shiftToTargetExponent Format.binary64 m e .exact).2 = e + (m.log2 - 52 : Nat) := by
  have large : 52 ≤ m.log2 := (Nat.le_log2 (by omega)).2 hm
  have target : Format.binary64.targetExponent (totalExponent m e) =
      max (m.log2 + 1 + e - 53) (-1074) := rfl
  have amount : (Format.binary64.targetExponent (totalExponent m e) - e).toNat = m.log2 - 52 := by
    rw [target]
    omega
  rw [shiftToTargetExponent, shiftToExponent, amount]
  exact ⟨shifted m _, rfl⟩

/-- The number has the given sign and is `r` in size; its mantissa has 53 bits and its exponent is
at least `b`. -/
inductive Normal (s : Sign) (b : Int) (r : ℚ) : UnpackedFloat → Prop
  | finite {m : Nat} {e : Int} (pos : 0 < m) (lower : 2 ^ 52 ≤ m) (upper : m < 2 ^ 53)
      (least : b ≤ e) (size : m * 2 ^ e = r) : Normal s b r (.finite s m e pos)

/-- The mantissa is shifted a second time because it may have got a bit more by rounding. -/
theorem normal_roundWithAccuracy {s : Sign} (hm : 2 ^ 52 ≤ m) (he : -1074 ≤ e) :
    Normal s e (nearestNat m * 2 ^ e) (roundWithAccuracy Format.binary64 s m e .exact) := by
  obtain ⟨shifted₁, exponent₁⟩ := shift hm he
  have bounds₁ := div_bounds hm
  have size : nearestNat m = roundDiv m (2 ^ (m.log2 - 52)) * 2 ^ (m.log2 - 52) := rfl
  have rounded := roundDiv_bounds m (2 ^ (m.log2 - 52))
  rw [roundWithAccuracy]
  dsimp only
  rw [shifted₁.roundedMantissa, exponent₁, size]
  clear exponent₁ shifted₁ size
  generalize m.log2 - 52 = k at *
  generalize roundDiv m (2 ^ k) = r at *
  generalize m / 2 ^ k = c at *
  obtain ⟨shifted₂, exponent₂⟩ := shift (m := r) (e := e + k) (by omega) (by omega)
  have bounds₂ := div_bounds (n := r) (by omega)
  -- the second shift cuts nothing
  have cut : r / 2 ^ (r.log2 - 52) * 2 ^ (r.log2 - 52) = r := div_mul_of_le (by omega)
  have mantissa₂ := shifted₂.mantissa
  generalize shiftToTargetExponent Format.binary64 r (e + k) .exact = second at *
  obtain ⟨⟨m₂, _, _⟩, e₂⟩ := second
  dsimp only at mantissa₂ exponent₂ ⊢
  subst mantissa₂ exponent₂
  rw [dif_neg (by omega)]
  refine .finite _ bounds₂.1 bounds₂.2 (by omega) ?_
  calc ((r / 2 ^ (r.log2 - 52) : Nat) : ℚ) * 2 ^ (e + k + (r.log2 - 52 : Nat))
      = (r / 2 ^ (r.log2 - 52) * 2 ^ (r.log2 - 52) : Nat) * 2 ^ k * 2 ^ e := by
        rw [zpow_add₀ two_ne_zero, zpow_add₀ two_ne_zero, zpow_natCast, zpow_natCast]
        push_cast
        ring
    _ = (r * 2 ^ k : Nat) * 2 ^ e := by
        rw [cut]
        push_cast
        ring

end

/-! ## Packing -/

section
variable {s : Sign} {b : Int} {r : ℚ} {x : UnpackedFloat}

theorem normal_unpack_packComponents {e : BitVec 11} {m : BitVec 52} (hmin : e ≠ 0#11)
    (hmax : e ≠ -1#11) :
    Normal s (e.toNat - 1075) ((2 ^ 52 + m.toNat : Nat) * 2 ^ (e.toNat - 1075 : Int))
      (UnpackedFloat.unpack Format.binary64 (packComponents Format.binary64 s e m)) := by
  have fraction := m.isLt
  have value := toNat_one_append m
  rw [UnpackedFloat.unpack]
  simp only [unpackSign_packComponents, unpackExponent_packComponents,
    unpackMantissa_packComponents, if_neg hmax, if_neg hmin, Sign.ofBitVec_toBitVec]
  show Normal s _ _ (.finite s (1#1 ++ m).toNat (e.toNat - (1023 + 52)) _)
  exact .finite _ (by omega) (by omega) (by omega) (by rw [value]; rfl)

/-- The numbers below `2 ^ 1024` are those with an exponent up to 971. -/
theorem size_lt_iff {m : Nat} {e : Int} (lower : 2 ^ 52 ≤ m) (upper : m < 2 ^ 53)
    (least : -1074 ≤ e) : (m : ℚ) * 2 ^ e < 2 ^ 1024 ↔ e < 972 := by
  have limit : ((2 ^ 52 : Nat) : ℚ) * 2 ^ (972 : Int) = 2 ^ 1024 := by
    rw [Nat.cast_pow, Nat.cast_ofNat, zpow_ofNat, ← pow_add]
  rw [← limit]
  constructor
  · contrapose!
    intro large
    have : ((2 ^ 52 : Nat) : ℚ) ≤ m := by exact_mod_cast lower
    gcongr
    norm_num
  · exact value_lt_of_lt upper least (.inl (le_refl _))

/-- The number has been packed, and if it is `2 ^ 1024` or more, it has become an infinity. -/
def Packed (s : Sign) (b : Int) (r : ℚ) (x : UnpackedFloat) : Prop :=
  if r < 2 ^ 1024 then Normal s b r x else x = .infinity s

theorem Normal.mono {b' : Int} (h : Normal s b r x) (hb : b' ≤ b) : Normal s b' r x := by
  obtain ⟨pos, lower, upper, least, size⟩ := h
  exact .finite pos lower upper (hb.trans least) size

theorem Normal.pack (h : Normal s b r x) (hb : -1074 < b) :
    Packed s b r (UnpackedFloat.unpack Format.binary64 (UnpackedFloat.pack Format.binary64 x)) := by
  obtain @⟨m, e, pos, lower, upper, least, size⟩ := h
  have log : m.log2 = 52 := by
    rw [Nat.log2_eq_iff (by omega)]
    omega
  have biased : (e + Format.binary64.exponentBias +
      Format.binary64.mantissaBitsWithoutImplicit).toNat = (e + 1075).toNat := by
    show (e + 1023 + 52).toNat = _
    omega
  have fits : r < 2 ^ 1024 ↔ e < 972 := by
    rw [← size]
    exact size_lt_iff lower upper (by omega)
  have overflow : 2 ^ Format.binary64.exponentBits ≤ (e + 1075).toNat + 1 ↔ ¬ e < 972 := by
    show 2048 ≤ (e + 1075).toNat + 1 ↔ _
    omega
  have full : 52 + 1 = Format.binary64.mantissaBits := rfl
  rw [Packed, UnpackedFloat.pack]
  dsimp only
  simp only [biased, log, fits, overflow]
  by_cases small : e < 972
  · rw [if_pos small, if_neg (not_not.2 small), if_pos full]
    have exponent : (BitVec.ofNat 11 (e + 1075).toNat).toNat = (e + 1075).toNat := by
      rw [BitVec.toNat_ofNat]
      omega
    have mantissa : (BitVec.ofNat 52 m).toNat = m - 2 ^ 52 := by
      rw [BitVec.toNat_ofNat]
      omega
    have hmin : BitVec.ofNat 11 (e + 1075).toNat ≠ 0#11 := fun zero => by
      rw [zero] at exponent
      have : 0 = (e + 1075).toNat := exponent
      omega
    have hmax : BitVec.ofNat 11 (e + 1075).toNat ≠ -1#11 := fun greatest => by
      rw [greatest] at exponent
      have : 2047 = (e + 1075).toNat := exponent
      omega
    have normal := normal_unpack_packComponents (s := s) (m := BitVec.ofNat 52 m) hmin hmax
    rw [exponent, mantissa, Nat.add_sub_cancel' lower,
      show (((e + 1075).toNat : Int) - 1075) = e by omega, size] at normal
    exact normal.mono least
  · rw [if_neg small, if_pos small]
    cases s <;> rfl

theorem Packed.neg (h : Packed s b r x) (hb : -1074 < b) :
    Packed (-s) b r
      (UnpackedFloat.unpack Format.binary64 (UnpackedFloat.pack Format.binary64 x.neg)) := by
  unfold Packed at h
  split_ifs at h with small
  · obtain ⟨pos, lower, upper, least, size⟩ := h
    exact Normal.pack (.finite pos lower upper least size) hb
  · rw [h, Packed, if_neg small]
    cases s <;> rfl

end

/-! ## Conversion -/

theorem mul_two_pow_cancel (n k : Nat) : ((n * 2 ^ k : Nat) : ℚ) * 2 ^ (-(k : Int)) = n := by
  rw [zpow_neg, zpow_natCast]
  push_cast
  field_simp

/-- The number one, unpacked. -/
def one : UnpackedFloat := .finite .positive (2 ^ 52) (-52) (by decide)

theorem Normal.mul_one {b : Int} {r : ℚ} {x : UnpackedFloat} (hb : -1022 ≤ b)
    (h : Normal .positive b r x) :
    Normal .positive (b - 52) r (UnpackedFloat.mul Format.binary64 x one) := by
  obtain @⟨m, e, pos, lower, upper, least, size⟩ := h
  have rounded := normal_roundWithAccuracy (s := .positive) (m := m * 2 ^ 52) (e := e + -52)
    (by omega) (by omega)
  have same : ((nearestNat (m * 2 ^ 52) : Nat) : ℚ) * 2 ^ (e + -52) = r := by
    rw [nearestNat_mul lower, nearestNat_of_lt upper, add_comm, zpow_add₀ two_ne_zero,
      ← mul_assoc, ← size]
    exact congrArg (· * _) (mul_two_pow_cancel m 52)
  rw [same] at rounded
  exact rounded.mono (by omega)

section
variable {n : Nat}

/-- A number below `2 ^ 53` is not rounded. -/
theorem normal_round (hn : 0 < n) (small : n < 2 ^ 53) :
    Normal .positive (-52) n (UnpackedFloat.round Format.binary64 .positive n 0) := by
  have log : n.log2 < 53 := (Nat.log2_lt hn.ne').2 small
  have target : Format.binary64.targetExponent (totalExponent n 0) =
      max ((n.log2 : Int) + 1 + 0 - 53) (-1074) := rfl
  have amount : (0 - Format.binary64.targetExponent (totalExponent n 0)).toNat = 52 - n.log2 := by
    rw [target]
    omega
  have shifted : UnpackedFloat.round Format.binary64 .positive n 0 =
      roundWithAccuracy Format.binary64 .positive (n * 2 ^ (52 - n.log2)) (0 - (52 - n.log2 : Nat))
        .exact := by
    rw [UnpackedFloat.round, decreaseExponent, amount, Nat.shiftLeft_eq]
  have log' : (n * 2 ^ (52 - n.log2)).log2 = 52 := by
    rw [log2_mul_two_pow hn.ne']
    omega
  have bounds := (Nat.log2_eq_iff (by positivity)).1 log'
  have rounded := normal_roundWithAccuracy (s := .positive) (e := 0 - (52 - n.log2 : Nat)) bounds.1
    (by omega)
  rw [nearestNat_of_lt bounds.2] at rounded
  rw [shifted]
  have same : ((n * 2 ^ (52 - n.log2) : Nat) : ℚ) * 2 ^ (0 - (52 - n.log2 : Nat) : Int) = n := by
    rw [zero_sub]
    exact mul_two_pow_cancel _ _
  rw [same] at rounded
  exact rounded.mono (by omega)

theorem normal_toUInt64 (hn : 0 < n) (small : n < 2 ^ 53) :
    Normal .positive (-52) n n.toUInt64.toFloat.toModel.unpack := by
  have same : n.toUInt64.toNat = n := by
    rw [Nat.toUInt64_eq, UInt64.toNat_ofNat']
    omega
  have positive : compare (n : Int) 0 = .gt := by
    rw [Int.compare_eq_gt]
    omega
  have fits : (n : ℚ) < 2 ^ 1024 := by
    have : (n : ℚ) < 2 ^ 53 := by exact_mod_cast small
    exact this.trans (pow_lt_pow_right₀ one_lt_two (by decide))
  have packed := (normal_round hn small).pack (by decide)
  rw [Packed, if_pos fits] at packed
  show Normal _ _ _ (UnpackedFloat.unpack Format.binary64
    (UnpackedFloat.pack Format.binary64 (UnpackedFloat.ofUInt64 Format.binary64 n.toUInt64)))
  rw [UnpackedFloat.ofUInt64, same, UnpackedFloat.ofNat, UnpackedFloat.ofInt,
    UnpackedFloat.normalize, positive]
  exact packed

theorem normal_ofScientific (large : 2 ^ 52 ≤ n) :
    Normal .positive (-53) (nearestNat n) (UnpackedFloat.ofScientific Format.binary64 n 0) := by
  have ne : ¬ n = 0 := by omega
  have notTiny : ¬ (0 : Int) < -((2 ^ Format.binary64.exponentBits : Int) + n.log2) := by
    show ¬ (0 : Int) < -(2048 + n.log2)
    omega
  rw [UnpackedFloat.ofScientific, dif_neg ne, if_neg (by decide), if_neg notTiny,
    if_pos (by decide), UnpackedFloat.mul, Nat.shiftLeft_eq]
  have rounded := normal_roundWithAccuracy (s := .positive) (m := n * 2 ^ 53 * 1) (e := -53 + 0)
    (by omega) (by decide)
  have same :
      ((nearestNat (n * 2 ^ 53 * 1) : Nat) : ℚ) * 2 ^ (-53 + 0 : Int) = nearestNat n := by
    rw [Nat.mul_one, nearestNat_mul large]
    exact mul_two_pow_cancel _ 53
  rwa [same] at rounded

/-- A whole number is converted to the nearest double. A number below `2 ^ 53` is converted as it
is and then multiplied by one. -/
theorem packed_ofNat (hn : 0 < n) :
    Packed .positive (-104) (nearestNat n) (Float.ofNat n).toModel.unpack := by
  show Packed _ _ _ (Float.ofScientific n false 0).toModel.unpack
  rw [Float.ofScientific]
  by_cases small : n < 2 ^ 53 ∧ 0 ≤ 22
  · have nonempty : 0 < Float.exactlyRepresentablePowersOfTen.size := by decide
    have factor : Float.exactlyRepresentablePowersOfTen[0] = Float.ofBits 0x3FF0000000000000 := rfl
    have unpacked : (Float.ofBits 0x3FF0000000000000).toModel.unpack = one := rfl
    rw [dif_pos small, nearestNat_of_lt small.1]
    refine Normal.pack ?_ (by decide)
    rw [factor, unpacked]
    exact (normal_toUInt64 hn small.1).mul_one (by decide)
  · rw [dif_neg small]
    exact ((normal_ofScientific (by omega)).mono (by decide)).pack (by decide)

end

/-! ## Whole numbers -/

section
variable {s : Sign} {b : Int} {r : ℚ} {x : UnpackedFloat}

theorem Packed.amount (h : Packed s b r x) : (decoded x).amount? =
    some (if r < 2 ^ 1024 then .rational (if isNegative s then -r else r)
      else .infinite (isNegative s)) := by
  unfold Packed at h
  split_ifs at h ⊢ with fits negative
  · obtain ⟨pos, lower, upper, least, rfl⟩ := h
    exact congrArg (some <| Amount.rational ·) (if_pos negative)
  · obtain ⟨pos, lower, upper, least, rfl⟩ := h
    exact congrArg (some <| Amount.rational ·) (if_neg negative)
  · rw [h]
    rfl

end

theorem fits_iff {n : Int} : Fits n ↔ (nearestNat n.natAbs : ℚ) < 2 ^ 1024 := by
  rw [Fits, ← nearestNat_lt_iff]
  exact_mod_cast Iff.rfl

/-- The sign of a number that is not zero. -/
def signOf (n : Int) : Sign := if n < 0 then .negative else .positive

theorem isNegative_signOf (n : Int) : isNegative (signOf n) = decide (n < 0) := by
  unfold signOf
  split_ifs with h
  · exact (decide_eq_true h).symm
  · exact (decide_eq_false h).symm

theorem packed_ofInt {n : Int} (hn : n ≠ 0) :
    Packed (signOf n) (-104) (nearestNat n.natAbs) (Float.ofInt n).toModel.unpack := by
  cases n with
  | ofNat n =>
    have sign : signOf (Int.ofNat n) = .positive := if_neg (Int.natCast_nonneg n).not_gt
    rw [sign]
    exact packed_ofNat (Nat.pos_of_ne_zero fun zero => hn (congrArg Int.ofNat zero))
  | negSucc n =>
    have sign : signOf (Int.negSucc n) = .negative := if_pos (Int.negSucc_lt_zero n)
    rw [sign]
    exact (packed_ofNat (Nat.succ_pos n)).neg (by decide)

/-- A whole number amounts to the nearest one that a double can hold, or else to an infinity. -/
theorem amount_ofInt (n : Int) : (Binary.ofFloat (Float.ofInt n)).amount? =
    some (if Fits n then .rational (nearest n) else .infinite (n < 0)) := by
  rw [ofFloat_eq]
  by_cases zero : n = 0
  · rw [zero, if_pos (fits_of_le (by decide))]
    show some (Amount.rational ((0 : Nat) * 2 ^ (-1074 : Int))) = _
    simp [nearest]
  have size :
      (if n < 0 then -(nearestNat n.natAbs : ℚ) else nearestNat n.natAbs) = nearest n := by
    rw [nearest]
    split_ifs with sign
    · rw [Int.sign_eq_neg_one_of_neg sign]
      push_cast
      ring
    · rw [Int.sign_eq_one_of_pos (by omega)]
      push_cast
      ring
  rw [(packed_ofInt zero).amount]
  simp only [← fits_iff, isNegative_signOf, decide_eq_true_eq, size]

theorem isInf_iff {x : Float} :
    x.isInf = true ↔ ∃ negative, (Binary.ofFloat x).amount? = some (.infinite negative) := by
  rw [ofFloat_eq]
  show x.toModel.unpack.isInf = true ↔ _
  cases x.toModel.unpack with
  | infinity s => exact iff_of_true rfl ⟨_, rfl⟩
  | _ => exact iff_of_false nofun nofun

/-- Only numbers that are too large have no double. -/
theorem roundInt?_eq (n : Int) : roundInt? n = if Fits n then some (Float.ofInt n) else none := by
  have inf : (Float.ofInt n).isInf = true ↔ ¬ Fits n := by
    rw [isInf_iff, amount_ofInt]
    split_ifs with fits
    · exact iff_of_false nofun (not_not.2 fits)
    · exact iff_of_true ⟨_, rfl⟩ fits
  rw [roundInt?]
  simp only [inf, ite_not]

/-- A whole number above zero is converted to a double above zero. -/
theorem ofInt_pos {n : Int} (hn : 0 < n) : 0 < Float.ofInt n := by
  have packed := packed_ofInt hn.ne'
  rw [signOf, if_neg hn.not_gt] at packed
  have zero : (0 : Float).toModel.unpack = .zero .positive := rfl
  show Float.lt 0 (Float.ofInt n) = true
  rw [Float.lt, decide_eq_true_iff]
  show UnpackedFloat.lt (0 : Float).toModel.unpack (Float.ofInt n).toModel.unpack = true
  rw [zero]
  generalize (Float.ofInt n).toModel.unpack = x at packed
  unfold Packed at packed
  split_ifs at packed
  · obtain ⟨⟩ := packed
    rfl
  · rw [packed]
    rfl

end ThemeProps.Double
