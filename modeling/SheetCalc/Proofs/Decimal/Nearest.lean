import SheetCalc.Decimal.Numeral
import SheetCalc.Proofs.Decimal.Arithmetic

/-!
# The float nearest to a decimal

A decimal in the interval of a float is read as that float (`nearestFloat_eq`): the product or the
quotient that stands for it is rounded once, and the sizes that are settled by their length alone
are out of the range of all floats.
-/

namespace SheetCalc.Decimal

open Float.Model (Format totalExponent UnpackedFloat)
open Float.Model.UnpackedFloat

/-! ## Floats and their parts -/

/-- The float with a given sign, mantissa and exponent. -/
def ofParts (s : Sign) {m : Nat} {q : Int} (stored : Stored m q) : Float :=
  .ofModel (.pack (.finite s m q stored.positive))

theorem toNat_packComponents (s : Sign) (field : BitVec 11) (fraction : BitVec 52) :
    (packComponents Format.binary64 s field fraction).toNat =
      s.toBitVec.toNat * 2 ^ 63 + field.toNat * 2 ^ 52 + fraction.toNat := by
  unfold packComponents
  rw [BitVec.toNat_append, BitVec.toNat_append, ← Nat.shiftLeft_add_eq_or_of_lt fraction.isLt,
    ← Nat.shiftLeft_add_eq_or_of_lt field.isLt, Nat.shiftLeft_eq, Nat.shiftLeft_eq]
  omega

theorem unpackSign_packComponents (s : Sign) (field : BitVec 11) (fraction : BitVec 52) :
    @unpackSign Format.binary64 (packComponents Format.binary64 s field fraction) = s.toBitVec := by
  show ((s.toBitVec ++ field ++ fraction).extractLsb' 63 1) = s.toBitVec
  rw [BitVec.extractLsb'_append_eq_of_le (by decide),
    BitVec.extractLsb'_append_eq_of_le (by decide)]
  cases s <;> rfl

/-- The exponent field of a float that is not zero. -/
def fieldOf (m : Nat) (q : Int) : Nat :=
  if 2 ^ 52 ≤ m then (q + 1075).toNat else 0

theorem fieldOf_lt {m : Nat} {q : Int} (stored : Stored m q) : fieldOf m q < 2047 := by
  have high := stored.high
  unfold fieldOf
  split <;> omega

theorem pack_eq (s : Sign) {m : Nat} {q : Int} (stored : Stored m q) :
    pack Format.binary64 (.finite s m q stored.positive) =
      packComponents Format.binary64 s (BitVec.ofNat 11 (fieldOf m q)) (BitVec.ofNat 52 m) := by
  obtain ⟨positive, small, low, high, full⟩ := stored
  have biased : (q + (Format.binary64.exponentBias : Int) +
      (Format.binary64.mantissaBitsWithoutImplicit : Int)).toNat = (q + 1075).toNat := by
    show (q + 1023 + 52).toNat = _
    omega
  have length : m.log2 + 1 = Format.binary64.mantissaBits ↔ 2 ^ 52 ≤ m := by
    show m.log2 + 1 = 53 ↔ _
    rw [← Nat.le_log2 positive.ne']
    have short := (Nat.log2_lt positive.ne').mpr small
    omega
  have inside : ¬ 2 ^ 11 ≤ (q + 1075).toNat + 1 := by omega
  unfold pack fieldOf
  dsimp only
  rw [biased, if_neg inside]
  simp only [length]
  split <;> rfl

theorem finite_congr {s : Sign} {m n : Nat} {p q : Int} {m_pos : 0 < m} {n_pos : 0 < n}
    (mantissa : m = n) (exponent : p = q) :
    UnpackedFloat.finite s m p m_pos = .finite s n q n_pos := by
  subst mantissa exponent
  rfl

/-- The bits of a float whose exponent field is neither zero nor all ones. -/
theorem unpack_normal {b : BitVec Format.binary64.numBits} {field : BitVec 11}
    {fraction : BitVec 52} (exponent : unpackExponent b = field)
    (mantissa : unpackMantissa b = fraction)
    (inside : field ≠ -1#11) (nonzero : field ≠ 0#11) {m : Nat} (positive : 0 < m)
    (value : (1#1 ++ fraction).toNat = m) :
    unpack Format.binary64 b =
      .finite (.ofBitVec (unpackSign b)) m ((field.toNat : Int) - 1075) positive := by
  subst exponent mantissa
  unfold unpack
  dsimp only
  rw [if_neg inside, if_neg nonzero]
  exact finite_congr value rfl

/-- The bits of a float whose exponent field is zero. -/
theorem unpack_subnormal {b : BitVec Format.binary64.numBits} {fraction : BitVec 52}
    (exponent : unpackExponent b = 0#11) (mantissa : unpackMantissa b = fraction)
    (positive : 0 < fraction.toNat) :
    unpack Format.binary64 b =
      .finite (.ofBitVec (unpackSign b)) fraction.toNat (-1074) positive := by
  subst mantissa
  have nonzero : unpackMantissa b ≠ 0#52 := by
    intro zero
    rw [zero] at positive
    exact absurd positive (by decide)
  have inside : unpackExponent b ≠ -1#11 := by
    rw [exponent]
    decide
  unfold unpack
  dsimp only
  rw [if_neg inside, if_pos exponent, dif_neg nonzero]
  refine finite_congr rfl ?_
  rw [exponent]
  rfl

theorem unpack_ofParts (s : Sign) {m : Nat} {q : Int} (stored : Stored m q) :
    (ofParts s stored).toModel.unpack = .finite s m q stored.positive := by
  show unpack Format.binary64 (pack Format.binary64 (.finite s m q stored.positive)) = _
  have field : (BitVec.ofNat 11 (fieldOf m q)).toNat = fieldOf m q := by
    have less := fieldOf_lt stored
    rw [BitVec.toNat_ofNat]
    omega
  have sign : Sign.ofBitVec s.toBitVec = s := by cases s <;> rfl
  obtain ⟨positive, small, low, high, full⟩ := id stored
  rw [pack_eq s stored]
  by_cases normal : 2 ^ 52 ≤ m
  · have value : fieldOf m q = (q + 1075).toNat := if_pos normal
    have inside : BitVec.ofNat 11 (fieldOf m q) ≠ -1#11 := by
      intro ones
      have same := congrArg BitVec.toNat ones
      rw [field] at same
      exact (fieldOf_lt stored).ne same
    have nonzero : BitVec.ofNat 11 (fieldOf m q) ≠ 0#11 := by
      intro zero
      have same := congrArg BitVec.toNat zero
      rw [field, value] at same
      change _ = 0 at same
      omega
    have mantissa : (1#1 ++ BitVec.ofNat 52 m).toNat = m := by
      rw [BitVec.toNat_append, ← Nat.shiftLeft_add_eq_or_of_lt (BitVec.isLt _), BitVec.toNat_ofNat]
      show 1 <<< 52 + m % 2 ^ 52 = m
      omega
    rw [unpack_normal (unpackExponent_packComponents ..) (unpackMantissa_packComponents ..) inside
      nonzero positive mantissa, unpackSign_packComponents, sign]
    refine finite_congr rfl ?_
    rw [field]
    omega
  · have zero : BitVec.ofNat 11 (fieldOf m q) = 0#11 := by rw [fieldOf, if_neg normal]
    have mantissa : (BitVec.ofNat 52 m).toNat = m := by
      rw [BitVec.toNat_ofNat]
      omega
    rw [zero, unpack_subnormal (unpackExponent_packComponents ..) (unpackMantissa_packComponents ..)
      (mantissa.symm ▸ positive), unpackSign_packComponents, sign]
    exact finite_congr mantissa (by omega)

theorem toNat_toBits_ofParts (s : Sign) {m : Nat} {q : Int} (stored : Stored m q) :
    (ofParts s stored).toBits.toNat =
      s.toBitVec.toNat * 2 ^ 63 + fieldOf m q * 2 ^ 52 + m % 2 ^ 52 := by
  have field : (BitVec.ofNat 11 (fieldOf m q)).toNat = fieldOf m q := by
    have less := fieldOf_lt stored
    rw [BitVec.toNat_ofNat]
    omega
  show (pack Format.binary64 (.finite s m q stored.positive)).toNat = _
  rw [pack_eq s stored, toNat_packComponents, field, BitVec.toNat_ofNat]

theorem magnitude_ofParts (s : Sign) {m : Nat} {q : Int} (stored : Stored m q) :
    magnitude (ofParts s stored) = .finite m q := by
  have less := fieldOf_lt stored
  have sign := s.toBitVec.isLt
  obtain ⟨positive, small, low, high, full⟩ := id stored
  unfold magnitude
  rw [toNat_toBits_ofParts]
  simp only [Nat.pow_eq]
  rw [if_neg (by omega)]
  by_cases normal : 2 ^ 52 ≤ m
  · have value : fieldOf m q = (q + 1075).toNat := if_pos normal
    rw [if_neg (by omega)]
    congr 1 <;> omega
  · have zero : fieldOf m q = 0 := if_neg normal
    rw [if_pos (by omega)]
    congr 1 <;> omega

theorem isNegative_ofParts (s : Sign) {m : Nat} {q : Int} (stored : Stored m q) :
    isNegative (ofParts s stored) = (s == .negative) := by
  have less := fieldOf_lt stored
  unfold isNegative
  rw [toNat_toBits_ofParts, Nat.pow_eq]
  cases s with
  | negative =>
      show decide _ = true
      rw [decide_eq_true_iff]
      show 2 ^ 63 ≤ 1 * 2 ^ 63 + _ + _
      omega
  | positive =>
      show decide _ = false
      rw [decide_eq_false_iff_not]
      show ¬ 2 ^ 63 ≤ 0 * 2 ^ 63 + _ + _
      omega

theorem neg_ofParts {m : Nat} {q : Int} (stored : Stored m q) :
    -ofParts .positive stored = ofParts .negative stored := by
  show Float.ofModel (.pack (UnpackedFloat.neg (ofParts .positive stored).toModel.unpack)) = _
  rw [unpack_ofParts]
  rfl

/-- A float is known by its sign, its mantissa and its exponent. -/
theorem eq_of_magnitude {x y : Float} {m : Nat} {q : Int} (left : magnitude x = .finite m q)
    (right : magnitude y = .finite m q) (sign : isNegative x = isNegative y) : x = y := by
  have known {z : Float} (finite : magnitude z = .finite m q) :
      z.toBits.toNat % 2 ^ 63 = fieldOf m q * 2 ^ 52 + m % 2 ^ 52 := by
    unfold magnitude at finite
    unfold fieldOf
    simp only [Nat.pow_eq] at finite
    split at finite
    · split at finite <;> cases finite
    · split at finite <;> cases finite <;> split <;> omega
  have front : 2 ^ 63 ≤ x.toBits.toNat ↔ 2 ^ 63 ≤ y.toBits.toNat := by
    unfold isNegative at sign
    simpa only [Nat.pow_eq, decide_eq_decide] using sign
  have same : x.toBits = y.toBits := by
    have x_less := x.toBits.toNat_lt
    have y_less := y.toBits.toNat_lt
    have x_known := known left
    have y_known := known right
    apply UInt64.toNat_inj.mp
    omega
  obtain ⟨⟨bits, _⟩⟩ := x
  obtain ⟨⟨bits', _⟩⟩ := y
  obtain rfl : bits = bits' := same
  rfl

theorem eq_ofParts {x : Float} {m : Nat} {q : Int} (stored : Stored m q)
    (finite : magnitude x = .finite m q) :
    x = ofParts (if isNegative x then .negative else .positive) stored := by
  refine eq_of_magnitude finite (magnitude_ofParts _ stored) ?_
  rw [isNegative_ofParts]
  cases isNegative x <;> rfl

/-! ## Arithmetic on floats -/

theorem mul_ofParts {m₁ m₂ m : Nat} {q₁ q₂ q : Int} (stored₁ : Stored m₁ q₁)
    (stored₂ : Stored m₂ q₂) (stored : Stored m q)
    (rounds : RoundsTo (m₁ * (2 : ℚ) ^ q₁ * (m₂ * (2 : ℚ) ^ q₂)) m q)
    (long : 2 ^ 52 ≤ m₁) :
    ofParts .positive stored₁ * ofParts .positive stored₂ = ofParts .positive stored := by
  show Float.ofModel (.pack (mul Format.binary64 (ofParts .positive stored₁).toModel.unpack
    (ofParts .positive stored₂).toModel.unpack)) = _
  rw [unpack_ofParts, unpack_ofParts, mul_eq stored₁.positive stored₂.positive stored rounds long]
  rfl

theorem div_ofParts {m₁ m₂ m : Nat} {q₁ q₂ q : Int} (stored₁ : Stored m₁ q₁)
    (stored₂ : Stored m₂ q₂) (stored : Stored m q)
    (rounds : RoundsTo (m₁ * (2 : ℚ) ^ q₁ / (m₂ * (2 : ℚ) ^ q₂)) m q) :
    ofParts .positive stored₁ / ofParts .positive stored₂ = ofParts .positive stored := by
  show Float.ofModel (.pack (div Format.binary64 (ofParts .positive stored₁).toModel.unpack
    (ofParts .positive stored₂).toModel.unpack)) = _
  rw [unpack_ofParts, unpack_ofParts, div_eq stored₁.positive stored₂.positive stored rounds]
  rfl

theorem toFloat_ofParts {n : Nat} (some : 0 < n) (small : n < 2 ^ 53) :
    ∃ m q, ∃ stored : Stored m q, n.toUInt64.toFloat = ofParts .positive stored ∧
      m * (2 : ℚ) ^ q = n ∧ 2 ^ 52 ≤ m := by
  obtain ⟨m, q, stored, converted, value, long⟩ := ofNat_eq some small
  refine ⟨m, q, stored, ?_, value, long⟩
  show Float.ofModel (.pack (ofNat Format.binary64 (n % 2 ^ 64))) = _
  rw [Nat.mod_eq_of_lt (by omega), converted]
  rfl

/-! ## Powers of ten -/

/-- A float is a given power of ten. -/
def isPowerOfTen (x : Float) (e : Nat) : Bool :=
  match magnitude x with
  | .finite m q => !isNegative x && m != 0 && (inUnits m q e).1 == (inUnits m q e).2
  | _ => false

theorem isPowerOfTen_powers :
    ∀ e : Fin 23, isPowerOfTen Float.exactlyRepresentablePowersOfTen[e] e = true := by
  decide +kernel

/-- The powers of ten that are kept are what they should be. -/
theorem power_ofParts (e : Fin 23) :
    ∃ m q, ∃ stored : Stored m q,
      Float.exactlyRepresentablePowersOfTen[e] = ofParts .positive stored ∧
        m * (2 : ℚ) ^ q = 10 ^ (e : Nat) := by
  have power := isPowerOfTen_powers e
  generalize Float.exactlyRepresentablePowersOfTen[e] = x at power ⊢
  unfold isPowerOfTen at power
  split at power
  · next m q finite =>
      simp only [Bool.and_eq_true, Bool.not_eq_true', bne_iff_ne, beq_iff_eq] at power
      obtain ⟨⟨positive, nonzero⟩, value⟩ := power
      have stored := stored_of_magnitude finite nonzero
      refine ⟨m, q, stored, ?_, ?_⟩
      · rw [eq_ofParts stored finite, positive]
        rfl
      · obtain ⟨u, u_pos, parts⟩ := inUnits_eq q e
        have same : ((inUnits m q e).1 : ℚ) = (inUnits m q e).2 := by exact_mod_cast value
        rw [(parts m).1, (parts m).2] at same
        have cancelled := mul_right_cancel₀ u_pos.ne' same
        rw [cancelled, zpow_natCast]
  · cases power

/-! ## Sizes -/

/-- All numbers in the interval of a float lie in one range. -/
theorem RoundsTo.range {v : ℚ} {m : Nat} {q : Int} (stored : Stored m q) (rounds : RoundsTo v m q) :
    (2 : ℚ) ^ (-1075 : Int) ≤ v ∧ v < (2 : ℚ) ^ (1024 : Int) := by
  have low := stored.low
  have high := stored.high
  constructor
  · have one : (1 : ℚ) ≤ m := by exact_mod_cast stored.positive
    have two : (2 : ℚ) ≤ bottom m q := by linarith [le_bottom stored.positive q]
    calc (2 : ℚ) ^ (-1075 : Int) ≤ (2 : ℚ) ^ (1 + (q - 2)) :=
          zpow_le_zpow_right₀ (by norm_num) (by omega)
      _ = 2 * (2 : ℚ) ^ (q - 2) := by rw [zpow_add₀ (by norm_num), zpow_one]
      _ ≤ bottom m q * (2 : ℚ) ^ (q - 2) := by gcongr
      _ ≤ v := rounds.above
  · exact (rounds.bounds stored).1.trans_le (zpow_le_zpow_right₀ (by norm_num) (by omega))

/-- A decimal is as large as its digits and its exponent make it. -/
theorem decimal_bounds {c : Nat} (some : 0 < c) (e : Int) :
    (2 : ℚ) ^ c.log2 * (10 : ℚ) ^ e ≤ c * (10 : ℚ) ^ e ∧
      c * (10 : ℚ) ^ e < (2 : ℚ) ^ (c.log2 + 1) * (10 : ℚ) ^ e := by
  have unit : (0 : ℚ) < (10 : ℚ) ^ e := by positivity
  constructor
  · refine mul_le_mul_of_nonneg_right ?_ unit.le
    exact_mod_cast Nat.log2_self_le some.ne'
  · refine mul_lt_mul_of_pos_right ?_ unit
    exact_mod_cast Nat.lt_log2_self

theorem two_zpow_le_ten {a b : Int} (nonneg : 0 ≤ b) (less : a ≤ 3 * b) :
    (2 : ℚ) ^ a ≤ (10 : ℚ) ^ b :=
  calc (2 : ℚ) ^ a ≤ (2 : ℚ) ^ (3 * b) := zpow_le_zpow_right₀ (by norm_num) less
    _ = (8 : ℚ) ^ b := by
        rw [zpow_mul]
        norm_num
    _ ≤ (10 : ℚ) ^ b := zpow_le_zpow_left₀ nonneg (by norm_num) (by norm_num)

theorem ten_zpow_le_two {a b : Int} (nonpos : a ≤ 0) (less : 3 * a ≤ b) :
    (10 : ℚ) ^ a ≤ (2 : ℚ) ^ b := by
  have inverse := two_zpow_le_ten (a := -b) (b := -a) (by omega) (by omega)
  rw [zpow_neg, zpow_neg] at inverse
  exact (inv_le_inv₀ (by positivity) (by positivity)).mp inverse

theorem ten_pow_le_two (n : Nat) : 10 ^ (n * 3 / 10) ≤ 2 ^ n := by
  refine le_of_not_gt fun more => ?_
  have powers := Nat.pow_lt_pow_left more (n := 10) (by decide)
  have wrong : (10 ^ (n * 3 / 10)) ^ 10 ≤ (2 ^ n) ^ 10 :=
    calc (10 ^ (n * 3 / 10)) ^ 10 = 10 ^ (n * 3 / 10 * 10) := (Nat.pow_mul ..).symm
      _ ≤ 10 ^ (3 * n) := Nat.pow_le_pow_right (by decide) (by omega)
      _ = (10 ^ 3) ^ n := Nat.pow_mul ..
      _ ≤ (2 ^ 10) ^ n := Nat.pow_le_pow_left (by decide) n
      _ = (2 ^ n) ^ 10 := by rw [← Nat.pow_mul, ← Nat.pow_mul, Nat.mul_comm]
  omega

theorem two_pow_le_ten (n : Nat) : 2 ^ n ≤ 4 * 10 ^ (n / 3) :=
  calc 2 ^ n ≤ 2 ^ (2 + 3 * (n / 3)) := Nat.pow_le_pow_right (by decide) (by omega)
    _ = 4 * (2 ^ 3) ^ (n / 3) := by rw [Nat.pow_add, Nat.pow_mul]
    _ ≤ 4 * 10 ^ (n / 3) := Nat.mul_le_mul_left 4 (Nat.pow_le_pow_left (by decide) _)

/-- A decimal with too many digits, or with too high an exponent, is beyond all floats. -/
theorem two_zpow_le_of_long {c : Nat} {e : Int} (some : 0 < c)
    (long : 400 < e + (c.log2 : Int) * 3 / 10) : (2 : ℚ) ^ (1024 : Int) ≤ c * (10 : ℚ) ^ e := by
  have power : ((10 ^ (c.log2 * 3 / 10) : ℕ) : ℚ) ≤ (2 ^ c.log2 : ℕ) := by
    exact_mod_cast ten_pow_le_two c.log2
  push_cast at power
  calc (2 : ℚ) ^ (1024 : Int) ≤ (10 : ℚ) ^ (((c.log2 * 3 / 10 : ℕ) : Int) + e) :=
        two_zpow_le_ten (by omega) (by omega)
    _ = (10 : ℚ) ^ (c.log2 * 3 / 10) * (10 : ℚ) ^ e := by
        rw [zpow_add₀ (by norm_num), zpow_natCast]
    _ ≤ (2 : ℚ) ^ c.log2 * (10 : ℚ) ^ e := mul_le_mul_of_nonneg_right power (by positivity)
    _ ≤ c * (10 : ℚ) ^ e := (decimal_bounds some e).1

theorem two_zpow_le_of_high {c : Nat} {e : Int} (some : 0 < c) (high : 2048 < e) :
    (2 : ℚ) ^ (1024 : Int) ≤ c * (10 : ℚ) ^ e := by
  have one : (1 : ℚ) ≤ c := by exact_mod_cast some
  exact (two_zpow_le_ten (by omega) (by omega)).trans (le_mul_of_one_le_left (by positivity) one)

/-- A decimal with too few digits, or with too low an exponent, is closer to zero than all
floats. -/
theorem lt_two_zpow_of_short {c : Nat} {e : Int} (some : 0 < c)
    (short : e + ((c.log2 : Int) + 1) / 3 < -400) : c * (10 : ℚ) ^ e < (2 : ℚ) ^ (-1075 : Int) := by
  have power : ((2 ^ (c.log2 + 1) : ℕ) : ℚ) ≤ (4 * 10 ^ ((c.log2 + 1) / 3) : ℕ) := by
    exact_mod_cast two_pow_le_ten (c.log2 + 1)
  push_cast at power
  calc c * (10 : ℚ) ^ e < (2 : ℚ) ^ (c.log2 + 1) * (10 : ℚ) ^ e := (decimal_bounds some e).2
    _ ≤ 4 * (10 : ℚ) ^ ((c.log2 + 1) / 3) * (10 : ℚ) ^ e :=
        mul_le_mul_of_nonneg_right power (by positivity)
    _ = 4 * (10 : ℚ) ^ ((((c.log2 + 1) / 3 : ℕ) : Int) + e) := by
        rw [zpow_add₀ (by norm_num), zpow_natCast, mul_assoc]
    _ ≤ 4 * (2 : ℚ) ^ (-1077 : Int) := by
        refine mul_le_mul_of_nonneg_left ?_ (by norm_num)
        exact ten_zpow_le_two (by omega) (by omega)
    _ = (2 : ℚ) ^ (-1075 : Int) := by
        rw [show (-1075 : Int) = 2 + -1077 from rfl, zpow_add₀ (by norm_num)]
        norm_num

theorem lt_two_zpow_of_low {c : Nat} {e : Int} (some : 0 < c) (low : e < -(2048 + (c.log2 : Int))) :
    c * (10 : ℚ) ^ e < (2 : ℚ) ^ (-1075 : Int) :=
  calc c * (10 : ℚ) ^ e < (2 : ℚ) ^ (c.log2 + 1) * (10 : ℚ) ^ e := (decimal_bounds some e).2
    _ ≤ (2 : ℚ) ^ (c.log2 + 1) * (2 : ℚ) ^ (-1076 - (c.log2 : Int)) := by
        refine mul_le_mul_of_nonneg_left ?_ (by positivity)
        exact ten_zpow_le_two (by omega) (by omega)
    _ = (2 : ℚ) ^ (-1075 : Int) := by
        rw [← zpow_natCast, ← zpow_add₀ (by norm_num)]
        congr 1
        push_cast
        ring

/-- A decimal in the interval of a float has a size that is not settled by its length. -/
structure Sized (c : Nat) (e : Int) : Prop where
  positive : 0 < c
  long : e + (c.log2 : Int) * 3 / 10 ≤ 400
  short : -400 ≤ e + ((c.log2 : Int) + 1) / 3
  high : e ≤ 2048
  low : -(2048 + (c.log2 : Int)) ≤ e

theorem sized_of_roundsTo {c m : Nat} {e q : Int} (stored : Stored m q)
    (rounds : RoundsTo (c * (10 : ℚ) ^ e) m q) : Sized c e := by
  obtain ⟨least, most⟩ := rounds.range stored
  have positive : 0 < c := by
    rcases Nat.eq_zero_or_pos c with rfl | positive
    · rw [Nat.cast_zero, zero_mul] at least
      exact absurd least (not_le.mpr (by positivity))
    · exact positive
  exact {
    positive
    long := not_lt.mp fun long => most.not_ge (two_zpow_le_of_long positive long)
    short := not_lt.mp fun short => least.not_gt (lt_two_zpow_of_short positive short)
    high := not_lt.mp fun high => most.not_ge (two_zpow_le_of_high positive high)
    low := not_lt.mp fun low => least.not_gt (lt_two_zpow_of_low positive low) }

/-! ## Decimals -/

/-- A decimal is read as the float in whose interval it is. -/
theorem ofScientific_unpacked {c m : Nat} {e q : Int} (stored : Stored m q)
    (rounds : RoundsTo (c * (10 : ℚ) ^ e) m q) :
    ofScientific Format.binary64 c e = .finite .positive m q stored.positive := by
  obtain ⟨positive, _, _, high, low⟩ := sized_of_roundsTo stored rounds
  unfold ofScientific
  rw [dif_neg positive.ne', if_neg (show ¬ e > 2 ^ 11 by omega),
    if_neg (show ¬ e < -((2 ^ 11 : Int) + c.log2) by omega)]
  by_cases nonneg : 0 ≤ e
  · rw [if_pos nonneg]
    have value : ((c <<< 53 : ℕ) : ℚ) * (2 : ℚ) ^ (-53 : Int) *
        ((10 ^ e.toNat : ℕ) * (2 : ℚ) ^ (0 : Int)) = c * (10 : ℚ) ^ e := by
      conv_rhs => rw [← Int.toNat_of_nonneg nonneg, zpow_natCast]
      rw [Nat.shiftLeft_eq]
      push_cast
      norm_num
      ring
    have long : 2 ^ 52 ≤ c <<< 53 := by
      rw [Nat.shiftLeft_eq]
      omega
    rw [← value] at rounds
    exact mul_eq _ _ stored rounds long
  · rw [if_neg nonneg]
    have value : (c : ℚ) * (2 : ℚ) ^ (0 : Int) / ((10 ^ (-e).toNat : ℕ) * (2 : ℚ) ^ (0 : Int)) =
        c * (10 : ℚ) ^ e := by
      conv_rhs => rw [← neg_neg e, zpow_neg, ← Int.toNat_of_nonneg (show 0 ≤ -e by omega),
        zpow_natCast]
      push_cast
      rw [mul_one, mul_one, div_eq_mul_inv]
    rw [← value] at rounds
    exact div_eq _ _ stored rounds

theorem ofScientific_eq {c m e : Nat} {q : Int} (negative : Bool) (stored : Stored m q)
    (rounds : RoundsTo (c * (10 : ℚ) ^ (if negative then Int.negOfNat e else Int.ofNat e)) m q) :
    Float.ofScientific c negative e = ofParts .positive stored := by
  have positive := (sized_of_roundsTo stored rounds).positive
  unfold Float.ofScientific
  split
  · next small =>
      -- Both factors are floats, so there is one rounding here as well.
      obtain ⟨m₁, q₁, stored₁, converted, value₁, long⟩ := toFloat_ofParts positive small.1
      obtain ⟨m₂, q₂, stored₂, power, value₂⟩ := power_ofParts ⟨e, by omega⟩
      simp only [converted]
      cases negative with
      | true =>
          have value : m₁ * (2 : ℚ) ^ q₁ / (m₂ * (2 : ℚ) ^ q₂) = c * (10 : ℚ) ^ Int.negOfNat e := by
            rw [value₁, value₂, Int.negOfNat_eq, zpow_neg, div_eq_mul_inv]
            rfl
          refine Eq.trans ?_ (div_ofParts stored₁ stored₂ stored (value ▸ rounds))
          rw [← power]
          rfl
      | false =>
          have value : m₁ * (2 : ℚ) ^ q₁ * (m₂ * (2 : ℚ) ^ q₂) = c * (10 : ℚ) ^ Int.ofNat e := by
            rw [value₁, value₂]
            rfl
          refine Eq.trans ?_ (mul_ofParts stored₁ stored₂ stored (value ▸ rounds) long)
          rw [← power]
          rfl
  · show Float.ofModel (.pack (ofScientific Format.binary64 c _)) = _
    rw [ofScientific_unpacked stored rounds]
    rfl

/-- **A decimal in the interval of a float is read as that float.** -/
theorem nearestFloat_eq {c m : Nat} {e q : Int} (stored : Stored m q)
    (rounds : RoundsTo (c * (10 : ℚ) ^ e) m q) : nearestFloat c e = ofParts .positive stored := by
  obtain ⟨positive, long, short, _, _⟩ := sized_of_roundsTo stored rounds
  unfold nearestFloat
  simp only
  rw [if_neg positive.ne', if_neg (by omega), if_neg (by omega)]
  split
  · next nonneg =>
      have back : Int.ofNat e.toNat = e := Int.toNat_of_nonneg nonneg
      exact ofScientific_eq false stored (by rwa [← back] at rounds)
  · next negative =>
      have back : Int.negOfNat (-e).toNat = e := by
        rw [Int.negOfNat_eq, Int.ofNat_eq_natCast, Int.toNat_of_nonneg (by omega), neg_neg]
      exact ofScientific_eq true stored (by rwa [← back] at rounds)

/-- A numeral in the interval of a float, with its sign, is that float. -/
theorem toFloat_decimal {x : Float} {c m : Nat} {e q : Int} (finite : magnitude x = .finite m q)
    (nonzero : m ≠ 0) (rounds : RoundsTo (c * (10 : ℚ) ^ e) m q) :
    (Numeral.decimal (isNegative x) c e).toFloat = x := by
  have stored := stored_of_magnitude finite nonzero
  have parts := eq_ofParts stored finite
  unfold Numeral.toFloat
  simp only
  rw [nearestFloat_eq stored rounds]
  cases sign : isNegative x with
  | true =>
      rw [if_pos rfl, neg_ofParts]
      rw [sign] at parts
      exact parts.symm
  | false =>
      rw [sign] at parts
      exact parts.symm

theorem toFloat_zero {x : Float} {q : Int} (finite : magnitude x = .finite 0 q) (e : Int) :
    (Numeral.decimal (isNegative x) 0 e).toFloat = x := by
  have least : q = -1074 := by
    unfold magnitude at finite
    simp only [Nat.pow_eq] at finite
    split at finite
    · split at finite <;> cases finite
    · split at finite <;> injection finite <;> omega
  subst least
  have zero (negative : Bool) :
      (Numeral.decimal negative 0 e).toFloat = if negative then -0 else 0 := rfl
  rw [zero]
  refine eq_of_magnitude ?_ finite ?_
  · cases isNegative x <;> decide +kernel
  · cases isNegative x <;> decide +kernel

end SheetCalc.Decimal
