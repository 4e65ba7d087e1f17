import SheetCalc.Proofs.Decimal.Interval
import Mathlib.Tactic.NormNum

/-!
# Rounding of products and quotients

The product and the quotient of two floats are rounded once. A mantissa is cut off with a note of
what stands behind it (`Describes`), and is rounded by this note alone: so the float that comes out
is the one in whose interval the exact result is (`mul_eq`, `div_eq`).
-/

namespace SheetCalc.Decimal

open Float.Model (Format totalExponent UnpackedFloat)
open Float.Model.UnpackedFloat

/-! ## Cutting off bits -/

/-- A number has a given mantissa as its whole part, and the two bits say how its fraction stands to
a half. -/
def Describes (em : ExtendedMantissa) (v : ℚ) : Prop :=
  match em.roundBit, em.stickyBit with
  | false, false => v = em.mantissa
  | false, true => em.mantissa < v ∧ v < em.mantissa + 1 / 2
  | true, false => v = em.mantissa + 1 / 2
  | true, true => em.mantissa + 1 / 2 < v ∧ v < em.mantissa + 1

theorem Describes.floor {em : ExtendedMantissa} {v : ℚ} (describes : Describes em v) :
    em.mantissa ≤ v ∧ v < em.mantissa + 1 := by
  obtain ⟨n, round, sticky⟩ := em
  cases round <;> cases sticky <;> simp only [Describes] at describes ⊢ <;>
    constructor <;> linarith

theorem Describes.shiftRightOne {em : ExtendedMantissa} {v : ℚ} (describes : Describes em v) :
    Describes em.shiftRightOne (v / 2) := by
  obtain ⟨n, round, sticky⟩ := em
  have parts : ((n % 2 : ℕ) : ℚ) + 2 * (n / 2 : ℕ) = n := by exact_mod_cast Nat.mod_add_div n 2
  rcases Nat.mod_two_eq_zero_or_one n with even | odd
  · rw [even, Nat.cast_zero, zero_add] at parts
    cases round <;> cases sticky <;>
      simp only [Describes, ExtendedMantissa.shiftRightOne, even, ← parts] at describes ⊢ <;>
      simp <;> first | linarith | constructor <;> linarith
  · rw [odd, Nat.cast_one] at parts
    cases round <;> cases sticky <;>
      simp only [Describes, ExtendedMantissa.shiftRightOne, odd, ← parts] at describes ⊢ <;>
      simp <;> first | linarith | constructor <;> linarith

theorem Describes.shiftRight {em : ExtendedMantissa} {v : ℚ} (describes : Describes em v)
    (k : Nat) : Describes (em >>> k) (v / 2 ^ k) := by
  change Describes (k.repeat ExtendedMantissa.shiftRightOne em) _
  induction k with
  | zero => simpa [Nat.repeat] using describes
  | succ k ih =>
      rw [Nat.repeat, pow_succ, ← div_div]
      exact ih.shiftRightOne

/-! ## Rounding -/

/-- A number is half a unit away from a whole one, at most; less than that if the whole one is
odd. -/
structure Near (v : ℚ) (n : Nat) : Prop where
  above : n - 1 / 2 ≤ v
  below : v ≤ n + 1 / 2
  inside : n % 2 ≠ 0 → n - 1 / 2 < v ∧ v < n + 1 / 2

/-- A mantissa is rounded to the whole number that is near. -/
theorem Describes.roundedMantissa {em : ExtendedMantissa} {v : ℚ} {n : Nat}
    (describes : Describes em v) (near : Near v n) : em.roundedMantissa = n := by
  obtain ⟨least, most⟩ := describes.floor
  have upper : em.mantissa ≤ n := by
    have less : (em.mantissa : ℚ) < n + 1 := by linarith [near.below]
    exact Nat.lt_succ_iff.mp (by exact_mod_cast less)
  have lower : n ≤ em.mantissa + 1 := by
    have less : (n : ℚ) < em.mantissa + 2 := by linarith [near.above]
    have whole : n < em.mantissa + 2 := by exact_mod_cast less
    omega
  have sides : n = em.mantissa ∨ n = em.mantissa + 1 := by omega
  obtain ⟨k, round, sticky⟩ := em
  unfold ExtendedMantissa.roundedMantissa
  rcases sides with rfl | rfl
  · have below := near.below
    cases round <;> cases sticky <;>
      simp only [Describes, ExtendedMantissa.accuracy, Accuracy.roundToNearestEven] at describes ⊢
    · by_contra odd
      have inside := near.inside (by omega)
      linarith
    · linarith
  · have above := near.above
    cases round <;> cases sticky <;>
      simp only [Describes, ExtendedMantissa.accuracy, Accuracy.roundToNearestEven]
        at describes ⊢ <;>
      push_cast at above
    · linarith
    · linarith
    · by_contra even
      have inside := (near.inside (show (k + 1) % 2 ≠ 0 by omega)).1
      push_cast at inside
      linarith

theorem targetExponent_eq (n : Nat) (e : Int) :
    Format.binary64.targetExponent (totalExponent n e) = max (n.log2 + 1 + e - 53) (-1074) := rfl

/-- A power of two in quarters of a unit of a mantissa. -/
theorem zpow_in_quarters (k : Nat) (q : Int) :
    (2 : ℚ) ^ ((k : Int) + q) = 4 * 2 ^ k * (2 : ℚ) ^ (q - 2) := by
  rw [zpow_add₀ (by norm_num), zpow_natCast, zpow_sub₀ (by norm_num)]
  norm_num
  ring

theorem le_bottom {m : Nat} (positive : 0 < m) (q : Int) : (4 * m - 2 : ℚ) ≤ bottom m q := by
  have whole : 4 * m - 2 ≤ bottom m q := by
    unfold bottom
    split <;> omega
  have cast : ((4 * m - 2 : ℕ) : ℚ) = 4 * m - 2 := by
    rw [Nat.cast_sub (by omega)]
    push_cast
    rfl
  rw [← cast]
  exact_mod_cast whole

/-- A number in the interval of a float lies between two powers of two around it. -/
theorem RoundsTo.bounds {v : ℚ} {m : Nat} {q : Int} (stored : Stored m q)
    (rounds : RoundsTo v m q) : v < (2 : ℚ) ^ (53 + q) ∧ (-1074 < q → (2 : ℚ) ^ (51 + q) < v) := by
  have unit : (0 : ℚ) < (2 : ℚ) ^ (q - 2) := by positivity
  have small : (m : ℚ) + 1 ≤ 2 ^ 53 := by exact_mod_cast stored.small
  constructor
  · refine rounds.below.trans_lt ?_
    rw [show (53 : Int) + q = (53 : ℕ) + q from rfl, zpow_in_quarters]
    refine mul_lt_mul_of_pos_right ?_ unit
    linarith
  · intro normal
    refine lt_of_lt_of_le ?_ rounds.above
    rw [show (51 : Int) + q = (51 : ℕ) + q from rfl, zpow_in_quarters]
    refine mul_lt_mul_of_pos_right ?_ unit
    have full : (2 : ℚ) ^ 52 ≤ m := by exact_mod_cast stored.full.resolve_right (by omega)
    refine lt_of_lt_of_le ?_ (le_bottom stored.positive q)
    linarith

theorem RoundsTo.near {v : ℚ} {m : Nat} {q : Int} (stored : Stored m q) (rounds : RoundsTo v m q) :
    Near (v / (2 : ℚ) ^ q) m := by
  have unit : (0 : ℚ) < (2 : ℚ) ^ (q - 2) := by positivity
  have quarters := zpow_in_quarters 0 q
  rw [Nat.cast_zero, zero_add] at quarters
  have least : (4 * m - 2 : ℚ) * (2 : ℚ) ^ (q - 2) ≤ bottom m q * (2 : ℚ) ^ (q - 2) :=
    mul_le_mul_of_nonneg_right (le_bottom stored.positive q) unit.le
  obtain ⟨above, below, inside⟩ := rounds
  rw [quarters]
  refine ⟨?_, ?_, fun odd => ⟨?_, ?_⟩⟩
  · rw [le_div_iff₀ (by positivity)]
    linarith
  · rw [div_le_iff₀ (by positivity)]
    linarith
  · rw [lt_div_iff₀ (by positivity)]
    linarith [(inside odd).1]
  · rw [div_lt_iff₀ (by positivity)]
    linarith [(inside odd).2]

/-- Below a power of two a number in the interval of a float is carried to that power. -/
theorem RoundsTo.near_carried {v : ℚ} {m : Nat} {q : Int} (stored : Stored m q)
    (rounds : RoundsTo v m q) (normal : -1074 < q) (less : v < (2 : ℚ) ^ (52 + q)) :
    m = 2 ^ 52 ∧ Near (v / (2 : ℚ) ^ (q - 1)) (2 ^ 53) := by
  have unit : (0 : ℚ) < (2 : ℚ) ^ (q - 2) := by positivity
  have halves : (2 : ℚ) ^ (q - 1) = 2 * (2 : ℚ) ^ (q - 2) := by
    rw [show q - 1 = 1 + (q - 2) by ring, zpow_add₀ (by norm_num), zpow_one]
  have full := stored.full.resolve_right (by omega)
  have least := rounds.above
  rw [show (52 : Int) + q = (52 : ℕ) + q from rfl, zpow_in_quarters] at less
  have power : m = 2 ^ 52 := by
    by_contra other
    have more : (2 : ℚ) ^ 52 + 1 ≤ m := by exact_mod_cast Nat.lt_of_le_of_ne full (Ne.symm other)
    have more_quarters := mul_le_mul_of_nonneg_right (le_bottom stored.positive q) unit.le
    have scaled := mul_le_mul_of_nonneg_right more unit.le
    linarith
  subst power
  have lower : bottom (2 ^ 52) q = 4 * 2 ^ 52 - 1 := if_pos ⟨rfl, normal⟩
  rw [lower] at least
  norm_num at least less
  refine ⟨rfl, ?_, ?_, fun odd => absurd rfl odd⟩
  · rw [halves, le_div_iff₀ (by positivity)]
    norm_num
    linarith
  · rw [halves, div_le_iff₀ (by positivity)]
    norm_num
    linarith

/-- The exponent to which a number is cut off is that of the float in whose interval it is, or one
less where the number is below a power of two and its mantissa will be carried to the next one. -/
theorem target_cases {n : Nat} {e q : Int} {v : ℚ} {m : Nat} (stored : Stored m q)
    (rounds : RoundsTo v m q) (least : n * (2 : ℚ) ^ e ≤ v) (most : v < (n + 1) * (2 : ℚ) ^ e)
    (fine : e ≤ Format.binary64.targetExponent (totalExponent n e)) :
    (Format.binary64.targetExponent (totalExponent n e) = q ∧ Near (v / 2 ^ q) m) ∨
      (Format.binary64.targetExponent (totalExponent n e) = q - 1 ∧ -1074 < q ∧ m = 2 ^ 52 ∧
        Near (v / 2 ^ (q - 1)) (2 ^ 53)) := by
  obtain ⟨upper, lower⟩ := rounds.bounds stored
  have power_lt {a b : Int} (less : (2 : ℚ) ^ a < (2 : ℚ) ^ b) : a < b :=
    (zpow_lt_zpow_iff_right₀ (by norm_num)).mp less
  have unit : (0 : ℚ) < (2 : ℚ) ^ e := by positivity
  -- The binary length of the number is that of its mantissa.
  have longest : v < (2 : ℚ) ^ (n.log2 + 1 + e) := by
    have whole : ((n + 1 : ℕ) : ℚ) ≤ (2 ^ (n.log2 + 1) : ℕ) := by exact_mod_cast Nat.lt_log2_self
    refine most.trans_le ?_
    rw [zpow_add₀ (by norm_num)]
    refine mul_le_mul_of_nonneg_right ?_ unit.le
    exact_mod_cast whole
  have shortest (nonzero : n ≠ 0) : (2 : ℚ) ^ (n.log2 + e) ≤ v := by
    refine le_trans ?_ least
    rw [zpow_add₀ (by norm_num)]
    refine mul_le_mul_of_nonneg_right ?_ unit.le
    exact_mod_cast Nat.log2_self_le nonzero
  have low := stored.low
  rw [targetExponent_eq] at fine ⊢
  have target_le : max (n.log2 + 1 + e - 53) (-1074) ≤ q := by
    by_cases zero : n = 0
    · subst zero
      have none_long : Nat.log2 0 = 0 := rfl
      omega
    · have := power_lt ((shortest zero).trans_lt upper)
      omega
  by_cases same : max (n.log2 + 1 + e - 53) (-1074) = q
  · exact .inl ⟨same, rounds.near stored⟩
  · have normal : -1074 < q := by omega
    have length := power_lt ((lower normal).trans longest)
    have less : v < (2 : ℚ) ^ (52 + q) :=
      longest.trans_le (zpow_le_zpow_right₀ (by norm_num) (by omega))
    exact .inr ⟨by omega, normal, rounds.near_carried stored normal less⟩

/-- What has been cut off to a target exponent. -/
theorem shiftToTargetExponent_describes {n : Nat} {e : Int} {accuracy : Accuracy} {v : ℚ}
    (describes : Describes (ExtendedMantissa.ofMantissaAndAccuracy n accuracy) (v / 2 ^ e))
    (fine : e ≤ Format.binary64.targetExponent (totalExponent n e)) :
    ∃ em, shiftToTargetExponent Format.binary64 n e accuracy =
        (em, Format.binary64.targetExponent (totalExponent n e)) ∧
      Describes em (v / 2 ^ Format.binary64.targetExponent (totalExponent n e)) := by
  refine ⟨_, Prod.ext rfl ?_, ?_⟩
  · show e + ((Format.binary64.targetExponent (totalExponent n e) - e).toNat : Int) = _
    omega
  · have shifted :=
      describes.shiftRight (Format.binary64.targetExponent (totalExponent n e) - e).toNat
    rw [div_div, ← zpow_natCast, ← zpow_add₀ (by norm_num)] at shifted
    rw [show e + ((Format.binary64.targetExponent (totalExponent n e) - e).toNat : Int) =
      Format.binary64.targetExponent (totalExponent n e) by omega] at shifted
    exact shifted

/-- A mantissa that is not too long stays as it is. -/
theorem shiftToTargetExponent_small {m : Nat} {q : Int} (small : m < 2 ^ 53) (low : -1074 ≤ q) :
    shiftToTargetExponent Format.binary64 m q .exact = (⟨m, false, false⟩, q) := by
  have length : m.log2 ≤ 52 := by
    rcases Nat.eq_zero_or_pos m with rfl | positive
    · decide
    · exact Nat.lt_succ_iff.mp ((Nat.log2_lt positive.ne').mpr small)
  have still : (Format.binary64.targetExponent (totalExponent m q) - q).toNat = 0 := by
    rw [targetExponent_eq]
    omega
  unfold shiftToTargetExponent shiftToExponent
  simp only [still]
  exact Prod.ext rfl (Int.add_zero q)

/-- A mantissa that has been carried to a power of two is cut off once more. -/
theorem shiftToTargetExponent_carried {q : Int} (low : -1074 < q) :
    shiftToTargetExponent Format.binary64 (2 ^ 53) (q - 1) .exact =
      (⟨2 ^ 52, false, false⟩, q) := by
  have once :
      (Format.binary64.targetExponent (totalExponent (2 ^ 53) (q - 1)) - (q - 1)).toNat = 1 := by
    rw [targetExponent_eq, Nat.log2_two_pow]
    omega
  unfold shiftToTargetExponent shiftToExponent
  simp only [once]
  refine Prod.ext rfl ?_
  show q - 1 + ((1 : ℕ) : Int) = q
  omega

/-- **A number that is cut off rounds to the float in whose interval it is.** -/
theorem roundWithAccuracy_eq {n : Nat} {e q : Int} {accuracy : Accuracy} {v : ℚ} {m : Nat}
    (s : Sign) (stored : Stored m q) (rounds : RoundsTo v m q)
    (describes : Describes (ExtendedMantissa.ofMantissaAndAccuracy n accuracy) (v / 2 ^ e))
    (fine : e ≤ Format.binary64.targetExponent (totalExponent n e)) :
    roundWithAccuracy Format.binary64 s n e accuracy = .finite s m q stored.positive := by
  have unit : (0 : ℚ) < (2 : ℚ) ^ e := by positivity
  have mantissa : (ExtendedMantissa.ofMantissaAndAccuracy n accuracy).mantissa = n := by
    unfold ExtendedMantissa.ofMantissaAndAccuracy
    split <;> rfl
  obtain ⟨least, most⟩ := describes.floor
  rw [mantissa, le_div_iff₀ unit] at least
  rw [mantissa, div_lt_iff₀ unit] at most
  obtain ⟨em, cut, rest⟩ := shiftToTargetExponent_describes describes fine
  have finish (k : Nat) (p : Int) (rounded : em.roundedMantissa = k)
      (target : Format.binary64.targetExponent (totalExponent n e) = p)
      (shifted : shiftToTargetExponent Format.binary64 k p .exact = (⟨m, false, false⟩, q)) :
      roundWithAccuracy Format.binary64 s n e accuracy = .finite s m q stored.positive := by
    unfold roundWithAccuracy
    rw [cut, target]
    dsimp only
    rw [rounded, shifted]
    exact dif_neg stored.positive.ne'
  rcases target_cases stored rounds least most fine with ⟨target, near⟩ | ⟨target, low, rfl, near⟩
  · rw [target] at rest
    exact finish m q (rest.roundedMantissa near) target
      (shiftToTargetExponent_small stored.small stored.low)
  · rw [target] at rest
    exact finish (2 ^ 53) (q - 1) (rest.roundedMantissa near) target
      (shiftToTargetExponent_carried low)

/-! ## Products, quotients and whole numbers -/

/-- **A product is rounded once.** One of its factors is long enough to fill the mantissa. -/
theorem mul_eq {m₁ m₂ m : Nat} {e₁ e₂ q : Int} (some₁ : 0 < m₁) (some₂ : 0 < m₂)
    (stored : Stored m q) (rounds : RoundsTo (m₁ * (2 : ℚ) ^ e₁ * (m₂ * (2 : ℚ) ^ e₂)) m q)
    (long : 2 ^ 52 ≤ m₁) :
    mul Format.binary64 (.finite .positive m₁ e₁ some₁) (.finite .positive m₂ e₂ some₂) =
      .finite .positive m q stored.positive := by
  refine roundWithAccuracy_eq .positive stored rounds ?_ ?_
  · show m₁ * (2 : ℚ) ^ e₁ * (m₂ * (2 : ℚ) ^ e₂) / 2 ^ (e₁ + e₂) = (m₁ * m₂ : ℕ)
    rw [zpow_add₀ (by norm_num)]
    push_cast
    field_simp
  · have length : 52 ≤ (m₁ * m₂).log2 :=
      (Nat.le_log2 (Nat.mul_pos some₁ some₂).ne').mpr
      (long.trans (Nat.le_mul_of_pos_right m₁ some₂))
    rw [targetExponent_eq]
    omega

/-- What is left over of a division says how the quotient goes on. -/
theorem describes_fraction {num den : Nat} (some : 0 < den) :
    Describes (ExtendedMantissa.ofMantissaAndAccuracy (num / den)
      (accuracyOfFraction (num % den) den)) (num / den) := by
  have den_pos : (0 : ℚ) < den := by exact_mod_cast some
  have parts : (num : ℚ) / den = (num / den : ℕ) + (num % den : ℕ) / (den : ℚ) := by
    rw [div_eq_iff den_pos.ne', add_mul, div_mul_cancel₀ _ den_pos.ne']
    exact_mod_cast (Nat.div_add_mod' num den).symm
  have less : ((num % den : ℕ) : ℚ) < den := by exact_mod_cast Nat.mod_lt num some
  rw [parts]
  generalize num % den = rest at less ⊢
  unfold accuracyOfFraction
  split
  · next none_left =>
      rw [none_left]
      simp [Describes, ExtendedMantissa.ofMantissaAndAccuracy]
  · next some_left =>
      have rest_pos : (0 : ℚ) < rest := by exact_mod_cast Nat.pos_of_ne_zero some_left
      have fraction_pos := div_pos rest_pos den_pos
      cases side : compare (2 * rest) den with
      | lt =>
          have half : (2 * rest : ℚ) < den := by exact_mod_cast compare_lt_iff_lt.mp side
          refine ⟨lt_add_of_pos_right _ fraction_pos, add_lt_add_right ?_ _⟩
          rw [div_lt_iff₀ den_pos]
          linarith
      | eq =>
          have half : (2 * rest : ℚ) = den := by exact_mod_cast compare_eq_iff_eq.mp side
          refine congrArg _ ?_
          rw [div_eq_iff den_pos.ne']
          linarith
      | gt =>
          have half : (den : ℚ) < 2 * rest := by exact_mod_cast compare_gt_iff_gt.mp side
          refine ⟨add_lt_add_right ?_ _, add_lt_add_right ?_ _⟩
          · rw [lt_div_iff₀ den_pos]
            linarith
          · rw [div_lt_one den_pos]
            exact less

/-- **A quotient is rounded once.** -/
theorem div_eq {m₁ m₂ m : Nat} {e₁ e₂ q : Int} (some₁ : 0 < m₁) (some₂ : 0 < m₂)
    (stored : Stored m q) (rounds : RoundsTo (m₁ * (2 : ℚ) ^ e₁ / (m₂ * (2 : ℚ) ^ e₂)) m q) :
    div Format.binary64 (.finite .positive m₁ e₁ some₁) (.finite .positive m₂ e₂ some₂) =
      .finite .positive m q stored.positive := by
  obtain ⟨p, target⟩ : ∃ p, p = min (e₁ - e₂) (Format.binary64.targetExponent
      (totalExponent m₁ e₁ - totalExponent m₂ e₂)) := ⟨_, rfl⟩
  have capped : Format.binary64.targetExponent (totalExponent m₁ e₁ - totalExponent m₂ e₂) =
      max ((m₁.log2 + 1 + e₁) - (m₂.log2 + 1 + e₂) - 53) (-1074) := rfl
  rw [capped] at target
  show roundWithAccuracy Format.binary64 .positive _ _ _ = _
  rw [capped, ← target, Nat.shiftLeft_eq]
  refine roundWithAccuracy_eq .positive stored rounds ?_ ?_
  · have quotient : m₁ * (2 : ℚ) ^ e₁ / (m₂ * (2 : ℚ) ^ e₂) / 2 ^ p =
        (m₁ * 2 ^ (e₁ - e₂ - p).toNat : ℕ) / m₂ := by
      have power : (2 : ℚ) ^ (e₁ - e₂ - p).toNat = (2 : ℚ) ^ e₁ / (2 : ℚ) ^ e₂ / (2 : ℚ) ^ p := by
        rw [← zpow_natCast, Int.toNat_of_nonneg (by omega), zpow_sub₀ (by norm_num),
          zpow_sub₀ (by norm_num)]
      push_cast
      rw [power]
      field_simp
    rw [quotient]
    exact describes_fraction some₂
  · rw [targetExponent_eq]
    by_cases least : p ≤ -1074
    · exact least.trans (le_max_right _ _)
    · have enough : m₂ * 2 ^ 52 ≤ m₁ * 2 ^ (e₁ - e₂ - p).toNat :=
        calc m₂ * 2 ^ 52 ≤ 2 ^ (m₂.log2 + 1) * 2 ^ 52 :=
              Nat.mul_le_mul_right _ Nat.lt_log2_self.le
          _ = 2 ^ (m₂.log2 + 1 + 52) := (Nat.pow_add ..).symm
          _ ≤ 2 ^ (m₁.log2 + (e₁ - e₂ - p).toNat) := Nat.pow_le_pow_right (by decide) (by omega)
          _ = 2 ^ m₁.log2 * 2 ^ (e₁ - e₂ - p).toNat := Nat.pow_add ..
          _ ≤ m₁ * 2 ^ (e₁ - e₂ - p).toNat := Nat.mul_le_mul_right _ (Nat.log2_self_le some₁.ne')
      have long : 2 ^ 52 ≤ m₁ * 2 ^ (e₁ - e₂ - p).toNat / m₂ :=
        (Nat.le_div_iff_mul_le some₂).mpr (Nat.mul_comm m₂ _ ▸ enough)
      have length := (Nat.le_log2 (Nat.lt_of_lt_of_le (by decide) long).ne').mpr long
      omega

/-- A float rounds to itself. -/
theorem roundsTo_self {m : Nat} {q : Int} (stored : Stored m q) :
    RoundsTo (m * (2 : ℚ) ^ q) m q := by
  have nonneg : (0 : ℚ) ≤ m * (2 : ℚ) ^ q := by positivity
  refine roundsTo_of_near (t := 0) stored ?_ ?_ ?_ <;> linarith

/-- A whole number is a float's mantissa once it is moved to the left end of its bits. -/
theorem stored_shift {n : Nat} (some : 0 < n) (small : n < 2 ^ 53) :
    Stored (n * 2 ^ (52 - n.log2)) (n.log2 - 52) ∧ 2 ^ 52 ≤ n * 2 ^ (52 - n.log2) := by
  have length : n.log2 ≤ 52 := Nat.lt_succ_iff.mp ((Nat.log2_lt some.ne').mpr small)
  have long : 2 ^ 52 ≤ n * 2 ^ (52 - n.log2) :=
    calc 2 ^ 52 = 2 ^ n.log2 * 2 ^ (52 - n.log2) := by
          rw [← Nat.pow_add]
          congr 1
          omega
      _ ≤ n * 2 ^ (52 - n.log2) := Nat.mul_le_mul_right _ (Nat.log2_self_le some.ne')
  have short : n * 2 ^ (52 - n.log2) < 2 ^ 53 :=
    calc n * 2 ^ (52 - n.log2) < 2 ^ (n.log2 + 1) * 2 ^ (52 - n.log2) :=
          Nat.mul_lt_mul_of_pos_right Nat.lt_log2_self (Nat.two_pow_pos _)
      _ = 2 ^ 53 := by
          rw [← Nat.pow_add]
          congr 1
          omega
  exact ⟨⟨by omega, short, by omega, by omega, .inl long⟩, long⟩

/-- A whole number that is not too long is a float. -/
theorem ofNat_eq {n : Nat} (some : 0 < n) (small : n < 2 ^ 53) :
    ∃ m q, ∃ stored : Stored m q,
      ofNat Format.binary64 n = .finite .positive m q stored.positive ∧
        m * (2 : ℚ) ^ q = n ∧ 2 ^ 52 ≤ m := by
  obtain ⟨stored, long⟩ := stored_shift some small
  have length : n.log2 ≤ 52 := Nat.lt_succ_iff.mp ((Nat.log2_lt some.ne').mpr small)
  have value : (n * 2 ^ (52 - n.log2) : ℕ) * (2 : ℚ) ^ ((n.log2 : Int) - 52) = n := by
    have one : (2 : ℚ) ^ (52 - n.log2) * (2 : ℚ) ^ ((n.log2 : Int) - 52) = 1 := by
      rw [← zpow_natCast, ← zpow_add₀ (by norm_num), Nat.cast_sub length]
      norm_num
    push_cast
    rw [mul_assoc, one, mul_one]
  refine ⟨_, _, stored, ?_, value, long⟩
  have positive : compare (n : Int) 0 = .gt := compare_gt_iff_gt.mpr (by exact_mod_cast some)
  have target : Format.binary64.targetExponent (totalExponent n 0) = (n.log2 : Int) - 52 := by
    rw [targetExponent_eq]
    omega
  have shift : (0 - ((n.log2 : Int) - 52)).toNat = 52 - n.log2 := by omega
  have back : (0 : Int) - (52 - n.log2 : ℕ) = (n.log2 : Int) - 52 := by omega
  unfold ofNat ofInt UnpackedFloat.normalize
  rw [positive]
  unfold UnpackedFloat.round decreaseExponent
  dsimp only
  rw [Int.toNat_natCast, target, shift, Nat.shiftLeft_eq, back]
  refine roundWithAccuracy_eq .positive stored (roundsTo_self stored) ?_ ?_
  · show _ * (2 : ℚ) ^ _ / (2 : ℚ) ^ _ = _
    field_simp
    rfl
  · have full := (Nat.le_log2 stored.positive.ne').mpr long
    rw [targetExponent_eq]
    omega

end SheetCalc.Decimal
