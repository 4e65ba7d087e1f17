import SheetCalc.Decimal.Layout
import Mathlib.Algebra.Order.Field.Power
import Mathlib.Tactic.FieldSimp
import Mathlib.Tactic.Positivity

/-!
# The digits that are chosen for a float

Whatever float is written, the coefficient that stands for it is not zero (`shortest_pos`), so there
are digits to be written. Among the nearest points of a grid only one that rounds to the value is
taken, and that is above zero; where seventeen digits are rounded, the place of the first one has to
be right.
-/

namespace SheetCalc.Decimal

/-! ## Sizes -/

/-- The sizes of the mantissa and of the exponent of a float. -/
theorem magnitude_bounds {x : Float} {m : Nat} {q : Int} (finite : magnitude x = .finite m q) :
    m < 2 ^ 53 ∧ -1074 ≤ q ∧ q ≤ 971 := by
  unfold magnitude at finite
  simp only [Nat.pow_eq] at finite
  split at finite
  · split at finite <;> cases finite
  · split at finite
    · cases finite
      omega
    · cases finite
      omega

/-- An integer power as a fraction of natural ones. -/
theorem zpow_eq_div {b : Nat} (positive : 0 < b) (z : Int) :
    (b : ℚ) ^ z = (b ^ z.toNat : ℕ) / (b ^ (-z).toNat : ℕ) := by
  have nonzero : (b : ℚ) ≠ 0 := Nat.cast_ne_zero.mpr positive.ne'
  have parts : z = (z.toNat : Int) - ((-z).toNat : Int) := by omega
  conv_lhs => rw [parts, zpow_sub₀ nonzero, zpow_natCast, zpow_natCast]
  push_cast
  rfl

theorem reaches_iff (m : Nat) (q j : Int) :
    reaches m q j = true ↔ (10 : ℚ) ^ j ≤ m * (2 : ℚ) ^ q := by
  have ten := zpow_eq_div (b := 10) (by decide) j
  have two := zpow_eq_div (b := 2) (by decide) q
  have positive (b n : Nat) (some : 0 < b) : (0 : ℚ) < (b ^ n : ℕ) :=
    Nat.cast_pos.mpr (Nat.pow_pos some)
  rw [Nat.cast_ofNat] at ten two
  rw [ten, two, ← mul_div_assoc,
    div_le_div_iff₀ (positive _ _ (by decide)) (positive _ _ (by decide))]
  unfold reaches inUnits
  simp only [Nat.pow_eq, decide_eq_true_eq]
  norm_cast
  rw [Nat.mul_comm (10 ^ j.toNat)]

/-- A value that reaches a power of ten reaches the smaller ones. -/
theorem reaches_mono {m : Nat} {q i j : Int} (less : i ≤ j) (reached : reaches m q j = true) :
    reaches m q i = true := by
  rw [reaches_iff] at reached ⊢
  have grows : (10 : ℚ) ^ i ≤ (10 : ℚ) ^ j := zpow_le_zpow_right₀ (by norm_num) less
  exact grows.trans reached

/-! ## The place of the first digit -/

set_option maxRecDepth 10000 in
/-- The estimate of the first decimal place from the first binary one is too large by one at
most. -/
theorem reaches_estimate : ∀ n : Nat, n < 2200 →
    reaches 1 ((n : Int) - 1100) (((n : Int) - 1100) * 30103 / 100000 - 1) = true := by
  decide +kernel

/-- A value reaches the power of ten of its first digit. -/
theorem reaches_leadExponent {m : Nat} {q : Int} (nonzero : m ≠ 0) (small : m < 2 ^ 53)
    (low : -1074 ≤ q) (high : q ≤ 971) : reaches m q (leadExponent m q) = true := by
  unfold leadExponent
  simp only
  split
  · assumption
  split
  · assumption
  -- Neither power is reached; that the next one is follows from the binary length alone.
  have length : m.log2 < 53 := (Nat.log2_lt nonzero).mpr small
  have estimate := reaches_estimate (((m.log2 : Int) + q) + 1100).toNat (by omega)
  rw [Int.toNat_of_nonneg (by omega), Int.add_sub_cancel, reaches_iff, Nat.cast_one, one_mul]
    at estimate
  rw [reaches_iff]
  have power : (2 : ℚ) ^ (m.log2 : Int) ≤ m := by
    rw [zpow_natCast]
    exact_mod_cast Nat.log2_self_le nonzero
  calc (10 : ℚ) ^ (((m.log2 : Int) + q) * 30103 / 100000 - 1)
      ≤ (2 : ℚ) ^ ((m.log2 : Int) + q) := estimate
    _ = (2 : ℚ) ^ (m.log2 : Int) * (2 : ℚ) ^ q := zpow_add₀ (by norm_num) _ _
    _ ≤ m * (2 : ℚ) ^ q := by gcongr

/-! ## Coefficients -/

theorem roundDiv_pos {num den : Nat} (some : 0 < den) (less : den ≤ num) :
    0 < roundDiv num den := by
  have quotient : 0 < num / den := Nat.div_pos less some
  unfold roundDiv
  simp only
  split
  · exact quotient
  split
  · omega
  split <;> omega

/-- A rounded value keeps its first digit. -/
theorem significant_pos {count m : Nat} {q : Int} (some : 1 ≤ count) (nonzero : m ≠ 0)
    (small : m < 2 ^ 53) (low : -1074 ≤ q) (high : q ≤ 971) : 0 < (significant count m q).1 := by
  have reached : reaches m q (leadExponent m q - count + 1) = true :=
    reaches_mono (by omega) (reaches_leadExponent nonzero small low high)
  unfold significant
  refine roundDiv_pos ?_ (by simpa [reaches] using reached)
  simp only [inUnits, Nat.pow_eq]
  positivity

/-- What rounds to a value that is not zero is not zero. -/
theorem nearest_pos {count m : Nat} {q : Int} {found : Nat × Int} (nonzero : m ≠ 0)
    (near : nearest? count m q = some found) : 0 < found.1 := by
  have units_pos (n : Nat) (some : 0 < n) (j : Int) : 0 < (inUnits n (q - 2) j).1 := by
    simp only [inUnits, Nat.pow_eq]
    positivity
  unfold nearest? at near
  simp only at near
  generalize leadExponent m q - count + 1 = j at near
  have bottom := units_pos (if m = Nat.pow 2 52 ∧ -1074 < q then 4 * m - 1 else 4 * m - 2)
    (by split <;> omega) j
  generalize (inUnits (if m = Nat.pow 2 52 ∧ -1074 < q then 4 * m - 1 else 4 * m - 2) (q - 2) j).1 =
    low at bottom near
  generalize (inUnits (4 * m) (q - 2) j).2 = den at near
  generalize roundDiv (inUnits (4 * m) (q - 2) j).1 den = c at near
  generalize (if c * den ≤ (inUnits (4 * m) (q - 2) j).1 then c + 1 else c - 1) = other at near
  -- The bottom of the interval is above zero, so zero does not lie in it.
  have not_zero (c : Nat) (above : low ≤ c * den) : 0 < c := by
    rcases Nat.eq_zero_or_pos c with rfl | positive
    · rw [Nat.zero_mul] at above
      omega
    · exact positive
  by_cases even : m % 2 = 0
  · simp only [even, if_true, Bool.and_eq_true, decide_eq_true_eq] at near
    split at near
    · next inside =>
        rw [← Option.some.inj near]
        exact not_zero _ inside.1
    · split at near
      · next inside =>
          rw [← Option.some.inj near]
          exact not_zero _ inside.1
      · cases near
  · simp only [even, if_false, Bool.and_eq_true, decide_eq_true_eq] at near
    split at near
    · next inside =>
        rw [← Option.some.inj near]
        exact not_zero _ inside.1.le
    · split at near
      · next inside =>
          rw [← Option.some.inj near]
          exact not_zero _ inside.1.le
      · cases near

/-- **The coefficient of a float that is not zero is not zero.** -/
theorem shortest_pos {x : Float} {m : Nat} {q : Int} (finite : magnitude x = .finite m q)
    (nonzero : m ≠ 0) : 0 < (shortest m q).1 := by
  obtain ⟨small, low, high⟩ := magnitude_bounds finite
  unfold shortest
  cases found : (List.range 17).findSome? fun n => nearest? (n + 1) m q with
  | none => exact significant_pos (by decide) nonzero small low high
  | some best =>
      obtain ⟨count, _, near⟩ := List.exists_of_findSome?_eq_some found
      exact nearest_pos nonzero near

end SheetCalc.Decimal
