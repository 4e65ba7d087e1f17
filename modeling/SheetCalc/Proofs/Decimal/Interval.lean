import SheetCalc.Proofs.Decimal.Shortest
import Mathlib.Tactic.Linarith
import Mathlib.Tactic.Ring

/-!
# The interval of a float

`RoundsTo v m q` says that the float `m * 2 ^ q` is the one nearest to `v`: it is half a unit of the
mantissa away at most, or a quarter below a power of two, where the floats lie closer. The digits
that are chosen for a float stand for a number in its interval (`roundsTo_shortest`), so they single
it out.
-/

namespace SheetCalc.Decimal

/-! ## Floats that are not zero -/

/-- The mantissas and exponents that floats have, but for zero. The mantissa has all its bits unless
the exponent is the least one. -/
structure Stored (m : Nat) (q : Int) : Prop where
  positive : 0 < m
  small : m < 2 ^ 53
  low : -1074 ≤ q
  high : q ≤ 971
  full : 2 ^ 52 ≤ m ∨ q = -1074

theorem stored_of_magnitude {x : Float} {m : Nat} {q : Int} (finite : magnitude x = .finite m q)
    (nonzero : m ≠ 0) : Stored m q := by
  obtain ⟨small, low, high⟩ := magnitude_bounds finite
  refine ⟨Nat.pos_of_ne_zero nonzero, small, low, high, ?_⟩
  unfold magnitude at finite
  simp only [Nat.pow_eq] at finite
  split at finite
  · split at finite <;> cases finite
  · split at finite
    · cases finite
      exact .inr rfl
    · cases finite
      exact .inl (Nat.le_add_left _ _)

/-- The lower end of the interval of a float, in quarters of a unit of its mantissa. -/
def bottom (m : Nat) (q : Int) : Nat :=
  if m = Nat.pow 2 52 ∧ -1074 < q then 4 * m - 1 else 4 * m - 2

/-- A number is in the interval of a float. The ends belong to it if the mantissa is even. -/
structure RoundsTo (v : ℚ) (m : Nat) (q : Int) : Prop where
  above : bottom m q * (2 : ℚ) ^ (q - 2) ≤ v
  below : v ≤ (4 * m + 2) * (2 : ℚ) ^ (q - 2)
  inside : m % 2 ≠ 0 → bottom m q * (2 : ℚ) ^ (q - 2) < v ∧ v < (4 * m + 2) * (2 : ℚ) ^ (q - 2)

theorem roundsTo_of_inside {v : ℚ} {m : Nat} {q : Int} (above : bottom m q * (2 : ℚ) ^ (q - 2) < v)
    (below : v < (4 * m + 2) * (2 : ℚ) ^ (q - 2)) : RoundsTo v m q :=
  ⟨above.le, below.le, fun _ => ⟨above, below⟩⟩

/-! ## Points of a decimal grid -/

/-- A value and the unit of a grid are brought to one denominator. -/
theorem inUnits_eq (p j : Int) : ∃ u : ℚ, 0 < u ∧ ∀ n : Nat,
    ((inUnits n p j).1 : ℚ) = n * (2 : ℚ) ^ p * u ∧ ((inUnits n p j).2 : ℚ) = (10 : ℚ) ^ j * u := by
  have two := zpow_eq_div (b := 2) (by decide) p
  have ten := zpow_eq_div (b := 10) (by decide) j
  rw [Nat.cast_ofNat] at two ten
  refine ⟨(2 ^ (-p).toNat : ℕ) * (10 ^ (-j).toNat : ℕ), by positivity, fun n => ⟨?_, ?_⟩⟩
  · simp only [inUnits, Nat.pow_eq]
    rw [two]
    push_cast
    field_simp
  · simp only [inUnits, Nat.pow_eq]
    rw [ten]
    push_cast
    field_simp

/-- The points that are looked for are in the interval. -/
theorem roundsTo_of_nearest {count m : Nat} {q : Int} {found : Nat × Int}
    (near : nearest? count m q = some found) : RoundsTo (found.1 * (10 : ℚ) ^ found.2) m q := by
  unfold nearest? at near
  simp only at near
  generalize leadExponent m q - count + 1 = j at near
  obtain ⟨u, u_pos, parts⟩ := inUnits_eq (q - 2) j
  have den := (parts (4 * m)).2
  have low := (parts (bottom m q)).1
  have high := (parts (4 * m + 2)).1
  push_cast at high
  rw [← bottom] at near
  generalize (inUnits (4 * m) (q - 2) j).2 = unit at den near
  generalize (inUnits (bottom m q) (q - 2) j).1 = least at low near
  generalize (inUnits (4 * m + 2) (q - 2) j).1 = most at high near
  generalize roundDiv (inUnits (4 * m) (q - 2) j).1 unit = c at near
  generalize (if c * unit ≤ (inUnits (4 * m) (q - 2) j).1 then c + 1 else c - 1) = other at near
  have point (c : Nat) : ((c * unit : ℕ) : ℚ) = c * (10 : ℚ) ^ j * u := by
    rw [Nat.cast_mul, den]
    ring
  obtain ⟨test, same⟩ : ∃ test : Nat → Bool, ∀ c, test c =
      if m % 2 = 0 then decide (least ≤ c * unit) && decide (c * unit ≤ most)
      else decide (least < c * unit) && decide (c * unit < most) := ⟨_, fun _ => rfl⟩
  have inside (c : Nat) (holds : test c = true) : RoundsTo (c * (10 : ℚ) ^ j) m q := by
    rw [same] at holds
    split at holds
    · next even =>
        rw [Bool.and_eq_true, decide_eq_true_iff, decide_eq_true_iff, ← Nat.cast_le (α := ℚ),
          ← Nat.cast_le (α := ℚ), low, high, point, mul_le_mul_iff_left₀ u_pos,
          mul_le_mul_iff_left₀ u_pos] at holds
        exact ⟨holds.1, holds.2, absurd even⟩
    · rw [Bool.and_eq_true, decide_eq_true_iff, decide_eq_true_iff, ← Nat.cast_lt (α := ℚ),
        ← Nat.cast_lt (α := ℚ), low, high, point, mul_lt_mul_iff_left₀ u_pos,
        mul_lt_mul_iff_left₀ u_pos] at holds
      exact roundsTo_of_inside holds.1 holds.2
  simp only [← same] at near
  split at near
  · next holds =>
      rw [← Option.some.inj near]
      exact inside c holds
  · split at near
    · next holds =>
        rw [← Option.some.inj near]
        exact inside other holds
    · cases near

/-- A quotient is half a unit away from what it is rounded to, at most. -/
theorem roundDiv_near {num den : Nat} (some : 0 < den) :
    2 * (roundDiv num den * den) ≤ 2 * num + den ∧
      2 * num ≤ 2 * (roundDiv num den * den) + den := by
  have parts := Nat.div_add_mod' num den
  have less := Nat.mod_lt num some
  have next : (num / den + 1) * den = num / den * den + den := Nat.succ_mul _ _
  unfold roundDiv
  simp only
  split
  · omega
  · split
    · omega
    · split <;> omega

/-- What is nearer to a float than one part in `2 * 10 ^ 16` is in its interval. -/
theorem roundsTo_of_near {v t : ℚ} {m : Nat} {q : Int} (stored : Stored m q)
    (fine : t * 10 ^ 16 ≤ m * (2 : ℚ) ^ q) (less : 2 * v ≤ 2 * (m * (2 : ℚ) ^ q) + t)
    (more : 2 * (m * (2 : ℚ) ^ q) ≤ 2 * v + t) : RoundsTo v m q := by
  have positive := stored.positive
  have quarter : (2 : ℚ) ^ q = 4 * (2 : ℚ) ^ (q - 2) := by
    rw [zpow_sub₀ (by norm_num)]
    norm_num
    ring
  have quarter_pos : (0 : ℚ) < (2 : ℚ) ^ (q - 2) := by positivity
  have small : (m : ℚ) * (2 : ℚ) ^ (q - 2) ≤ 2 ^ 53 * (2 : ℚ) ^ (q - 2) := by
    refine mul_le_mul_of_nonneg_right ?_ quarter_pos.le
    exact_mod_cast stored.small.le
  rw [quarter] at fine less more
  apply roundsTo_of_inside
  · unfold bottom
    split
    · next power =>
        have exact_power : (m : ℚ) = 2 ^ 52 := by exact_mod_cast power.1
        rw [Nat.cast_sub (by omega)]
        push_cast
        rw [exact_power] at fine less more ⊢
        linarith
    · rw [Nat.cast_sub (by omega)]
      push_cast
      linarith
  · linarith

/-- Seventeen digits are enough for every float. -/
theorem roundsTo_significant {m : Nat} {q : Int} (stored : Stored m q) :
    RoundsTo ((significant 17 m q).1 * (10 : ℚ) ^ (significant 17 m q).2) m q := by
  have reached := (reaches_iff _ _ _).mp
    (reaches_leadExponent stored.positive.ne' stored.small stored.low stored.high)
  have place : (significant 17 m q).2 = leadExponent m q - 16 := by
    show leadExponent m q - (17 : ℕ) + 1 = _
    omega
  have unit : (10 : ℚ) ^ (significant 17 m q).2 * 10 ^ 16 = (10 : ℚ) ^ leadExponent m q := by
    rw [place, zpow_sub₀ (by norm_num)]
    norm_num
  obtain ⟨u, u_pos, parts⟩ := inUnits_eq q (significant 17 m q).2
  obtain ⟨num, den⟩ := parts m
  have den_pos : 0 < (inUnits m q (significant 17 m q).2).2 := by
    simp only [inUnits, Nat.pow_eq]
    positivity
  obtain ⟨less, more⟩ := @roundDiv_near (inUnits m q (significant 17 m q).2).1 _ den_pos
  have rounded : (significant 17 m q).1 =
      roundDiv (inUnits m q (significant 17 m q).2).1 (inUnits m q (significant 17 m q).2).2 := rfl
  rw [← rounded, ← Nat.cast_le (α := ℚ)] at less more
  push_cast [num, den] at less more
  -- The distance to the point is half a unit of the seventeenth digit, at most.
  refine roundsTo_of_near stored (unit.trans_le reached) ?_ ?_
  · refine le_of_mul_le_mul_right ?_ u_pos
    linarith
  · refine le_of_mul_le_mul_right ?_ u_pos
    linarith

/-- **The digits of a float are in its interval.** -/
theorem roundsTo_shortest {m : Nat} {q : Int} (stored : Stored m q) :
    RoundsTo ((shortest m q).1 * (10 : ℚ) ^ (shortest m q).2) m q := by
  unfold shortest
  cases found : (List.range 17).findSome? fun n => nearest? (n + 1) m q with
  | none => exact roundsTo_significant stored
  | some best =>
      obtain ⟨count, _, near⟩ := List.exists_of_findSome?_eq_some found
      exact roundsTo_of_nearest near

end SheetCalc.Decimal
