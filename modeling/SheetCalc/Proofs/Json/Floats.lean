import SheetCalc.Proofs.Decimal.Nearest
import SheetCalc.Proofs.Json.RoundTrip

/-!
# Finite floats come back from JSON

The digits that are written for a finite float say a number in its interval, and a number in the
interval of a float is read as that float. So a finite float comes back bit for bit, the sign of
zero included (`rereadFloat_finite`).
-/

namespace SheetCalc

namespace Decimal

theorem magnitude_of_isFinite {x : Float} (finite : x.isFinite = true) :
    ∃ m q, magnitude x = .finite m q := by
  have field : x.toBits.toNat % Nat.pow 2 63 / Nat.pow 2 52 ≠ 2047 := by
    rw [Ne, ← isFinite_eq_false_iff, finite]
    decide
  unfold magnitude
  simp only
  rw [if_neg field]
  split
  · exact ⟨_, _, rfl⟩
  · exact ⟨_, _, rfl⟩

end Decimal

namespace Json

/-- Digits that stand for a number are read as the float that this number is read as. -/
theorem IsDecimal.reads {cs : List Char} {negative : Bool} {v : ℚ}
    (decimal : IsDecimal cs negative v) {x : Float}
    (same : ∀ (c : Nat) (e : Int), c * (10 : ℚ) ^ e = v →
      (Decimal.Numeral.decimal negative c e).toFloat = x) (depth : Nat) :
    Reads depth cs (.float x) := by
  obtain ⟨whole, fraction, e, rfl, is_whole, digits, some_part, value⟩ := decimal
  have float : readNumber.float negative whole fraction (e.getD 0) = .float x :=
    congrArg Value.float (same _ _ value)
  intro n rest enough ends
  have begins := beginsNumber_numberText negative is_whole fraction e
  have front := begins []
  rw [List.append_nil] at front
  have positive := (starts_number front).positive
  obtain ⟨n, rfl⟩ : ∃ k, n = k + 1 := Nat.exists_eq_succ_of_ne_zero (by omega)
  rw [readValue_number n depth (begins rest), readNumber_numberText negative e is_whole digits ends]
  cases e with
  | some e => exact congrArg (fun v => Except.ok (v, rest)) float
  | none =>
      have some_digit : fraction.isEmpty = false := by simpa using some_part
      simp only [some_digit, Bool.not_false, if_true]
      exact congrArg (fun v => Except.ok (v, rest)) float

/-- The digits of a finite float stand for a number that is read as this float. -/
theorem isDecimal_jsonFloatText {x : Float} (finite : x.isFinite = true) :
    ∃ v : ℚ, IsDecimal (Decimal.jsonFloatText x).toList (Decimal.isNegative x) v ∧
      ∀ (c : Nat) (e : Int), c * (10 : ℚ) ^ e = v →
        (Decimal.Numeral.decimal (Decimal.isNegative x) c e).toFloat = x := by
  obtain ⟨m, q, parts⟩ := Decimal.magnitude_of_isFinite finite
  have signed (cs : List Char) :
      (if Decimal.isNegative x then "-" ++ String.ofList cs else String.ofList cs).toList =
        (if Decimal.isNegative x then ['-'] else []) ++ cs := by
    split <;> simp
  unfold Decimal.jsonFloatText Decimal.Layout.text
  simp only [parts]
  by_cases zero : m = 0
  · subst zero
    rw [if_pos rfl, signed]
    refine ⟨0, ⟨['0'], ['0'], none, by simp [numberText, fractionText, Decimal.Layout.json], .zero,
      isDigit_zeros, .inl (by decide), by simp [Decimal.valueOf]⟩, ?_⟩
    intro c e value
    have none_there : c = 0 := by
      have power : (10 : ℚ) ^ e ≠ 0 := by positivity
      exact_mod_cast (mul_eq_zero.mp value).resolve_right power
    rw [none_there]
    exact Decimal.toFloat_zero parts e
  · have stored := Decimal.stored_of_magnitude parts zero
    rw [if_neg zero, signed]
    refine ⟨_, isDecimal_write (Decimal.shortest_pos parts zero) _ _, ?_⟩
    intro c e value
    refine Decimal.toFloat_decimal parts zero ?_
    rw [value]
    exact Decimal.roundsTo_shortest stored

/-- **A finite float comes back from JSON.** -/
theorem rereadFloat_finite {x : Float} (finite : x.isFinite = true) : rereadFloat x = .float x := by
  obtain ⟨_, decimal, same⟩ := isDecimal_jsonFloatText finite
  have number := read_of_reads (starts_float x) (decimal.reads same depthLimit)
  unfold rereadFloat
  rw [number]
  rfl

/-- The least float and a tenth come back. -/
example : rereadFloat 5e-324 = .float 5e-324 ∧ rereadFloat 0.1 = .float 0.1 :=
  ⟨rereadFloat_finite (by decide +kernel), rereadFloat_finite (by decide +kernel)⟩

end Json

end SheetCalc
