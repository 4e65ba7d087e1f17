import SheetCalc.Text.DecimalDigit

/-!
# Decimal digits of a natural number

`digits n` writes a number in base ten without leading zeros, and `valueOf` reads a row of digits
back: `valueOf_digits` says that the two agree.
-/

namespace SheetCalc.Decimal

open SheetCalc.Text

/-- The digits of a number in base ten, most significant first; zero has the one digit `0`. -/
def digits (n : Nat) : List Char :=
  if n < 10 then [digitChar n] else digits (n / 10) ++ [digitChar (n % 10)]

/-- The number that a row of digits stands for. -/
def valueOf (ds : List Char) : Nat :=
  ds.foldl (fun v d => 10 * v + (d.toNat - 0x30)) 0

theorem toNat_digitChar {d : Nat} (h : d < 10) : (digitChar d).toNat = 0x30 + d := by
  rcases d with _ | _ | _ | _ | _ | _ | _ | _ | _ | _ | d <;> first | rfl | omega

theorem isDigit_digitChar {d : Nat} (h : d < 10) : isDigit (digitChar d) = true := by
  simp only [isDigit, toNat_digitChar h, Bool.and_eq_true, decide_eq_true_eq]
  omega

theorem valueOf_append_singleton (ds : List Char) (d : Char) :
    valueOf (ds ++ [d]) = 10 * valueOf ds + (d.toNat - 0x30) := by
  simp [valueOf]

/-- Reading the digits of a number gives the number. -/
theorem valueOf_digits (n : Nat) : valueOf (digits n) = n := by
  induction n using Nat.strongRecOn with
  | ind n ih =>
    rw [digits]
    split
    · simp [valueOf, toNat_digitChar ‹n < 10›]
    · rw [valueOf_append_singleton, ih (n / 10) (by omega), toNat_digitChar (by omega)]
      omega

theorem digits_ne_nil (n : Nat) : digits n ≠ [] := by
  rw [digits]
  split <;> simp

theorem isDigit_of_mem_digits {n : Nat} {c : Char} (h : c ∈ digits n) : isDigit c = true := by
  induction n using Nat.strongRecOn with
  | ind n ih =>
    rw [digits] at h
    split at h
    · simp only [List.mem_singleton] at h
      exact h ▸ isDigit_digitChar ‹n < 10›
    · rcases List.mem_append.mp h with h | h
      · exact ih (n / 10) (by omega) h
      · simp only [List.mem_singleton] at h
        exact h ▸ isDigit_digitChar (by omega)

/-- A number in base ten. -/
def natText (n : Nat) : String :=
  String.ofList (digits n)

/-- An integer in base ten, with a minus in front if it is negative. -/
def intText (n : Int) : String :=
  if n < 0 then "-" ++ natText n.natAbs else natText n.natAbs

end SheetCalc.Decimal
