import SheetCalc.Text

/-!
# UTF-16 units

A code point of the first plane is one unit of sixteen bits; any other is a pair of units, the high
one first. `ofPair?` puts a pair together again (`unitsOf_pairValue`).
-/

namespace SheetCalc.Text

/-- Whether a unit is the first of a pair. -/
def isHigh (n : Nat) : Bool :=
  0xd800 ≤ n && n ≤ 0xdbff

/-- Whether a unit is the second of a pair. -/
def isLow (n : Nat) : Bool :=
  0xdc00 ≤ n && n ≤ 0xdfff

/-- The units of a code point. -/
def unitsOf (n : Nat) : List Nat :=
  if n < 0x10000 then [n]
  else [0xd800 + (n - 0x10000) / 0x400, 0xdc00 + (n - 0x10000) % 0x400]

/-- The code point of a pair of units. -/
def pairValue (high low : Nat) : Nat :=
  0x10000 + (high - 0xd800) * 0x400 + (low - 0xdc00)

/-- The code point of two units, if they are a pair. -/
def ofPair? (high low : Nat) : Option CodePoint :=
  if isHigh high && isLow low then CodePoint.ofNat? (pairValue high low) else none

/-- A pair is the units of its code point. -/
theorem unitsOf_pairValue {high low : Nat} (hh : isHigh high = true) (hl : isLow low = true) :
    unitsOf (pairValue high low) = [high, low] := by
  simp only [isHigh, isLow, Bool.and_eq_true, decide_eq_true_eq] at hh hl
  have large : ¬ pairValue high low < 0x10000 := by
    unfold pairValue
    omega
  have first : 0xd800 + (pairValue high low - 0x10000) / 0x400 = high := by
    unfold pairValue
    omega
  have second : 0xdc00 + (pairValue high low - 0x10000) % 0x400 = low := by
    unfold pairValue
    omega
  rw [unitsOf, if_neg large, first, second]

end SheetCalc.Text
