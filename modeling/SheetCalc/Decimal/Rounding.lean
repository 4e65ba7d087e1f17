import SheetCalc.Decimal.Digits

/-!
# Decimals near a binary value

A positive value `m * 2 ^ q` is compared with the points of a decimal grid `c * 10 ^ j` in whole
numbers. `significant` rounds it to a given count of digits; `shortest` finds the fewest digits that
still single it out among its neighbours, and of these the nearest.
-/

namespace SheetCalc.Decimal

/-- The quotient rounded to the nearest whole number; a half goes to the even neighbour. -/
def roundDiv (num den : Nat) : Nat :=
  let c := num / den
  let r := num % den
  if 2 * r < den then c
  else if den < 2 * r then c + 1
  else if c % 2 = 0 then c else c + 1

/-- The value `m * 2 ^ q` in units of `10 ^ j`, as a numerator and a denominator. -/
def inUnits (m : Nat) (q j : Int) : Nat × Nat :=
  (m * Nat.pow 2 q.toNat * Nat.pow 10 (-j).toNat, Nat.pow 2 (-q).toNat * Nat.pow 10 j.toNat)

/-- Whether `10 ^ j ≤ m * 2 ^ q`. -/
def reaches (m : Nat) (q j : Int) : Bool :=
  let u := inUnits m q j
  u.2 ≤ u.1

/-- The exponent of the leading decimal digit. The binary length gives it but for one unit, which is
then settled by comparison. -/
def leadExponent (m : Nat) (q : Int) : Int :=
  let k := ((m.log2 : Int) + q) * 30103 / 100000
  if reaches m q (k + 1) then k + 1 else if reaches m q k then k else k - 1

/-- The coefficient and the unit exponent of a value rounded to `count` digits. Rounding up can
carry into one digit more. -/
def significant (count m : Nat) (q : Int) : Nat × Int :=
  let j := leadExponent m q - count + 1
  let u := inUnits m q j
  (roundDiv u.1 u.2, j)

/-- The nearer of the two grid points around a value with `count` digits, among those that lie in
the interval of reals that round to the value. Everything is in quarters of a unit of the mantissa:
the interval goes half a unit up, and half a unit down or, below a power of two, a quarter. Its ends
belong to it if the mantissa is even. -/
def nearest? (count m : Nat) (q : Int) : Option (Nat × Int) :=
  let j := leadExponent m q - count + 1
  let low := if m = Nat.pow 2 52 ∧ -1074 < q then 4 * m - 1 else 4 * m - 2
  let (value, den) := inUnits (4 * m) (q - 2) j
  let (bottom, _) := inUnits low (q - 2) j
  let (top, _) := inUnits (4 * m + 2) (q - 2) j
  let inside (c : Nat) : Bool :=
    if m % 2 = 0 then bottom ≤ c * den && c * den ≤ top
    else bottom < c * den && c * den < top
  let c := roundDiv value den
  let other := if c * den ≤ value then c + 1 else c - 1
  if inside c then some (c, j) else if inside other then some (other, j) else none

/-- The coefficient and the unit exponent of the shortest decimal that reads back as the value.
Seventeen digits are always enough. -/
def shortest (m : Nat) (q : Int) : Nat × Int :=
  ((List.range 17).findSome? fun n => nearest? (n + 1) m q).getD (significant 17 m q)

end SheetCalc.Decimal
