import SheetCalc.Decimal.Binary
import SheetCalc.Decimal.Rounding

/-!
# Floats as text

A coefficient and a unit exponent say which number to write; a `Layout` says how: which sizes are
written out in full, what a whole number ends in, and what stands for the values that are not
finite. `Layout.plain` is the layout of messages and cells, `Layout.json` that of the journal, and
`Layout.rounded` cuts a value to a count of significant digits.
-/

namespace SheetCalc.Decimal

/-- The choices that a written float leaves open. -/
structure Layout where
  /-- Values are written out in full from `10 ^ lowest` on … -/
  lowest : Int
  /-- … and below `10 ^ limit`; all others have an exponent. -/
  limit : Int
  /-- What a whole number ends in when it is written out in full. -/
  wholeEnd : List Char
  infinity : String
  nan : String

/-- Full form from `0.0001` to below `1e+16`, with a fraction always shown. -/
def Layout.plain : Layout := ⟨-4, 16, ['.', '0'], "inf", "nan"⟩

/-- As `plain`, with the names that the journal has for the values that are not finite. -/
def Layout.json : Layout := ⟨-4, 16, ['.', '0'], "Infinity", "NaN"⟩

/-- Full form from `0.0001` on as far as `count` digits go, and no fraction that is not there. -/
def Layout.rounded (count : Nat) : Layout := ⟨-4, count, [], "inf", "nan"⟩

/-- The digits without the zeros at their end. -/
def dropTrailingZeros (ds : List Char) : List Char :=
  (ds.reverse.dropWhile (· == '0')).reverse

/-- Digits with a point set after the digit of `10 ^ 0`, filled up with zeros on either side. -/
def pointed (ds : List Char) (lead : Int) (wholeEnd : List Char) : List Char :=
  if lead < 0 then '0' :: '.' :: (List.replicate (-lead - 1).toNat '0' ++ ds)
  else
    let places := lead.toNat + 1
    if ds.length ≤ places then ds ++ List.replicate (places - ds.length) '0' ++ wholeEnd
    else ds.take places ++ '.' :: ds.drop places

/-- An exponent has a sign and at least two digits. -/
def exponentText (e : Int) : List Char :=
  let ds := digits e.natAbs
  'e' :: (if e < 0 then '-' else '+') :: (if ds.length < 2 then '0' :: ds else ds)

/-- One digit before the point, the others after it, and the exponent. -/
def scientific (ds : List Char) (lead : Int) : List Char :=
  match ds with
  | [] => exponentText lead
  | [d] => d :: exponentText lead
  | d :: rest => d :: '.' :: rest ++ exponentText lead

/-- The number `coefficient * 10 ^ unit`, not zero, in a layout. -/
def Layout.write (layout : Layout) (coefficient : Nat) (unit : Int) : List Char :=
  let all := digits coefficient
  let ds := dropTrailingZeros all
  let lead := unit + all.length - 1
  if layout.lowest ≤ lead ∧ lead < layout.limit then pointed ds lead layout.wholeEnd
  else scientific ds lead

/-- A float in a layout, its decimal digits chosen by `pick`. What is not a number has no sign. -/
def Layout.text (layout : Layout) (pick : Nat → Int → Nat × Int) (x : Float) : String :=
  let signed (s : String) : String := if isNegative x then "-" ++ s else s
  match magnitude x with
  | .nan => layout.nan
  | .infinite => signed layout.infinity
  | .finite m q =>
    if m = 0 then signed (String.ofList ('0' :: layout.wholeEnd))
    else signed (String.ofList (layout.write (pick m q).1 (pick m q).2))

/-- A float in the fewest digits that read back. -/
def floatText (x : Float) : String :=
  Layout.plain.text shortest x

/-- A float in the fewest digits that read back, as the journal writes it. -/
def jsonFloatText (x : Float) : String :=
  Layout.json.text shortest x

/-- No float has more significant digits than this, so all that come behind are zeros. -/
def mostDigits : Nat := 767

/-- A float rounded to `count` significant digits, trailing zeros dropped. No count is below one. -/
def roundedText (count : Nat) (x : Float) : String :=
  let n := max count 1
  (Layout.rounded n).text (significant (min n mostDigits)) x

end SheetCalc.Decimal
