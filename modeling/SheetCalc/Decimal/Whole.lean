import SheetCalc.Decimal.Numeral

/-!
# Whole numbers in fields

A field that wants a whole number takes the text of one as well (`readWhole?`), and is lenient about
it: there may be zeros in front, a point and zeros behind, and single low lines between the digits.
What is left when all of these are taken away is a number as it is written (`readWritten?`).
-/

namespace SheetCalc.Decimal

/-- What a number begins with when there are no zeros in front of it. -/
def beginsNumber (c : Char) : Bool :=
  c == '-' || ('1' ≤ c && c ≤ '9')

/-- A text without the zeros and low lines in front of it, where the last one of them is given. That
one is kept if nothing or a point comes behind it. -/
def dropZerosFrom (last : Char) : List Char → Option (List Char)
  | [] => some [last]
  | c :: rest =>
    if c == '0' || c == '_' then dropZerosFrom c rest
    else if beginsNumber c then some (c :: rest)
    else if c == '.' then some (last :: c :: rest)
    else none

/-- A text without the zeros in front of it. -/
def dropZeros : List Char → Option (List Char)
  | [] => none
  | c :: rest =>
    if c == '0' then dropZerosFrom c rest
    else if beginsNumber c then some (c :: rest)
    else none

/-- A text without a point and zeros at its end. A point without zeros stays. -/
def dropFraction (cs : List Char) : List Char :=
  let (whole, rest) := cs.span (· != '.')
  if 2 ≤ rest.length && rest.tail.all (· == '0') then whole else cs

/-- A text without the low lines in it, if each stands between two other characters. -/
def dropLines : List Char → Option (List Char)
  | [] => some []
  | '_' :: _ => none
  | c :: '_' :: d :: rest => if d == '_' then none else (dropLines (d :: rest)).map (c :: ·)
  | c :: rest => (dropLines rest).map (c :: ·)
termination_by cs => cs.length

/-- Reads a number as it is written: without zeros in front, and no longer than what can be written.
-/
def readWritten? (negative : Bool) (cs : List Char) : Option Int :=
  let (minus, ds) := match cs with
    | '-' :: ds => (true, ds)
    | ds => (false, ds)
  if negative && minus || digitLimit < cs.length + negative.toNat then none
  else if ds.head? == some '0' && ds.length != 1 then none
  else (readDigits? ds).map fun n => if negative || minus then -(n : Int) else n

/-- A text without the sign in front of it, and whether that is a minus. A plus does not stand
before a minus. -/
def dropSign? : List Char → Option (Bool × List Char)
  | '+' :: '-' :: _ => none
  | cs => some (splitSign cs)

/-- Reads a whole number, around which blanks may stand. -/
def readWhole? (cs : List Char) : Option Int := do
  let (negative, cs) ← dropSign? (Text.strip isNumeralBlank cs)
  let digits ← dropLines (dropFraction (← dropZeros cs))
  readWritten? negative digits

end SheetCalc.Decimal
