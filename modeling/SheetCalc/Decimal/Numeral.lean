import SheetCalc.Decimal.Digits
import SheetCalc.Text.Blank

/-!
# Numerals

The text of a number: `Numeral.read?` for the numbers that can have a fraction or an exponent, and
`readInt` for the whole ones. Digits may be of any script, blanks may stand around a numeral, and a
single low line may stand between two digits. `Numeral.toFloat` gives the float nearest to what was
written.
-/

namespace SheetCalc.Decimal

open SheetCalc.Text

/-- What a numeral says: `± coefficient * 10 ^ exponent`, or one of the names that are not finite.
-/
inductive Numeral where
  | decimal (negative : Bool) (coefficient : Nat) (exponent : Int)
  | infinite (negative : Bool)
  | nan
  deriving DecidableEq, Repr, Inhabited

/-- The blanks that may stand around a numeral. -/
def isNumeralBlank (c : Char) : Bool :=
  isAsciiBlank c || isWideBlank c

/-- A numeral without the blanks around it and with digits of ASCII alone. -/
def plainDigits (cs : List Char) : List Char :=
  (strip isNumeralBlank cs).map toAsciiDigit

/-- Takes out the low lines that stand between two digits; a low line anywhere else is refused. The
flag says whether the character before was a digit. -/
def ungroup (afterDigit : Bool) : List Char → Option (List Char)
  | [] => some []
  | '_' :: [] => none
  | '_' :: d :: rest =>
    if afterDigit && isDigit d then (ungroup true rest).map (d :: ·) else none
  | c :: rest => (ungroup (isDigit c) rest).map (c :: ·)

/-- A sign in front, if there is one, and whether it is a minus. -/
def splitSign : List Char → Bool × List Char
  | '-' :: rest => (true, rest)
  | '+' :: rest => (false, rest)
  | cs => (false, cs)

/-- A row of digits with nothing after it. -/
def readDigits? (cs : List Char) : Option Nat :=
  if cs.isEmpty || !cs.all isDigit then none else some (valueOf cs)

/-- The exponent that may end a numeral: nothing, or `e` and an integer. -/
def readExponent? : List Char → Option Int
  | [] => some 0
  | e :: rest =>
    if e == 'e' || e == 'E' then
      let (negative, ds) := splitSign rest
      (readDigits? ds).map fun n => if negative then -(n : Int) else n
    else none

/-- Digits with at most one point among them, and an exponent. At least one digit is before or after
the point. -/
def readDecimal? (negative : Bool) (cs : List Char) : Option Numeral :=
  let (whole, rest) := cs.span isDigit
  let (fraction, rest) :=
    match rest with
    | '.' :: rest => rest.span isDigit
    | _ => ([], rest)
  if whole.isEmpty && fraction.isEmpty then none
  else
    (readExponent? rest).map fun e =>
      .decimal negative (valueOf (whole ++ fraction)) (e - fraction.length)

/-- A numeral without its sign. The names `inf`, `infinity` and `nan` are read in any case. -/
def readUnsigned? (negative : Bool) (cs : List Char) : Option Numeral :=
  let name := String.ofList (cs.map Char.toLower)
  if name == "inf" || name == "infinity" then some (.infinite negative)
  else if name == "nan" then some .nan
  else readDecimal? negative cs

/-- Reads a numeral. -/
def Numeral.read? (cs : List Char) : Option Numeral :=
  (ungroup false (plainDigits cs)).bind fun cs =>
    let (negative, cs) := splitSign cs
    readUnsigned? negative cs

/-- The float nearest to `coefficient * 10 ^ exponent`. Sizes that are far out of range are settled
by the length of the coefficient alone, so that no power of ten is computed for them. -/
def nearestFloat (coefficient : Nat) (exponent : Int) : Float :=
  let bits : Int := coefficient.log2
  if coefficient = 0 then 0
  else if 400 < exponent + bits * 3 / 10 then 1 / 0
  else if exponent + (bits + 1) / 3 < -400 then 0
  else if 0 ≤ exponent then Float.ofScientific coefficient false exponent.toNat
  else Float.ofScientific coefficient true (-exponent).toNat

/-- The float that a numeral stands for. -/
def Numeral.toFloat : Numeral → Float
  | .decimal negative coefficient exponent =>
    let x := nearestFloat coefficient exponent
    if negative then -x else x
  | .infinite negative => if negative then -1 / 0 else 1 / 0
  | .nan => 0 / 0

/-- Reads a float. -/
def readFloat? (cs : List Char) : Option Float :=
  (Numeral.read? cs).map Numeral.toFloat

/-- An integer of more digits than this is neither read nor written. -/
def digitLimit : Nat := 4300

/-- Whether an integer has few enough digits to be written. -/
def isWritable (n : Int) : Bool :=
  n.natAbs < Nat.pow 10 digitLimit

/-- Why a text is not read as an integer. -/
inductive IntegerError where
  | malformed
  | tooLong (count : Nat)
  deriving DecidableEq, Repr, Inhabited

/-- Reads an integer: a sign if there is one, and digits. The digits are counted before what comes
after them is looked at. -/
def readInt (cs : List Char) : Except IntegerError Int :=
  let (negative, cs) := splitSign (plainDigits cs)
  let (run, rest) := cs.span fun c => isDigit c || c == '_'
  match ungroup false run with
  | none => .error .malformed
  | some ds =>
    if digitLimit < ds.length then .error (.tooLong ds.length)
    else if ds.isEmpty || !rest.isEmpty then .error .malformed
    else .ok (if negative then -(valueOf ds : Int) else valueOf ds)

end SheetCalc.Decimal
