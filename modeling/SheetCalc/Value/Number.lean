import SheetCalc.Decimal.Numeral
import SheetCalc.Text.Quoted
import SheetCalc.Value

/-!
# Values as numbers

`toFloat` and `toInt` read a number off a value: truth values and texts count as well as numbers. A
float is cut to its whole part, an integer is rounded to the nearest float, and what cannot be
converted fails with the reason.
-/

namespace SheetCalc

/-- Why a value is not converted to a number. -/
inductive ConversionError where
  /-- Values of this kind are not converted. -/
  | wrongKind (kind : String)
  | notAFloat (t : Text)
  | notAnInteger (t : Text)
  | tooLong (count : Nat)
  /-- An integer has too many digits to be written. -/
  | tooLongToWrite
  | notANumber
  | infinite
  /-- The integer is beyond all floats. -/
  | tooLarge
  deriving DecidableEq, Repr, Inhabited

namespace ConversionError

/-- The text in the message for what is no integer is cut after this many characters. -/
def shownLength : Nat := 200

/-- How a message about too many digits begins. -/
def tooLongText : String :=
  "Exceeds the limit (" ++ Decimal.natText Decimal.digitLimit
    ++ " digits) for integer string conversion"

/-- How a message about too many digits ends. -/
def tooLongAdvice : String :=
  "; use sys.set_int_max_str_digits() to increase the limit"

/-- What is reported of the failures that reach a user. -/
def message : ConversionError → String
  | .wrongKind kind => "a number is wanted, not '" ++ kind ++ "'"
  | .notAFloat s => "could not convert string to float: " ++ Text.quoted s
  | .notAnInteger s =>
    "invalid literal for int() with base 10: "
      ++ String.ofList ((Text.quoted s).toList.take shownLength)
  | .tooLong count =>
    tooLongText ++ ": value has " ++ Decimal.natText count ++ " digits" ++ tooLongAdvice
  | .tooLongToWrite => tooLongText ++ tooLongAdvice
  | .notANumber => "cannot convert float NaN to integer"
  | .infinite => "cannot convert float infinity to integer"
  | .tooLarge => "int too large to convert to float"

end ConversionError

/-- The float nearest to an integer, unless it lies beyond all finite floats. -/
def floatOfInt (n : Int) : Except ConversionError Float :=
  let x := Decimal.nearestFloat n.natAbs 0
  if x.isFinite then .ok (if n < 0 then -x else x) else .error .tooLarge

namespace Value

/-- The float that a value stands for. -/
def toFloat : Value → Except ConversionError Float
  | .bool b => .ok (if b then 1 else 0)
  | .int n => floatOfInt n
  | .float x => .ok x
  | .text s =>
    match Decimal.readFloat? s.chars with
    | some x => .ok x
    | none => .error (.notAFloat s)
  | v => .error (.wrongKind v.kindName)

/-- The integer that a value stands for. -/
def toInt : Value → Except ConversionError Int
  | .bool b => .ok (if b then 1 else 0)
  | .int n => .ok n
  | .float x =>
    match Decimal.truncate? x with
    | some n => .ok n
    | none => .error (if x.isNaN then .notANumber else .infinite)
  | .text s =>
    match Decimal.readInt s.chars with
    | .ok n => .ok n
    | .error .malformed => .error (.notAnInteger s)
    | .error (.tooLong count) => .error (.tooLong count)
  | v => .error (.wrongKind v.kindName)

end Value

end SheetCalc
