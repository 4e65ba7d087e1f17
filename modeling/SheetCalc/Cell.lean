import SheetCalc.Formula.Resolver
import SheetCalc.Value.Number
import SheetCalc.Value.Text

/-!
# Cells

A cell has a label, a formula, a value and an error. `displayText` is what a reader of the sheet
sees of a cell: its error, or else its value.
-/

namespace SheetCalc

/-- A cell. The value is that of the last evaluation, or one that was put in. -/
structure Cell where
  label : Text
  formula : List Text := []
  value : Value := .int 0
  error : Text := {}
  deriving Inhabited

/-- What a formula sees of a cell. -/
def Cell.view (c : Cell) : Formula.CellView :=
  { hasFormula := !c.formula.isEmpty, value := c.value, error := c.error }

/-! ## Display -/

/-- A count of digits that no value can be rounded to. -/
structure PrecisionError where
  precision : Int
  deriving DecidableEq, Repr, Inhabited

/-- The count of digits that values are shown with if no other is given. -/
def defaultPrecision : Int := 10

/-- The largest count of digits that can be asked for. -/
def largestPrecision : Int := 2147483647

/-- Whole floats below this bound are shown in full and without a fraction. -/
def wholeLimit : Nat := Nat.pow 10 15

/-- A finite float as it is shown. -/
def floatDisplay (precision : Int) (x : Float) : Except PrecisionError String :=
  match Decimal.toInt? x with
  | some n =>
    if n.natAbs < wholeLimit then .ok (Decimal.intText n) else rounded
  | none => rounded
where
  /-- The float with a given count of digits. -/
  rounded : Except PrecisionError String :=
    if precision < 0 ∨ largestPrecision < precision then .error ⟨precision⟩
    else .ok (Decimal.roundedText precision.toNat x)

/-- A value as it is shown. -/
def valueDisplay (precision : Int) : Value → Except PrecisionError Text
  | .float x =>
    if x.isFinite then (floatDisplay precision x).map Text.ofString
    else .ok (Decimal.floatText x : String)
  | v => .ok v.asText

/-- What is shown of a value and an error. -/
def displayText (value : Value) (error : Text) (precision : Int) : Except PrecisionError Text :=
  if error.isEmpty then valueDisplay precision value else .ok error

/-- What is shown of a cell. -/
def Cell.display (c : Cell) (precision : Int) : Except PrecisionError Text :=
  displayText c.value c.error precision

/-! ## Description -/

/-- All that there is in a cell, in one line. -/
def describe (label : Text) (formula : List Value) (value : Value) (error : Text) : String :=
  "Cell(" ++ Text.quoted label ++ ", formula=" ++ (Value.list formula).quoted
    ++ ", value=" ++ value.quoted ++ ", error=" ++ Text.quoted error ++ ")"

/-- All that there is in a cell, in one line. -/
def Cell.describe (c : Cell) : String :=
  SheetCalc.describe c.label (c.formula.map Value.text) c.value c.error

end SheetCalc
