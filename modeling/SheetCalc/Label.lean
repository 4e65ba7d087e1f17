import SheetCalc.Column
import SheetCalc.Decimal.Numeral
import SheetCalc.Text.Quoted

/-!
# Cell labels

A label names a position of the grid: the letters of the column and the number of the row, counted
from one. `parse` reads a label and `make` writes one. A label has one to three letters, its number
has no leading zero, and one line feed may follow it.
-/

namespace SheetCalc

/-- A position of the grid, both counts from zero. -/
structure Position where
  row : Nat
  col : Nat
  deriving DecidableEq, Repr, Inhabited

/-- Row by row, and from left to right in a row. -/
def Position.le (p q : Position) : Bool :=
  p.row < q.row || (p.row == q.row && p.col ≤ q.col)

namespace Label

/-- Why a text names no position. -/
inductive ParseError where
  | malformed (t : Text)
  | rowTooLong (count : Nat)
  deriving DecidableEq, Repr, Inhabited

/-- A text without the line feed that may end it. -/
def dropFinalBreak (cs : List Char) : List Char :=
  if cs.getLast? = some '\n' then cs.dropLast else cs

/-- Whether a row of digits is a positive number without leading zeros. -/
def isRowNumber : List Char → Bool
  | [] => false
  | d :: ds => d != '0' && (d :: ds).all Text.isDigit

/-- The letters and the digits of a label. -/
def split? (t : Text) : Option (List Char × List Char) :=
  let (letters, number) := (dropFinalBreak t.chars).span Column.isLetter
  if !letters.isEmpty && letters.length ≤ 3 && isRowNumber number then some (letters, number)
  else none

/-- Whether a text has the form of a label. -/
def isLabel (t : Text) : Bool :=
  (split? t).isSome

/-- The position that a label names. -/
def parse (t : Text) : Except ParseError Position :=
  match split? t with
  | none => .error (.malformed t)
  | some (letters, number) =>
    if Decimal.digitLimit < number.length then .error (.rowTooLong number.length)
    else .ok ⟨Decimal.valueOf number - 1, (Column.index (.ofChars letters)).toNat⟩

/-- The label of a row and a column, unless the number of the row has too many digits. A position
outside the grid has one too, which is not read. -/
def make? (row col : Int) : Option String :=
  if Decimal.isWritable (row + 1) then
    some (String.ofList (Column.letters col) ++ Decimal.intText (row + 1))
  else none

end Label

end SheetCalc
