import SheetCalc.Cell
import SheetCalc.Formula.Evaluation
import SheetCalc.Label
import SheetCalc.Value.Text

/-!
# Sheets

A sheet is a grid of fixed size with the cells that have been touched, in the order in which they
were. `cell` leads from a label to its cell and makes an empty one where there is none; all other
operations go through it, so a label that is malformed or outside the grid fails before anything is
changed. The tokens of a formula can be values of any kind, and are kept as texts: where one of them
cannot be written, `setFormula` fails after it has made the cell. A sheet is a memory for formulas
(`resolver`), and `evaluateCell` runs the formula of one cell on it and stores what comes out.
Formulas that refer to that cell are not run again.

An integer of too many digits is the only value that is taken to have no text; lists that stand too
deep inside each other, whose text the interpreter also refuses to write, are not singled out.
-/

namespace SheetCalc

/-- A sheet. -/
structure Sheet where
  rows : Nat
  cols : Nat
  cells : List Cell := []
  rows_pos : 0 < rows
  cols_pos : 0 < cols

/-- A size that no sheet has. -/
structure SizeError where
  rows : Int
  cols : Int
  deriving DecidableEq, Repr, Inhabited

/-- Whether the counts of a size have few enough digits to be written. -/
def SizeError.isWritable (e : SizeError) : Bool :=
  Decimal.isWritable e.rows && Decimal.isWritable e.cols

/-- The message for a size that no sheet has. -/
def SizeError.message (e : SizeError) : String :=
  if e.isWritable then
    "Sheet must have at least one cell, got " ++ Decimal.intText e.rows ++ "x"
      ++ Decimal.intText e.cols
  else ConversionError.tooLongToWrite.message

/-- Why a label leads to no cell. -/
inductive LabelError where
  | unreadable (e : Label.ParseError)
  /-- It names a position outside the grid. -/
  | outside (label : Text) (rows cols : Nat)
  deriving DecidableEq, Repr, Inhabited

namespace LabelError

/-- Whether the numbers that the message holds have few enough digits to be written. -/
def isWritable : LabelError → Bool
  | .unreadable _ => true
  | .outside _ rows cols => Decimal.isWritable rows && Decimal.isWritable cols

/-- The message for a label that leads to no cell. -/
def message (e : LabelError) : String :=
  match e with
  | .unreadable (.malformed label) => "Invalid cell label: " ++ label.quoted
  | .unreadable (.rowTooLong count) => (ConversionError.tooLong count).message
  | .outside label rows cols =>
    if e.isWritable then
      "Cell " ++ label.quoted ++ " is outside the " ++ Decimal.natText rows ++ "x"
        ++ Decimal.natText cols ++ " sheet"
    else ConversionError.tooLongToWrite.message

end LabelError

/-- What goes wrong with a cell. -/
inductive CellError where
  | badLabel (e : LabelError)
  /-- A token of its formula cannot be written. -/
  | notWritable
  deriving DecidableEq, Repr, Inhabited

namespace Sheet

/-- The count of rows of a sheet if no other is given. -/
def defaultRows : Int := 100

/-- The count of columns of a sheet if no other is given. -/
def defaultCols : Int := 26

/-- A sheet without cells. It has at least one row and one column. -/
def ofSize (rows cols : Int) : Except SizeError Sheet :=
  if h : 1 ≤ rows ∧ 1 ≤ cols then
    .ok { rows := rows.toNat, cols := cols.toNat, rows_pos := by omega, cols_pos := by omega }
  else .error ⟨rows, cols⟩

/-! ## Cells -/

/-- The position that a label names in the grid. -/
def position (s : Sheet) (label : Text) : Except LabelError Position :=
  match Label.parse label with
  | .error e => .error (.unreadable e)
  | .ok p =>
    if p.row < s.rows ∧ p.col < s.cols then .ok p else .error (.outside label s.rows s.cols)

/-- The cell with a label, if it has been touched before. -/
def find? (s : Sheet) (label : Text) : Option Cell :=
  s.cells.find? (·.label == label)

/-- The cell with a label, and the sheet in which it is there. -/
def cell (s : Sheet) (label : Text) : Except LabelError (Cell × Sheet) :=
  match s.position label with
  | .error e => .error e
  | .ok _ =>
    match s.find? label with
    | some c => .ok (c, s)
    | none => .ok ({ label }, { s with cells := s.cells ++ [{ label }] })

/-- Changes the cell with a label, if it is there. -/
def modify (s : Sheet) (label : Text) (f : Cell → Cell) : Sheet :=
  { s with cells := s.cells.map fun c => if c.label == label then f c else c }

/-- Changes the cell with a label. -/
def update (s : Sheet) (label : Text) (f : Cell → Cell) : Except LabelError Sheet :=
  (s.cell label).map fun (_, s) => s.modify label f

/-- Gives a cell a formula. The cell is made before the tokens are written, and stays if one of them
cannot be. -/
def setFormula (s : Sheet) (label : Text) (tokens : List Value) : Except CellError Unit × Sheet :=
  match s.cell label with
  | .error e => (.error (.badLabel e), s)
  | .ok (_, s) =>
    match Value.texts? tokens with
    | some formula => (.ok (), s.modify label ({ · with formula }))
    | none => (.error .notWritable, s)

/-- Gives a cell a value. -/
def setValue (s : Sheet) (label : Text) (value : Value) : Except LabelError Sheet :=
  s.update label ({ · with value })

/-- Gives a cell an error. -/
def setError (s : Sheet) (label error : Text) : Except LabelError Sheet :=
  s.update label ({ · with error })

/-- Whether one label comes before another, row by row. Labels that name the same position are in
either order. -/
def labelLe (a b : Text) : Bool :=
  match Label.parse a, Label.parse b with
  | .ok p, .ok q => p.le q
  | _, _ => true

/-- The cells row by row. -/
def sortedCells (s : Sheet) : List Cell :=
  s.cells.mergeSort fun a b => labelLe a.label b.label

/-- The labels of the cells row by row. -/
def labels (s : Sheet) : List Text :=
  s.sortedCells.map (·.label)

/-! ## Evaluation -/

/-- Access of formulas to the cells of a sheet. -/
def resolver : Formula.Resolver Sheet where
  isLabel := Label.isLabel
  find label s :=
    match s.cell label with
    | .ok (c, s) => (.ok c.view, s)
    | .error _ => (.error .unusable, s)

/-- Evaluates the formula of a cell with an evaluator, and stores the result and the error in the
cell. -/
def evaluateCell (s : Sheet) (label : Text) (ev : Formula.Evaluator) :
    Except LabelError (Formula.Evaluator × Sheet) :=
  match s.cell label with
  | .error e => .error e
  | .ok (c, s) =>
    let report := ev.evaluate resolver c.formula s
    let value := report.evaluator.result.toValue
    let error := report.evaluator.error
    .ok (report.evaluator, report.memory.modify label ({ · with value, error }))

end Sheet

end SheetCalc
