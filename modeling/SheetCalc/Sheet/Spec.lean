import SheetCalc.Entries
import SheetCalc.Sheet

/-!
# Sheet specifications

A sheet is described by a mapping: its size under `n_rows` and `n_cols`, and under `cells` a mapping
from labels to cells, each with a `formula`, a `value` and an `error`. All of them may be left out.
`Sheet.ofSpec` builds the sheet, or says what is wrong first.
-/

namespace SheetCalc

/-- What is wrong with a description of a sheet. -/
inductive SpecError where
  | badCount (e : ConversionError)
  /-- The sheet would have no cell. -/
  | badSize (e : SizeError)
  | cellsNotMapping
  /-- A key or a token cannot be written. -/
  | notWritable
  /-- A cell is not described by a mapping, but by a value of another kind. -/
  | cellNotMapping (label : Text) (kind : String)
  | badLabel (e : LabelError)
  | formulaNotList (label : Text)
  | valueNotNumber (label : Text)
  /-- A value is an integer beyond all floats. -/
  | valueTooLarge
  deriving DecidableEq, Repr, Inhabited

namespace SpecError

/-- The message for what is wrong with a description. -/
def message : SpecError → String
  | .badCount e => e.message
  | .badSize e => e.message
  | .cellsNotMapping => "'cells' must be a mapping of label -> cell spec"
  | .notWritable => ConversionError.tooLongToWrite.message
  | .cellNotMapping label kind =>
    "Cell " ++ label.quoted ++ ": expected a mapping, got " ++ kind
  | .badLabel e => e.message
  | .formulaNotList label => "Cell " ++ label.quoted ++ ": 'formula' must be a list of tokens"
  | .valueNotNumber label => "Cell " ++ label.quoted ++ ": 'value' must be a number"
  | .valueTooLarge => ConversionError.tooLarge.message

end SpecError

/-- A description, in which the same key can stand only once. -/
abbrev Spec := Entries Key Value

namespace Spec

/-- The entry with a given name. -/
def field? (name : String) (spec : Spec) : Option Value :=
  spec.get? (.text name)

/-- A count of rows or columns, or what holds if there is none. -/
def count (name : String) (default : Int) (spec : Spec) : Except SpecError Int :=
  match spec.field? name with
  | none => .ok default
  | some v => v.toInt.mapError .badCount

/-- The descriptions of the cells. An entry that counts as false describes none. -/
def cellSpecs (spec : Spec) : Except SpecError Spec :=
  match spec.field? "cells" with
  | none => .ok []
  | some (.mapping entries) => .ok entries
  | some v => if v.truthy then .error .cellsNotMapping else .ok []

/-- The tokens of a formula, each as text. -/
def formula (label : Text) (spec : Spec) : Except SpecError (List Text) :=
  match spec.field? "formula" with
  | none => .ok []
  | some (.list tokens) =>
    match Value.texts? tokens with
    | some formula => .ok formula
    | none => .error .notWritable
  | some _ => .error (.formulaNotList label)

/-- The value of a cell, if one is given. -/
def value? (label : Text) (spec : Spec) : Except SpecError (Option Value) :=
  match spec.field? "value" with
  | none => .ok none
  | some v =>
    match v.toFloat with
    | .ok x => .ok (some (.float x))
    | .error .tooLarge => .error .valueTooLarge
    | .error _ => .error (.valueNotNumber label)

/-- The error of a cell, if one is given that counts as true. -/
def error? (spec : Spec) : Except SpecError (Option Text) :=
  match spec.field? "error" with
  | none => .ok none
  | some v =>
    if !v.truthy then .ok none
    else if v.isWritable then .ok (some v.asText)
    else .error .notWritable

end Spec

namespace Sheet

/-- Puts a described cell into a sheet. -/
def addSpec (s : Sheet) (key : Key) (spec : Value) : Except SpecError Sheet := do
  unless key.isWritable do throw .notWritable
  let label := key.asText
  match spec with
  | .mapping spec =>
    let (c, s) ← (s.cell label).mapError .badLabel
    let formula ← Spec.formula label spec
    let value? ← Spec.value? label spec
    let error? ← Spec.error? spec
    return s.modify label fun _ =>
      { c with formula, value := value?.getD c.value, error := error?.getD c.error }
  | v => throw (.cellNotMapping label v.kindName)

/-- Builds the sheet that is described. The sizes given beside the description hold where it has
none. -/
def ofSpec (spec : Spec) (rows cols : Int) : Except SpecError Sheet := do
  let rows ← Spec.count "n_rows" rows spec
  let cols ← Spec.count "n_cols" cols spec
  let s ← (ofSize rows cols).mapError .badSize
  let cells ← Spec.cellSpecs spec
  cells.foldlM (fun s (k, v) => s.addSpec k v) s

end Sheet

end SheetCalc
