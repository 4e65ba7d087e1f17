import SheetCalc.Entries
import SheetCalc.Formula.Failure
import SheetCalc.Value

/-!
# What a formula sees of the cells

A formula is evaluated over a memory of any kind. A resolver says which texts are labels and what a
label leads to; asking for a cell may change the memory.
-/

namespace SheetCalc.Formula

/-- Three facts of a cell: whether it has a formula, its value and its error. -/
structure CellView where
  hasFormula : Bool := false
  value : Value := .int 0
  error : Text := {}
  deriving Inhabited

/-- Why a resolver does not lead to a cell. -/
inductive Refusal where
  /-- It fails the way an evaluation does. -/
  | failure (f : Failure)
  /-- There is no such cell, or none of any use. -/
  | unusable
  /-- It breaks off for a reason that no evaluation deals with. -/
  | fatal (reason : String)
  deriving DecidableEq, Repr, Inhabited

namespace Refusal

/-- The built-in classes of exceptions that end an evaluation without breaking it off. -/
def engineErrors : List String := ["ArithmeticError", "LookupError", "TypeError", "ValueError"]

/-- The one of these classes that another built-in class extends. -/
def extended? : String → Option String
  | "FloatingPointError" | "OverflowError" | "ZeroDivisionError" => some "ArithmeticError"
  | "IndexError" | "KeyError" => some "LookupError"
  | "UnicodeError" | "UnicodeDecodeError" | "UnicodeEncodeError" | "UnicodeTranslateError" =>
    some "ValueError"
  | _ => none

/-- What a look-up comes to that raises an exception of a built-in class. -/
def ofClass (name : String) : Refusal :=
  if engineErrors.contains ((extended? name).getD name) then .unusable else .fatal name

end Refusal

/-- Access to the cells of a memory. -/
structure Resolver (σ : Type) where
  isLabel : Text → Bool
  find : Text → σ → Except Refusal CellView × σ

/-- Access to a table of cells that nothing changes, where all labels that are not in the table lead
to the same. -/
def Resolver.table (isLabel : Text → Bool) (cells : Entries Text CellView)
    (absent : Except Refusal CellView) : Resolver Unit where
  isLabel
  find label _ :=
    match cells.get? label with
    | some cell => (.ok cell, ())
    | none => (absent, ())

end SheetCalc.Formula
