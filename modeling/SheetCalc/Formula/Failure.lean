import SheetCalc.Text.Quoted

/-!
# Why an evaluation fails

A failure has a code, which is what callers see of it, and a message that says more. The codes are
fixed; only a failed reference can have another one, since it passes on the code that is stored in
the cell it refers to.
-/

namespace SheetCalc.Formula

/-! ## Codes -/

/-- The formula has no token. -/
def emptyFormula : Text := "emptyFormula"

/-- The formula is a pair of parentheses with nothing between them. -/
def missingParentheses : Text := "missingParentheses"

/-- The tokens do not make up an expression. -/
def invalidFormula : Text := "invalidFormula"

/-- The right operand of a division is zero. -/
def divideByZero : Text := "divideByZero"

/-- What is applied as an operator is none. -/
def invalidOperator : Text := "invalidOperator"

/-- A cell that is referred to has no formula. -/
def invalidCell : Text := "invalidCell"

/-! ## Failures -/

/-- A failure of an evaluation. -/
inductive Failure where
  /-- A failure that is none of the others, with its code. -/
  | other (code : Text) (detail : Option Text)
  /-- The tokens do not make up an expression. -/
  | malformed (detail : Option Text)
  /-- A cell that is referred to has an error or no formula. -/
  | badReference (label : Text) (code : Text)
  | badOperator (token : Text)
  | divisionByZero
  deriving DecidableEq, Repr, Inhabited

namespace Failure

/-- The code of a failure. -/
def code : Failure → Text
  | .other code _ => code
  | .malformed _ => invalidFormula
  | .badReference _ code => code
  | .badOperator _ => invalidOperator
  | .divisionByZero => divideByZero

/-- What a failure says beside its code. -/
def detail : Failure → Option Text
  | .other _ detail => detail
  | .malformed detail => detail
  | .badReference label _ => some ("cell " ++ label.quoted : String)
  | .badOperator token => some ("operator " ++ token.quoted : String)
  | .divisionByZero => some ("division by zero" : String)

/-- The message of a failure. A detail that is empty is left out. -/
def message (f : Failure) : Text :=
  let about : Text := "Formula error: " ++ f.code
  match f.detail with
  | none => about
  | some detail => if detail.isEmpty then about else about ++ " (" ++ detail ++ ")"

/-- An operator has fewer than two operands. -/
def missingOperand (token : Text) : Failure :=
  .malformed (some ("missing operand for " ++ token.quoted : String))

/-- A parenthesis is left open, or an operator has fewer than two operands. -/
def unbalanced : Failure :=
  .malformed (some ("unbalanced formula" : String))

end Failure

end SheetCalc.Formula
