import SheetCalc.Decimal.Numeral
import SheetCalc.Text

/-!
# Tokens

A formula is a row of tokens, each a text. What a token is follows from the text alone once it is
known which texts are labels; a number is never taken for a label, and a label never for a symbol
(`Token.classify`).
-/

namespace SheetCalc.Formula

/-- The four operators. -/
inductive Operator where
  | add
  | sub
  | mul
  | div
  deriving DecidableEq, Repr, Inhabited

namespace Operator

/-- The sign of an operator. -/
def sign : Operator → String
  | .add => "+"
  | .sub => "-"
  | .mul => "*"
  | .div => "/"

/-- The operator with a given sign. -/
def ofSign? (t : Text) : Option Operator :=
  [add, sub, mul, div].find? fun o => t == o.sign

/-- An operator of higher precedence is applied first. -/
def precedence : Operator → Nat
  | .add | .sub => 1
  | .mul | .div => 2

@[simp] theorem ofSign?_sign (o : Operator) : ofSign? o.sign = some o := by
  cases o <;> decide

theorem sign_of_ofSign? {t : Text} {o : Operator} (h : ofSign? t = some o) : t = o.sign := by
  have found := List.find?_some h
  simpa using found

theorem precedence_pos (o : Operator) : 0 < o.precedence := by
  cases o <;> decide

end Operator

/-- The sign that opens a parenthesis. -/
def openSign : Text := "("

/-- The sign that closes a parenthesis. -/
def closeSign : Text := ")"

/-- What a token is. -/
inductive Kind where
  | number (x : Float)
  | reference
  | openParen
  | closeParen
  | operator (o : Operator)
  | unknown

namespace Token

/-- The number that a token is. What is not a number has a numeral, but it is not taken for one. -/
def number? (token : Text) : Option Float :=
  match Decimal.readFloat? token.chars with
  | some x => if x.isNaN then none else some x
  | none => none

/-- Whether a token is the sign of an operator. -/
def isOperator (token : Text) : Bool :=
  (Operator.ofSign? token).isSome

/-- The precedence of a token; whatever is no operator has none. -/
def precedence (token : Text) : Nat :=
  match Operator.ofSign? token with
  | some o => o.precedence
  | none => 0

/-- What a token is, where `isLabel` says which texts are labels. -/
def classify (isLabel : Text → Bool) (token : Text) : Kind :=
  match number? token with
  | some x => .number x
  | none =>
    if isLabel token then .reference
    else if token = openSign then .openParen
    else if token = closeSign then .closeParen
    else
      match Operator.ofSign? token with
      | some o => .operator o
      | none => .unknown

end Token

end SheetCalc.Formula
