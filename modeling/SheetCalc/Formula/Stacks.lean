import SheetCalc.Formula.Failure
import SheetCalc.Formula.Token

/-!
# Operands and pending operators

A formula is evaluated with two stacks, the top of each at the head of its list: the operands that
wait for an operator, and the operators and open parentheses that wait for their right operand.
`Pending.apply` takes two operands for one; `reduce` does so for the pending operators from the top
down to where it is told to stop.
-/

namespace SheetCalc.Formula

/-- What waits on the stack of operators. -/
inductive Pending where
  | paren
  | op (o : Operator)
  deriving DecidableEq, Repr, Inhabited

namespace Pending

/-- The sign of what waits. -/
def sign : Pending → Text
  | .paren => openSign
  | .op o => o.sign

/-- An open parenthesis has a lower precedence than every operator. -/
def precedence : Pending → Nat
  | .paren => 0
  | .op o => o.precedence

end Pending

/-- The value of an operator for two operands. -/
def Operator.apply (o : Operator) (left right : Float) : Except Failure Float :=
  match o with
  | .add => .ok (left + right)
  | .sub => .ok (left - right)
  | .mul => .ok (left * right)
  | .div => if right == 0 then .error .divisionByZero else .ok (left / right)

/-- The operands that stay when an operator is applied, whether it fails or not: a failed division
has used up both of its operands. -/
structure Applied where
  values : List Float
  failure : Option Failure := none

/-- Applies what has a given sign to the two operands on top. The sign is looked at first, and then
whether there are two operands. -/
def applySign (sign : Text) (values : List Float) : Applied :=
  match Operator.ofSign? sign with
  | none => ⟨values, some (.badOperator sign)⟩
  | some o =>
    match values with
    | right :: left :: rest =>
      match o.apply left right with
      | .ok x => ⟨x :: rest, none⟩
      | .error f => ⟨rest, some f⟩
    | _ => ⟨values, some (.missingOperand sign)⟩

/-- Applies what waits to the two operands on top. -/
def Pending.apply (p : Pending) (values : List Float) : Except Failure (List Float) :=
  match applySign p.sign values with
  | ⟨values, none⟩ => .ok values
  | ⟨_, some f⟩ => .error f

/-- The two stacks. -/
structure Stacks where
  values : List Float := []
  pending : List Pending := []
  deriving Inhabited

namespace Stacks

/-- Applies what waits, from the top down to the first of which `stop` holds. -/
def reduce (stop : Pending → Bool) (values : List Float) :
    List Pending → Except Failure Stacks
  | [] => .ok ⟨values, []⟩
  | p :: ps =>
    if stop p then .ok ⟨values, p :: ps⟩
    else
      match p.apply values with
      | .ok values => reduce stop values ps
      | .error f => .error f

/-- A new operand. -/
def pushValue (x : Float) (s : Stacks) : Stacks :=
  { s with values := x :: s.values }

/-- An opening parenthesis waits for its end. -/
def openParen (s : Stacks) : Stacks :=
  { s with pending := .paren :: s.pending }

/-- A closing parenthesis applies all that waits since the last open one, and takes that one away.
If none is open, it applies all that waits. -/
def closeParen (s : Stacks) : Except Failure Stacks :=
  (reduce (· == .paren) s.values s.pending).map fun s => { s with pending := s.pending.tail }

/-- An operator applies what waits with the same or a higher precedence, and then waits itself. -/
def pushOperator (o : Operator) (s : Stacks) : Except Failure Stacks :=
  (reduce (·.precedence < o.precedence) s.values s.pending).map fun s =>
    { s with pending := .op o :: s.pending }

/-- At the end all that waits is applied. It is known at once to fail if a parenthesis on top is
still open or if the operator on top has fewer than two operands. -/
def finish (s : Stacks) : Except Failure (List Float) :=
  match s.pending with
  | [] => .ok s.values
  | p :: _ =>
    if p == .paren || s.values.length < 2 then .error .unbalanced
    else (reduce (fun _ => false) s.values s.pending).map Stacks.values

end Stacks

end SheetCalc.Formula
