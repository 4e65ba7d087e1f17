import SheetCalc.Formula.Resolver
import SheetCalc.Formula.Stacks
import SheetCalc.Value.Number

/-!
# Evaluation

A formula is evaluated in one pass from left to right with a look at the token that follows. `run`
says how the pass ends and which labels it asked for, and depends on nothing but the tokens and the
memory. An `Evaluator` keeps the result and the error of its last evaluation: `evaluate` replaces
the error every time, and the result only if the ending has one.
-/

namespace SheetCalc.Formula

/-- The result of an evaluation: that of a formula without operands is blank. -/
inductive Result where
  | blank
  | number (x : Float)
  deriving Inhabited

namespace Result

/-- A blank result is the integer zero. -/
def toValue : Result → Value
  | .blank => .int 0
  | .number x => .float x

/-- The operand on top of a stack, or blank if there is none. -/
def top : List Float → Result
  | [] => .blank
  | x :: _ => .number x

/-- The result that a failed division leaves. -/
def infinite : Result :=
  .number (1 / 0)

end Result

/-- How the evaluation of a formula ends. -/
inductive Ending where
  | value (result : Result)
  /-- With a result, but of tokens that make up no expression. -/
  | flawed (result : Result)
  /-- There is nothing to evaluate. -/
  | vacant (error : Text)
  | failed (f : Failure)
  /-- The resolver does not lead to a value that a cell refers to. -/
  | refused (r : Refusal)
  deriving Inhabited

namespace Ending

/-- The result that an ending leaves, if it leaves one. -/
def result? : Ending → Option Result
  | .value r => some r
  | .flawed r => some r
  | .failed .divisionByZero => some .infinite
  | _ => none

/-- The error that an ending leaves, where `trailing` says that the formula ends in an operator. -/
def error (trailing : Bool) : Ending → Text
  | .value _ => {}
  | .flawed _ => invalidFormula
  | .vacant error => error
  | .failed f => f.code
  | .refused (.failure f) => f.code
  | .refused .unusable => invalidFormula
  | .refused (.fatal _) => if trailing then invalidFormula else {}

/-- The reason for which an evaluation is broken off. -/
def fatal? : Ending → Option String
  | .refused (.fatal reason) => some reason
  | _ => none

end Ending

/-- How far an evaluation has come: the stacks, the labels asked for (the last one first), and the
memory. -/
structure Progress (σ : Type) where
  held : Stacks := {}
  asked : List Text := []
  memory : σ

namespace Progress

variable {σ : Type}

/-- Goes on with new stacks, or ends with a failure. -/
def proceed (p : Progress σ) : Except Failure Stacks → Progress σ × Option Ending
  | .ok held => ({ p with held }, none)
  | .error f => (p, some (.failed f))

end Progress

/-- The operand that a reference to a cell stands for. An error that is stored in the cell is passed
on, unless it only says that the formula is empty. -/
def CellView.operand (label : Text) (cell : CellView) : Except Ending Float :=
  if !cell.error.isEmpty && cell.error != emptyFormula then
    .error (.failed (.badReference label cell.error))
  else if cell.hasFormula then
    match cell.value.toFloat with
    | .ok x => .ok x
    | .error _ => .error (.refused .unusable)
  else .error (.failed (.badReference label invalidCell))

section

variable {σ : Type} (r : Resolver σ)

/-- Takes in a reference to a cell. -/
def refer (label : Text) (p : Progress σ) : Progress σ × Option Ending :=
  let (found, memory) := r.find label p.memory
  let p := { p with memory, asked := label :: p.asked }
  match found with
  | .error refusal => (p, some (.refused refusal))
  | .ok cell =>
    match cell.operand label with
    | .ok x => ({ p with held := p.held.pushValue x }, none)
    | .error ending => (p, some ending)

/-- Takes in one token, given the one that follows. A number before an opening parenthesis and two
operators in a row end the pass. -/
def step (token : Text) (next? : Option Text) (p : Progress σ) : Progress σ × Option Ending :=
  match Token.classify r.isLabel token with
  | .number x =>
    let p := { p with held := p.held.pushValue x }
    (p, if next? = some openSign then some (.flawed (.number x)) else none)
  | .reference => refer r token p
  | .openParen => ({ p with held := p.held.openParen }, none)
  | .closeParen => p.proceed p.held.closeParen
  | .operator o =>
    if next?.any Token.isOperator then (p, some (.flawed (.top p.held.values)))
    else p.proceed (p.held.pushOperator o)
  | .unknown => (p, none)

/-- Takes in the tokens one after the other, until one of them ends the pass. -/
def scan : List Text → Progress σ → Progress σ × Option Ending
  | [], p => (p, none)
  | token :: rest, p =>
    match step r token rest.head? p with
    | (p, none) => scan rest p
    | (p, some ending) => (p, some ending)

end

/-- Whether a formula ends in an operator. -/
def endsInOperator (tokens : List Text) : Bool :=
  tokens.getLast?.any Token.isOperator

/-- How an evaluation ends when all tokens are taken in. -/
def close (trailing : Bool) (s : Stacks) : Ending :=
  if trailing then .flawed (.top s.values)
  else
    match s.finish with
    | .ok values => .value (.top values)
    | .error f => .failed f

/-- Evaluates a formula: how it ends, after asking for which labels, and what has become of the
memory. -/
def run {σ : Type} (r : Resolver σ) (tokens : List Text) (memory : σ) :
    Ending × List Text × σ :=
  if tokens = [] then (.vacant emptyFormula, [], memory)
  else if tokens = [openSign, closeSign] then (.vacant missingParentheses, [], memory)
  else
    match scan r tokens { memory } with
    | (p, some ending) => (ending, p.asked.reverse, p.memory)
    | (p, none) => (close (endsInOperator tokens) p.held, p.asked.reverse, p.memory)

/-- What is kept of an evaluation. -/
structure Evaluator where
  result : Result := .blank
  error : Text := {}
  deriving Inhabited

/-- An evaluation: what is kept of it, the labels asked for, the reason for which it was broken off,
if it was, and the memory after it. -/
structure Report (σ : Type) where
  evaluator : Evaluator
  asked : List Text
  fatal : Option String
  memory : σ

/-- Evaluates a formula with an evaluator that has been used before. -/
def Evaluator.evaluate {σ : Type} (ev : Evaluator) (r : Resolver σ) (tokens : List Text)
    (memory : σ) : Report σ :=
  let (ending, asked, memory) := run r tokens memory
  { evaluator :=
      { result := ending.result?.getD ev.result
        error := ending.error (endsInOperator tokens) }
    asked
    fatal := ending.fatal?
    memory }

/-- Evaluates a formula with a new evaluator. -/
def evaluate {σ : Type} (r : Resolver σ) (tokens : List Text) (memory : σ) : Report σ :=
  Evaluator.evaluate {} r tokens memory

end SheetCalc.Formula
