import SheetCalc.Proofs.Formula.Plan

/-!
# Expressions

The language that formulas are written in, and what its expressions mean. `Derives` is the grammar:
sums of products of factors, a factor being a number, a reference or an expression in parentheses.
`Expression.eval` is the meaning of a syntax tree: the left operand, the right operand, and then the
operator, up to the first of them that fails.

The actions of a tree in postfix order come out as its meaning says (`carryOut_postfixed`), and the
pass of an expression does not end before its last token (`Derives.calm`).
-/

namespace SheetCalc.Formula

/-! ## Meaning -/

/-- The syntax tree of an expression. -/
inductive Expression where
  | number (x : Float)
  | reference (label : Text)
  | binary (o : Operator) (left right : Expression)
  deriving Inhabited

/-- Why an expression has no value. -/
inductive Fault where
  /-- There is an error in a cell that is referred to. -/
  | stored (label error : Text)
  /-- A cell that is referred to has no formula. -/
  | noFormula (label : Text)
  /-- A label leads to no cell, or to a value that is not converted to a float. -/
  | refused (r : Refusal)
  /-- The right operand of a division is zero. -/
  | division

namespace Fault

/-- The error that is reported for a fault. One that no evaluation deals with is not reported. -/
def error : Fault → Text
  | .stored _ error => error
  | .noFormula _ => invalidCell
  | .refused (.failure f) => f.code
  | .refused .unusable => invalidFormula
  | .refused (.fatal _) => {}
  | .division => divideByZero

/-- The result that a fault leaves behind, where there was another one before. -/
def result (before : Result) : Fault → Result
  | .division => .infinite
  | _ => before

/-- The reason of a fault that no evaluation deals with. -/
def fatal? : Fault → Option String
  | .refused (.fatal reason) => some reason
  | _ => none

/-- How an evaluation ends with a fault. -/
def ending : Fault → Ending
  | .stored label error => .failed (.badReference label error)
  | .noFormula label => .failed (.badReference label invalidCell)
  | .refused r => .refused r
  | .division => .failed .divisionByZero

end Fault

/-- What a cell is worth in an expression. -/
def CellView.worth (label : Text) (cell : CellView) : Except Fault Float :=
  if cell.error ≠ {} ∧ cell.error ≠ emptyFormula then .error (.stored label cell.error)
  else if cell.hasFormula = false then .error (.noFormula label)
  else
    match cell.value.toFloat with
    | .ok x => .ok x
    | .error _ => .error (.refused .unusable)

/-- What an operator makes of two operands. -/
def Operator.value : Operator → Float → Float → Except Fault Float
  | .add, x, y => .ok (x + y)
  | .sub, x, y => .ok (x - y)
  | .mul, x, y => .ok (x * y)
  | .div, x, y => if y == 0 then .error .division else .ok (x / y)

namespace Expression

variable {σ : Type}

/-- The value of an expression or its first fault, the labels asked for on the way to it, and what
has become of the memory. -/
def eval (r : Resolver σ) : Expression → σ → Except Fault Float × List Text × σ
  | .number x, memory => (.ok x, [], memory)
  | .reference label, memory =>
    match r.find label memory with
    | (.ok cell, memory) => (cell.worth label, [label], memory)
    | (.error refusal, memory) => (.error (.refused refusal), [label], memory)
  | .binary o left right, memory =>
    match left.eval r memory with
    | (.error fault, asked, memory) => (.error fault, asked, memory)
    | (.ok x, asked, memory) =>
      match right.eval r memory with
      | (.error fault, more, memory) => (.error fault, asked ++ more, memory)
      | (.ok y, more, memory) => (o.value x y, asked ++ more, memory)

/-- What an evaluator reports that goes by the meaning of an expression. -/
def report (e : Expression) (r : Resolver σ) (ev : Evaluator) (memory : σ) : Report σ :=
  match e.eval r memory with
  | (.ok x, asked, memory) => ⟨⟨.number x, {}⟩, asked, none, memory⟩
  | (.error fault, asked, memory) =>
    ⟨⟨fault.result ev.result, fault.error⟩, asked, fault.fatal?, memory⟩

/-- The actions that lead to the value of an expression. -/
def postfixed : Expression → List Action
  | .number x => [.number x]
  | .reference label => [.reference label]
  | .binary o left right => left.postfixed ++ right.postfixed ++ [.apply (.op o)]

end Expression

/-! ## Grammar -/

/-- The three kinds of phrases. -/
inductive Phrase where
  | sum
  | product
  | factor
  deriving DecidableEq

/-- The tokens of a phrase and its syntax tree. Both kinds of operators group to the left, and those
of products bind closer. -/
inductive Derives (isLabel : Text → Bool) : Phrase → Expression → List Text → Prop
  | number {t x} : Token.number? t = some x → Derives isLabel .factor (.number x) [t]
  | reference {t} : Token.number? t = none → isLabel t = true →
      Derives isLabel .factor (.reference t) [t]
  | group {e ts} : Derives isLabel .sum e ts →
      Derives isLabel .factor e (openSign :: ts ++ [closeSign])
  | factor {e ts} : Derives isLabel .factor e ts → Derives isLabel .product e ts
  | times {o left right ts us} : o ∈ [Operator.mul, Operator.div] →
      Derives isLabel .product left ts → Derives isLabel .factor right us →
      Derives isLabel .product (.binary o left right) (ts ++ (o.sign : Text) :: us)
  | product {e ts} : Derives isLabel .product e ts → Derives isLabel .sum e ts
  | plus {o left right ts us} : o ∈ [Operator.add, Operator.sub] →
      Derives isLabel .sum left ts → Derives isLabel .product right us →
      Derives isLabel .sum (.binary o left right) (ts ++ (o.sign : Text) :: us)

/-- Whether a token means something. -/
def isKnown (isLabel : Text → Bool) (t : Text) : Bool :=
  match Token.classify isLabel t with
  | .unknown => false
  | _ => true

/-! ## Actions and meaning -/

section

variable {σ : Type}

theorem operand_eq_worth (label : Text) (cell : CellView) :
    cell.operand label = (cell.worth label).mapError Fault.ending := by
  unfold CellView.operand CellView.worth
  by_cases held : cell.error ≠ {} ∧ cell.error ≠ emptyFormula
  · have flagged : (!cell.error.isEmpty && cell.error != emptyFormula) = true := by
      simp only [Bool.and_eq_true, Bool.not_eq_true', bne_iff_ne, ne_eq]
      refine ⟨?_, held.2⟩
      cases empty : cell.error.isEmpty with
      | false => rfl
      | true => exact absurd (Text.ext_points (List.isEmpty_iff.mp empty)) held.1
    rw [if_pos flagged, if_pos held]
    rfl
  · have clear : ¬ (!cell.error.isEmpty && cell.error != emptyFormula) = true := by
      intro flagged
      simp only [Bool.and_eq_true, Bool.not_eq_true', bne_iff_ne, ne_eq] at flagged
      refine held ⟨?_, flagged.2⟩
      intro empty
      rw [empty] at flagged
      exact absurd flagged.1 (by decide)
    rw [if_neg clear, if_neg held]
    cases cell.hasFormula with
    | false => rfl
    | true =>
        simp only [if_true, Bool.true_eq_false, if_false]
        cases cell.value.toFloat <;> rfl

theorem apply_eq_value (o : Operator) (x y : Float) :
    o.apply x y = (o.value x y).mapError fun _ => .divisionByZero := by
  cases o with
  | div =>
      simp only [Operator.apply, Operator.value]
      split <;> rfl
  | _ => rfl

/-- Only a division has a fault of its own. -/
theorem value_fault {o : Operator} {x y : Float} {fault : Fault}
    (h : o.value x y = .error fault) : fault = .division := by
  cases o with
  | div =>
      simp only [Operator.value] at h
      split at h
      · cases h
        rfl
      · cases h
  | _ => cases h

/-- The actions of an expression come out as its meaning says. -/
theorem carryOut_postfixed (r : Resolver σ) (e : Expression) (d : Desk σ) :
    carryOut r e.postfixed d =
      match e.eval r d.memory with
      | (.ok x, asked, memory) => .ok ⟨x :: d.values, asked.reverse ++ d.asked, memory⟩
      | (.error fault, asked, memory) =>
        .error (fault.ending, d.asked.reverse ++ asked, memory) := by
  induction e generalizing d with
  | number x => rfl
  | reference label =>
      simp only [Expression.postfixed, carryOut_singleton, Action.perform, Resolver.lookUp,
        Expression.eval]
      rcases r.find label d.memory with ⟨refusal | cell, memory⟩
      · simp [Desk.take, Fault.ending]
      · simp only [operand_eq_worth]
        cases cell.worth label with
        | error fault =>
            show Except.error (fault.ending, (label :: d.asked).reverse, memory) = _
            rw [List.reverse_cons]
        | ok x => rfl
  | binary o left right ihLeft ihRight =>
      simp only [Expression.postfixed, carryOut_append, Expression.eval, ihLeft]
      rcases left.eval r d.memory with ⟨fault | x, asked, memory⟩
      · rfl
      · simp only [Except.bind, ihRight]
        rcases right.eval r memory with ⟨fault | y, more, memory⟩
        · simp [List.append_assoc]
        · simp only [carryOut_singleton, Action.perform, Pending.apply_op, apply_eq_value]
          cases hv : o.value x y with
          | error fault =>
              show Except.error
                (_, (more.reverse ++ (asked.reverse ++ d.asked)).reverse, memory) = _
              rw [value_fault hv]
              simp [Fault.ending]
          | ok z =>
              show Except.ok (⟨_, more.reverse ++ (asked.reverse ++ d.asked), memory⟩ : Desk σ) = _
              simp

end

/-! ## The tokens of an expression -/

section

variable {isLabel : Text → Bool}

/-- An expression has an operand. -/
theorem Derives.exists_operand (rejects : RejectsSymbols isLabel) {phrase : Phrase}
    {e : Expression} {ts : List Text} (h : Derives isLabel phrase e ts) :
    ∃ t ∈ ts, t ∉ symbols := by
  induction h with
  | number hn => exact ⟨_, List.mem_singleton_self _, Token.not_mem_symbols_of_number? hn⟩
  | reference _ hl =>
      exact ⟨_, List.mem_singleton_self _, Token.not_mem_symbols_of_isLabel rejects hl⟩
  | group _ ih =>
      obtain ⟨t, there, operand⟩ := ih
      exact ⟨t, by simp [there], operand⟩
  | factor _ ih => exact ih
  | product _ ih => exact ih
  | times _ _ _ ih _ =>
      obtain ⟨t, there, operand⟩ := ih
      exact ⟨t, by simp [there], operand⟩
  | plus _ _ _ ih _ =>
      obtain ⟨t, there, operand⟩ := ih
      exact ⟨t, by simp [there], operand⟩

/-- The first token of an expression is no operator. -/
theorem Derives.starts (rejects : RejectsSymbols isLabel) {phrase : Phrase} {e : Expression}
    {ts : List Text} (h : Derives isLabel phrase e ts) :
    ∃ t rest, ts = t :: rest ∧ Token.isOperator t = false := by
  induction h with
  | number hn =>
      have no_symbol := Token.not_mem_symbols_of_number? hn
      exact ⟨_, [], rfl, Token.isOperator_of_not_mem_symbols no_symbol⟩
  | reference _ hl =>
      have no_symbol := Token.not_mem_symbols_of_isLabel rejects hl
      exact ⟨_, [], rfl, Token.isOperator_of_not_mem_symbols no_symbol⟩
  | group _ _ => exact ⟨openSign, _, rfl, by decide⟩
  | factor _ ih => exact ih
  | product _ ih => exact ih
  | times _ _ _ ih _ =>
      obtain ⟨t, rest, rfl, operand⟩ := ih
      exact ⟨t, _, rfl, operand⟩
  | plus _ _ _ ih _ =>
      obtain ⟨t, rest, rfl, operand⟩ := ih
      exact ⟨t, _, rfl, operand⟩

/-- The last token of an expression is no operator. -/
theorem Derives.ends (rejects : RejectsSymbols isLabel) {phrase : Phrase} {e : Expression}
    {ts : List Text} (h : Derives isLabel phrase e ts) :
    ∃ front t, ts = front ++ [t] ∧ Token.isOperator t = false := by
  induction h with
  | number hn =>
      have no_symbol := Token.not_mem_symbols_of_number? hn
      exact ⟨[], _, rfl, Token.isOperator_of_not_mem_symbols no_symbol⟩
  | reference _ hl =>
      have no_symbol := Token.not_mem_symbols_of_isLabel rejects hl
      exact ⟨[], _, rfl, Token.isOperator_of_not_mem_symbols no_symbol⟩
  | group _ _ => exact ⟨_, closeSign, rfl, by decide⟩
  | factor _ ih => exact ih
  | product _ ih => exact ih
  | times _ _ _ _ ih =>
      obtain ⟨front, t, rfl, operand⟩ := ih
      exact ⟨_, t, (List.append_assoc _ (_ :: front) [t]).symm, operand⟩
  | plus _ _ _ _ ih =>
      obtain ⟨front, t, rfl, operand⟩ := ih
      exact ⟨_, t, (List.append_assoc _ (_ :: front) [t]).symm, operand⟩

theorem endsEarly_of_isOperator (rejects : RejectsSymbols isLabel) (o : Operator) {t : Text}
    (operand : Token.isOperator t = false) : endsEarly isLabel o.sign (some t) = false := by
  unfold endsEarly
  rw [Token.classify_sign rejects]
  exact operand

/-- The pass of an expression does not end early, whatever calm tokens come behind it, unless the
first of them opens a parenthesis. -/
theorem Derives.calm (rejects : RejectsSymbols isLabel) {phrase : Phrase} {e : Expression}
    {ts : List Text} (h : Derives isLabel phrase e ts) {rest : List Text}
    (after : Calm isLabel rest) (closed : rest.head? ≠ some openSign) :
    Calm isLabel (ts ++ rest) := by
  induction h generalizing rest with
  | number hn =>
      refine ⟨?_, after⟩
      unfold endsEarly
      rw [Token.classify_of_number? hn]
      simpa using closed
  | reference hn hl =>
      refine ⟨?_, after⟩
      unfold endsEarly
      rw [Token.classify_of_isLabel hn hl]
  | @group e ts _ ih =>
      have behind : Calm isLabel (closeSign :: rest) := by
        refine ⟨?_, after⟩
        unfold endsEarly
        rw [Token.classify_closeSign rejects]
      have apart : (closeSign :: rest).head? ≠ some openSign := by
        intro same
        exact absurd (Option.some.inj same) (by decide)
      have inside := ih behind apart
      show Calm isLabel (openSign :: (ts ++ [closeSign] ++ rest))
      rw [List.append_assoc]
      refine ⟨?_, inside⟩
      unfold endsEarly
      rw [Token.classify_openSign rejects]
  | factor _ ih => exact ih after closed
  | product _ ih => exact ih after closed
  | @times o left right ts us ho _ hr ihLeft ihRight =>
      obtain ⟨u, us', rfl, operand⟩ := hr.starts rejects
      rw [List.append_assoc]
      refine ihLeft ⟨endsEarly_of_isOperator rejects o operand, ihRight after closed⟩ ?_
      intro same
      exact sign_ne_openSign o (Option.some.inj same)
  | @plus o left right ts us ho _ hr ihLeft ihRight =>
      obtain ⟨u, us', rfl, operand⟩ := hr.starts rejects
      rw [List.append_assoc]
      refine ihLeft ⟨endsEarly_of_isOperator rejects o operand, ihRight after closed⟩ ?_
      intro same
      exact sign_ne_openSign o (Option.some.inj same)

end

end SheetCalc.Formula
