import SheetCalc.Proofs.Formula.References
import SheetCalc.Proofs.Procedure

/-!
# The two fields of an evaluator

An evaluator has a field for the result and one for the error, and an evaluation writes both of them
in several places: the error is cleared first, and set before the pass if the formula ends in an
operator, or in the pass, which then returns; a division that fails stores the infinite result
before it raises its failure; and what is raised is caught, and replaces the error or leaves it.
`Bench.evaluate` is this procedure, field by field.

It leaves in the fields what its ending says (`run_evaluate`), and no ending depends on the fields.
So an evaluation forgets the error that was there, and it either forgets the result or keeps it,
whatever it was (`evaluate_forgets`).
-/

namespace SheetCalc.Formula

/-- An evaluator at work: its fields, the labels that it has asked for (the last one first), and the
memory. -/
structure Bench (σ : Type) where
  evaluator : Evaluator
  asked : List Text := []
  memory : σ

/-- A procedure of an evaluator, which may raise an ending. -/
abbrev Work (σ α : Type) := ExceptT Ending (StateM (Bench σ)) α

namespace Bench

variable {σ : Type}

def setError (error : Text) (b : Bench σ) : Bench σ :=
  { b with evaluator := { b.evaluator with error } }

def setResult (result : Result) (b : Bench σ) : Bench σ :=
  { b with evaluator := { b.evaluator with result } }

/-- Applies what waits. A division that fails stores the infinite result before it raises this. -/
def apply (p : Pending) (values : List Float) : Work σ (List Float) :=
  match p.apply values with
  | .ok values => pure values
  | .error f => do
    if f = .divisionByZero then modify (setResult .infinite)
    throw (.failed f)

/-- Applies what waits, from the top down to the first of which `stop` holds. -/
def reduce (stop : Pending → Bool) (values : List Float) : List Pending → Work σ Stacks
  | [] => pure ⟨values, []⟩
  | p :: ps =>
    if stop p then pure ⟨values, p :: ps⟩
    else do
      let values ← apply p values
      reduce stop values ps

/-- Asks for the operand that a label stands for. -/
def fetch (r : Resolver σ) (label : Text) : Work σ Float := do
  let b ← get
  let (found, memory) := r.find label b.memory
  set { b with asked := label :: b.asked, memory }
  match found with
  | .error refusal => throw (.refused refusal)
  | .ok cell =>
    match cell.operand label with
    | .ok x => pure x
    | .error ending => throw ending

/-- Takes in one token, given the one that follows. It returns the stacks to go on with, or the
result to return at once. -/
def takeIn (r : Resolver σ) (token : Text) (next? : Option Text) (s : Stacks) :
    Work σ (Stacks ⊕ Result) :=
  match Token.classify r.isLabel token with
  | .number x =>
    if next? = some openSign then do
      modify (setError invalidFormula)
      return .inr (.number x)
    else return .inl (s.pushValue x)
  | .reference => do
    let x ← fetch r token
    return .inl (s.pushValue x)
  | .openParen => return .inl s.openParen
  | .closeParen => do
    let s ← reduce (· == .paren) s.values s.pending
    return .inl { s with pending := s.pending.tail }
  | .operator o =>
    if next?.any Token.isOperator then do
      modify (setError invalidFormula)
      return .inr (.top s.values)
    else do
      let s ← reduce (·.precedence < o.precedence) s.values s.pending
      return .inl { s with pending := .op o :: s.pending }
  | .unknown => return .inl s

/-- Takes in the tokens one after the other, until one of them makes it return. -/
def takeAll (r : Resolver σ) : List Text → Stacks → Work σ (Stacks ⊕ Result)
  | [], s => return .inl s
  | t :: ts, s => do
    match ← takeIn r t ts.head? s with
    | .inl s => takeAll r ts s
    | .inr result => return .inr result

/-- The result of the stacks when all tokens are taken in. -/
def finish (s : Stacks) : Work σ Result :=
  match s.pending with
  | [] => return .top s.values
  | p :: _ =>
    if p == .paren || s.values.length < 2 then throw (.failed .unbalanced)
    else do
      let s ← reduce (fun _ => false) s.values s.pending
      return .top s.values

/-- The result of the tokens of a formula. -/
def expression (r : Resolver σ) (tokens : List Text) : Work σ Result := do
  match ← takeAll r tokens {} with
  | .inr result => return result
  | .inl s =>
    if endsInOperator tokens then do
      modify (setError invalidFormula)
      return .top s.values
    else finish s

/-- Catches what is raised. A failure replaces the error, and whatever else is caught leaves one
that is there. -/
def handle : Ending → ExceptT String (StateM (Bench σ)) Unit
  | .failed f | .refused (.failure f) => modify (setError f.code)
  | .refused (.fatal reason) => throw reason
  | _ => do
    if (← get).evaluator.error = {} then modify (setError invalidFormula)

/-- Stores the result of the tokens of a formula, or catches what is raised. -/
def attempt (r : Resolver σ) (tokens : List Text) : ExceptT String (StateM (Bench σ)) Unit := do
  match ← (expression r tokens).run with
  | .ok result => modify (setResult result)
  | .error ending => handle ending

/-- Evaluates a formula, and leaves the outcome in the fields. -/
def evaluate (r : Resolver σ) (tokens : List Text) : ExceptT String (StateM (Bench σ)) Unit := do
  modify (setError {})
  if tokens = [] then modify (setError emptyFormula)
  else if tokens = [openSign, closeSign] then modify (setError missingParentheses)
  else do
    if endsInOperator tokens then modify (setError invalidFormula)
    match ← (expression r tokens).run with
    | .ok result => modify (setResult result)
    | .error ending => handle ending

/-! ## What the procedure leaves -/

/-- How far a pass has come, with the fields of a bench. -/
def after (b : Bench σ) (p : Progress σ) : Bench σ :=
  { b with asked := p.asked, memory := p.memory }

/-- What has been written into the fields when an ending is reached. -/
def mark (b : Bench σ) : Ending → Bench σ
  | .flawed _ => b.setError invalidFormula
  | .failed .divisionByZero => b.setResult .infinite
  | _ => b

end Bench

/-- What an ending is for a procedure: the result that it returns, or what it raises. -/
def Ending.outcome : Ending → Except Ending Result
  | .value result | .flawed result => .ok result
  | ending => .error ending

namespace Bench

variable {σ : Type}

/-- What a pass leaves. -/
def reached (b : Bench σ) : Progress σ × Option Ending → Except Ending (Stacks ⊕ Result) × Bench σ
  | (p, none) => (.ok (.inl p.held), b.after p)
  | (p, some ending) => (ending.outcome.map .inr, (b.after p).mark ending)

theorem run_apply (p : Pending) (values : List Float) (b : Bench σ) :
    (apply p values).run b =
      match p.apply values with
      | .ok values => (.ok values, b)
      | .error f => (.error (.failed f), b.mark (.failed f)) := by
  unfold apply
  cases p.apply values with
  | ok values => rfl
  | error f => cases f <;> rfl

theorem run_reduce (stop : Pending → Bool) (values : List Float) (ps : List Pending) (b : Bench σ) :
    (reduce stop values ps).run b =
      match Stacks.reduce stop values ps with
      | .ok s => (.ok s, b)
      | .error f => (.error (.failed f), b.mark (.failed f)) := by
  induction ps generalizing values with
  | nil => rfl
  | cons p ps ih =>
      unfold reduce Stacks.reduce
      cases stop p with
      | true => rfl
      | false =>
          simp only [Bool.false_eq_true, if_false]
          rw [Procedure.run_bind, run_apply]
          cases p.apply values with
          | ok values => exact ih values
          | error f => rfl

/-- What reducing leaves when its result is put among the stacks. -/
theorem run_reduce_then (stop : Pending → Bool) (change : Stacks → Stacks) (p : Progress σ)
    (b : Bench σ) :
    (do
      let s ← reduce stop p.held.values p.held.pending
      return .inl (change s) : Work σ (Stacks ⊕ Result)).run (b.after p) =
      b.reached (p.proceed ((Stacks.reduce stop p.held.values p.held.pending).map change)) := by
  rw [Procedure.run_bind, run_reduce]
  cases Stacks.reduce stop p.held.values p.held.pending with
  | ok s => rfl
  | error f => rfl

theorem run_fetch (r : Resolver σ) (label : Text) (p : Progress σ) (b : Bench σ) :
    (fetch r label).run (b.after p) =
      let (operand, memory) := r.lookUp label p.memory
      (operand, b.after { p with asked := label :: p.asked, memory }) := by
  have stepped : (fetch r label).run (b.after p) =
      (match (r.find label p.memory).1 with
        | .error refusal => throw (.refused refusal)
        | .ok cell =>
          match cell.operand label with
          | .ok x => pure x
          | .error ending => throw ending : Work σ Float).run
        { b with asked := label :: p.asked, memory := (r.find label p.memory).2 } := rfl
  rw [stepped]
  unfold Resolver.lookUp
  rcases r.find label p.memory with ⟨refusal | cell, memory⟩
  · rfl
  · simp only
    cases cell.operand label <;> rfl

/-- What a reference leaves when its operand is put among the stacks. -/
theorem run_fetch_then (r : Resolver σ) (label : Text) (p : Progress σ) (b : Bench σ) :
    (do
      let x ← fetch r label
      return .inl (p.held.pushValue x) : Work σ (Stacks ⊕ Result)).run (b.after p) =
      b.reached (refer r label p) := by
  have led := r.lookUp_eq label p.memory
  rw [Procedure.run_bind, run_fetch, refer_eq]
  rcases looked : r.lookUp label p.memory with ⟨ending | x, memory⟩
  · rw [looked] at led
    -- What a look-up leads to is raised as it is, and has written nothing.
    rcases Answer.operand_error led.symm with ⟨_, _, rfl⟩ | ⟨_, _, _, _, rfl⟩
      | ⟨_, rfl | rfl⟩ <;> rfl
  · rfl

theorem run_takeIn (r : Resolver σ) (t : Text) (next? : Option Text) (p : Progress σ)
    (b : Bench σ) : (takeIn r t next? p.held).run (b.after p) = b.reached (step r t next? p) := by
  unfold takeIn step
  cases Token.classify r.isLabel t with
  | number x =>
      simp only
      split <;> rfl
  | reference => exact run_fetch_then r t p b
  | openParen => rfl
  | closeParen => exact run_reduce_then _ _ p b
  | operator o =>
      simp only
      split
      · rfl
      · exact run_reduce_then _ _ p b
  | unknown => rfl

theorem run_takeAll (r : Resolver σ) (ts : List Text) (p : Progress σ) (b : Bench σ) :
    (takeAll r ts p.held).run (b.after p) = b.reached (scan r ts p) := by
  induction ts generalizing p with
  | nil => rfl
  | cons t ts ih =>
      unfold takeAll scan
      rw [Procedure.run_bind, run_takeIn]
      rcases step r t ts.head? p with ⟨p', _ | ending⟩
      · exact ih p'
      · cases ending <;> rfl

theorem run_finish (s : Stacks) (b : Bench σ) :
    (finish s).run b = ((close false s).outcome, b.mark (close false s)) := by
  unfold finish close Stacks.finish
  simp only [Bool.false_eq_true, if_false]
  cases s.pending with
  | nil => rfl
  | cons p ps =>
      simp only
      split
      · rfl
      · rw [Procedure.run_bind, run_reduce]
        cases Stacks.reduce (fun _ => false) s.values (p :: ps) with
        | ok after => rfl
        | error f => rfl

/-- The tokens of a formula that is not degenerate come to the ending of their evaluation, and leave
in the fields what it has written. -/
theorem run_expression (r : Resolver σ) {tokens : List Text} (ev : Evaluator) (memory : σ)
    (some_token : tokens ≠ []) (no_pair : tokens ≠ [openSign, closeSign]) :
    (expression r tokens).run { evaluator := ev, memory } =
      let (ending, asked, after) := run r tokens memory
      (ending.outcome, mark ⟨ev, asked.reverse, after⟩ ending) := by
  have pass := run_takeAll r tokens { memory } { evaluator := ev, memory }
  unfold expression
  rw [run_eq_scan r memory some_token no_pair, Procedure.run_bind]
  rw [show ({ evaluator := ev, memory } : Bench σ).after { memory } = { evaluator := ev, memory }
    from rfl] at pass
  rw [show ({ memory } : Progress σ).held = {} from rfl] at pass
  rw [pass]
  rcases scan r tokens { memory } with ⟨p, _ | ending⟩
  · simp only [reached, List.reverse_reverse]
    cases endsInOperator tokens with
    | true => rfl
    | false => exact run_finish p.held _
  · simp only [List.reverse_reverse]
    cases ending <;> rfl

theorem run_attempt (r : Resolver σ) (tokens : List Text) (b : Bench σ) :
    (attempt r tokens).run b =
      match (expression r tokens).run b with
      | (.ok result, b) => (.ok (), b.setResult result)
      | (.error ending, b) => (handle ending).run b := by
  have lifted : (liftM (expression r tokens).run : ExceptT String (StateM (Bench σ)) _).run b =
      (.ok ((expression r tokens).run b).1, ((expression r tokens).run b).2) := rfl
  unfold attempt
  rw [Procedure.run_bind_ok lifted]
  rcases (expression r tokens).run b with ⟨ending | result, after⟩ <;> rfl

/-- The evaluation of a formula that is not degenerate finds something to evaluate, and comes to no
value where it ends in an operator. -/
theorem run_not_degenerate (r : Resolver σ) {tokens : List Text} (memory : σ)
    (some_token : tokens ≠ []) (no_pair : tokens ≠ [openSign, closeSign]) :
    (∀ error, (run r tokens memory).1 ≠ .vacant error) ∧
      ∀ result, (run r tokens memory).1 = .value result → endsInOperator tokens = false := by
  refine ⟨?_, ?_⟩
  · intro error vacant
    rcases run_cases r tokens memory with ⟨⟨result, value⟩, _⟩ | cause
    · rw [value] at vacant
      cases vacant
    · rw [vacant] at cause
      generalize (run r tokens memory).2.1 = asked at cause
      cases cause with
      | itself _ own =>
          cases own with
          | empty no_token => exact some_token no_token
          | pair pair => exact no_pair pair
      | answer _ led =>
          rcases Answer.operand_error led with ⟨_, _, same⟩ | ⟨_, _, _, _, same⟩
            | ⟨_, same | same⟩ <;>
            cases same
  · intro result value
    obtain ⟨_, _, p, _, ran⟩ := through_of_value value
    rw [ran] at value
    cases last : endsInOperator tokens with
    | false => rfl
    | true =>
        rw [last] at value
        cases value

/-- **The fields that an evaluation leaves are what its ending says of them.** -/
theorem run_evaluate (r : Resolver σ) (tokens : List Text) (ev : Evaluator) (memory : σ) :
    (evaluate r tokens).run { evaluator := ev, memory } =
      let report := ev.evaluate r tokens memory
      (match report.fatal with
        | none => .ok ()
        | some reason => .error reason,
        ⟨report.evaluator, report.asked.reverse, report.memory⟩) := by
  by_cases no_token : tokens = []
  · subst no_token
    rfl
  by_cases pair : tokens = [openSign, closeSign]
  · subst pair
    rfl
  -- The pass begins with the error that is set before it.
  generalize flag : (if endsInOperator tokens then invalidFormula else {}) = flagged
  have ran := run_expression r { ev with error := flagged } memory no_token pair
  obtain ⟨not_vacant, not_trailing⟩ := run_not_degenerate r memory no_token pair
  have begun : (evaluate r tokens).run { evaluator := ev, memory } =
      (attempt r tokens).run { evaluator := { ev with error := flagged }, memory } := by
    rw [← flag]
    unfold evaluate
    simp only [if_neg no_token, if_neg pair]
    cases endsInOperator tokens <;> rfl
  rw [begun, run_attempt, ran]
  unfold Evaluator.evaluate
  generalize run r tokens memory = outcome at not_vacant not_trailing ⊢
  obtain ⟨ending, asked, after⟩ := outcome
  cases ending with
  | value result =>
      rw [not_trailing result rfl] at flag ⊢
      subst flag
      rfl
  | flawed result => rfl
  | vacant error => exact absurd rfl (not_vacant error)
  | failed f => cases f <;> rfl
  | refused refusal =>
      cases refusal with
      | failure f => rfl
      | fatal reason =>
          subst flag
          rfl
      | unusable =>
          subst flag
          cases endsInOperator tokens <;> rfl

end Bench

/-! ## What an evaluation forgets -/

section

variable {σ : Type} {r : Resolver σ} {tokens : List Text} {memory : σ}

/-- The expression of a formula raises something, and no division that has failed in it. -/
def Aborts (r : Resolver σ) (tokens : List Text) (memory : σ) : Prop :=
  ∃ ending, ((Bench.expression r tokens).run { evaluator := {}, memory }).1 = .error ending ∧
    ending ≠ .failed .divisionByZero

/-- What is raised leaves no result, except for a division that has failed. -/
theorem result?_eq_none_iff (ending : Ending) (something : ∀ error, ending ≠ .vacant error) :
    ending.result? = none ↔
      ∃ raised, ending.outcome = .error raised ∧ raised ≠ .failed .divisionByZero := by
  cases ending with
  | value result => exact ⟨nofun, nofun⟩
  | flawed result => exact ⟨nofun, nofun⟩
  | vacant error => exact absurd rfl (something error)
  | refused refusal => exact ⟨fun _ => ⟨_, rfl, nofun⟩, fun _ => rfl⟩
  | failed f =>
      cases f with
      | divisionByZero =>
          refine ⟨nofun, ?_⟩
          rintro ⟨raised, same, other⟩
          cases same
          exact absurd rfl other
      | _ => exact ⟨fun _ => ⟨_, rfl, nofun⟩, fun _ => rfl⟩

theorem no_result_iff :
    (run r tokens memory).1.result? = none ↔
      tokens = [] ∨ tokens = [openSign, closeSign] ∨ Aborts r tokens memory := by
  by_cases no_token : tokens = []
  · subst no_token
    exact ⟨fun _ => .inl rfl, fun _ => rfl⟩
  by_cases pair : tokens = [openSign, closeSign]
  · subst pair
    exact ⟨fun _ => .inr (.inl rfl), fun _ => rfl⟩
  have something := (Bench.run_not_degenerate r memory no_token pair).1
  have raised : Aborts r tokens memory ↔ ∃ ending,
      (run r tokens memory).1.outcome = .error ending ∧ ending ≠ .failed .divisionByZero := by
    unfold Aborts
    rw [Bench.run_expression r {} memory no_token pair]
  rw [result?_eq_none_iff _ something, ← raised]
  simp [no_token, pair]

/-- **An evaluation does not depend on those before it.** It goes field by field as its report says.
The error, what is asked for and what becomes of the memory have nothing to do with the fields. The
result is kept whatever it was, or replaced whatever it was. It is kept exactly where there is
nothing to evaluate or something is raised that is no division of its own, so it is replaced where
there is no error. -/
theorem evaluate_forgets (r : Resolver σ) (tokens : List Text) (memory : σ) :
    let report (ev : Evaluator) := ev.evaluate r tokens memory
    (∀ ev, (Bench.evaluate r tokens).run { evaluator := ev, memory } =
      (match (report ev).fatal with
        | none => .ok ()
        | some reason => .error reason,
        ⟨(report ev).evaluator, (report ev).asked.reverse, (report ev).memory⟩)) ∧
    (∀ ev ev', (report ev).evaluator.error = (report ev').evaluator.error ∧
      (report ev).asked = (report ev').asked ∧ (report ev).fatal = (report ev').fatal ∧
      (report ev).memory = (report ev').memory) ∧
    ((∀ ev, (report ev).evaluator.result = ev.result) ∨
      ∃ result, ∀ ev, (report ev).evaluator.result = result) ∧
    ((∀ ev, (report ev).evaluator.result = ev.result) ↔
      tokens = [] ∨ tokens = [openSign, closeSign] ∨ Aborts r tokens memory) ∧
    (r.Clean tokens memory → ∃ result, ∀ ev, (report ev).evaluator.result = result) := by
  intro report
  have result_eq (ev : Evaluator) : (report ev).evaluator.result =
      (run r tokens memory).1.result?.getD ev.result := rfl
  refine ⟨fun ev => Bench.run_evaluate r tokens ev memory, fun _ _ => ⟨rfl, rfl, rfl, rfl⟩,
    ?_, ?_, ?_⟩
  · cases left : (run r tokens memory).1.result? with
    | none =>
        refine .inl fun ev => ?_
        rw [result_eq, left]
        rfl
    | some result =>
        refine .inr ⟨result, fun ev => ?_⟩
        rw [result_eq, left]
        rfl
  · rw [← no_result_iff]
    constructor
    · intro kept
      cases left : (run r tokens memory).1.result? with
      | none => rfl
      | some result =>
          -- No result is that of all evaluators.
          have blank := kept { result := .blank }
          have infinite := kept { result := .infinite }
          rw [result_eq, left] at blank infinite
          have same : Result.blank = .infinite := blank.symm.trans infinite
          cases same
    · intro none_left ev
      rw [result_eq, none_left]
      rfl
  · intro clean
    obtain ⟨result, value⟩ := clean.value
    refine ⟨result, fun ev => ?_⟩
    rw [result_eq, value]
    rfl

/-- `A1 + 7` has the same result for all evaluators, and `B1`, which has no formula, leaves every
evaluator its own. -/
theorem evaluate_forgets_shift :
    let r := Resolver.table Label.isLabel [("A1", { hasFormula := true })] (.ok {})
    (∃ result, ∀ ev : Evaluator, (ev.evaluate r ["A1", "+", "7"] ()).evaluator.result = result) ∧
      ∀ ev : Evaluator, (ev.evaluate r ["B1"] ()).evaluator.result = ev.result := by
  intro r
  have clean : r.Clean ["A1", "+", "7"] () := (reports_table Label.isLabel _ {}).clean (by rfl)
  have aborts : Aborts r ["B1"] () := ⟨.failed (.badReference "B1" invalidCell), by rfl, nofun⟩
  obtain ⟨_, _, _, _, replaced⟩ := evaluate_forgets r ["A1", "+", "7"] ()
  obtain ⟨_, _, _, kept, _⟩ := evaluate_forgets r ["B1"] ()
  exact ⟨replaced clean, kept.mpr (.inr (.inr aborts))⟩

/-- Where a look-up fails without a code or breaks off, an evaluation leaves no error, and what it
leaves as the result is the one that was there before. -/
theorem kept_without_error :
    let left (refusal : Refusal) (before : Result) :=
      (Evaluator.evaluate { result := before }
        (Resolver.table Label.isLabel [] (.error refusal)) ["A1"] ()).evaluator
    let silent : Refusal := .failure (.other {} none)
    let broken : Refusal := .fatal "RuntimeError"
    ((left silent .blank).error = {} ∧ (left silent .infinite).error = {} ∧
        (left silent .blank).result ≠ (left silent .infinite).result) ∧
      (left broken .blank).error = {} ∧ (left broken .infinite).error = {} ∧
        (left broken .blank).result ≠ (left broken .infinite).result := by
  intro left silent broken
  have apart : Result.blank ≠ .infinite := nofun
  exact ⟨⟨by rfl, by rfl, apart⟩, by rfl, by rfl, apart⟩

end

end SheetCalc.Formula
