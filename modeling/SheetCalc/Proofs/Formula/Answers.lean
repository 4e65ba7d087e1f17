import SheetCalc.Proofs.Formula.Footprint

/-!
# What the resolver answers

An evaluation asks its resolver for one label after the other. Each `Answer` leads to an operand, or
else ends the evaluation. So an evaluation that does not end with a value has a `Cause`
(`run_cases`): it has come to its ending by itself, and every answer has led to an operand; or the
last answer has led to none.

Which endings an evaluation comes to by itself is said by `Ending.Own`, and which an answer leads to
by `Answer.operand_error`. What is proved of every ending without a value is proved of these two
kinds.
-/

namespace SheetCalc.Formula

/-! ## Endings that an evaluation comes to by itself -/

/-- A failure of the formula, and of nothing that it refers to. -/
inductive Failure.Own : Failure → Prop
  | malformed (detail : Option Text) : Own (.malformed detail)
  | badOperator (token : Text) : Own (.badOperator token)
  | divisionByZero : Own .divisionByZero

/-- An ending without a value that the evaluation of a formula comes to by itself. -/
inductive Ending.Own (tokens : List Text) : Ending → Prop
  | flawed (result : Result) : Own tokens (.flawed result)
  | empty : tokens = [] → Own tokens (.vacant emptyFormula)
  | pair : tokens = [openSign, closeSign] → Own tokens (.vacant missingParentheses)
  | failed {f : Failure} : f.Own → Own tokens (.failed f)

theorem Pending.own_of_apply {p : Pending} {values : List Float} {f : Failure}
    (h : p.apply values = .error f) : f.Own := by
  cases p with
  | paren =>
      rw [Pending.apply_paren] at h
      cases h
      exact .badOperator openSign
  | op o =>
      by_cases short : values.length < 2
      · rw [Pending.apply_op_short o short] at h
        cases h
        exact .malformed _
      · rcases values with _ | ⟨right, _ | ⟨left, rest⟩⟩
        · exact absurd Nat.two_pos short
        · exact absurd Nat.one_lt_two short
        · rw [Pending.apply_op] at h
          cases o with
          | div =>
              simp only [Operator.apply] at h
              split at h
              · cases h
                exact .divisionByZero
              · cases h
          | _ => cases h

theorem Stacks.own_of_reduce {stop : Pending → Bool} {values : List Float} {ps : List Pending}
    {f : Failure} (failed : reduce stop values ps = .error f) : f.Own := by
  induction ps generalizing values with
  | nil => cases failed
  | cons p ps ih =>
      unfold reduce at failed
      split at failed
      · cases failed
      · split at failed
        · exact ih failed
        · next applied =>
            cases failed
            exact Pending.own_of_apply applied

theorem Stacks.own_of_finish {s : Stacks} {f : Failure} (failed : s.finish = .error f) :
    f.Own := by
  unfold Stacks.finish at failed
  split at failed
  · cases failed
  · split at failed
    · cases failed
      exact .malformed _
    · cases reduced : reduce (fun _ => false) s.values s.pending with
      | ok after =>
          rw [reduced] at failed
          cases failed
      | error g =>
          rw [reduced] at failed
          cases failed
          exact own_of_reduce reduced

/-! ## Answers -/

/-- What is said of a label that has been asked for. -/
structure Answer where
  label : Text
  found : Except Refusal CellView

namespace Answer

/-- The operand that an answer leads to, or the ending. -/
def operand (a : Answer) : Except Ending Float :=
  match a.found with
  | .ok cell => cell.operand a.label
  | .error refusal => .error (.refused refusal)

/-- An answer that leads to an operand, so that the evaluation goes on. -/
def Usable (a : Answer) : Prop :=
  ∃ x, a.operand = .ok x

end Answer

/-- The cell that a reference leads to has an error or no formula, or its value is no number. -/
theorem CellView.operand_error {label : Text} {cell : CellView} {ending : Ending}
    (h : cell.operand label = .error ending) :
    (ending = .failed (.badReference label cell.error) ∧ cell.error ≠ {} ∧
      cell.error ≠ emptyFormula) ∨
    ending = .failed (.badReference label invalidCell) ∨
    ending = .refused .unusable := by
  unfold CellView.operand at h
  split at h
  · next held =>
      cases h
      simp only [Bool.and_eq_true, Bool.not_eq_true', bne_iff_ne] at held
      refine .inl ⟨rfl, ?_, held.2⟩
      intro none_held
      rw [none_held] at held
      cases held.1
  · split at h
    · split at h
      · cases h
      · cases h
        exact .inr (.inr rfl)
    · cases h
      exact .inr (.inl rfl)

/-- The endings that an answer leads to: it is a refusal, or its cell holds an error, has no formula
or a value that is no number. -/
theorem Answer.operand_error {a : Answer} {ending : Ending} (h : a.operand = .error ending) :
    (∃ refusal, a.found = .error refusal ∧ ending = .refused refusal) ∨
    (∃ cell, a.found = .ok cell ∧ cell.error ≠ {} ∧ cell.error ≠ emptyFormula ∧
      ending = .failed (.badReference a.label cell.error)) ∨
    ((∃ cell, a.found = .ok cell) ∧
      (ending = .failed (.badReference a.label invalidCell) ∨ ending = .refused .unusable)) := by
  obtain ⟨label, refusal | cell⟩ := a
  · cases h
    exact .inl ⟨refusal, rfl, rfl⟩
  · rcases CellView.operand_error h with ⟨rfl, some_error, no_empty⟩ | others
    · exact .inr (.inl ⟨cell, rfl, some_error, no_empty, rfl⟩)
    · exact .inr (.inr ⟨⟨cell, rfl⟩, others⟩)

theorem Answer.Usable.found {a : Answer} (usable : a.Usable) : ∃ cell, a.found = .ok cell := by
  obtain ⟨x, led⟩ := usable
  obtain ⟨label, refusal | cell⟩ := a
  · cases led
  · exact ⟨cell, rfl⟩

section

variable {σ : Type}

/-- What a resolver says of a label. -/
def Resolver.answer (r : Resolver σ) (label : Text) (memory : σ) : Answer :=
  ⟨label, (r.find label memory).1⟩

/-- What a resolver says of labels when it is asked for one after the other. -/
def Resolver.answers (r : Resolver σ) : List Text → σ → List Answer
  | [], _ => []
  | label :: labels, memory => r.answer label memory :: r.answers labels (r.find label memory).2

theorem Resolver.answers_concat (r : Resolver σ) (labels : List Text) (label : Text) (memory : σ) :
    r.answers (labels ++ [label]) memory =
      r.answers labels memory ++ [r.answer label (r.askAll labels memory)] := by
  induction labels generalizing memory with
  | nil => rfl
  | cons first labels ih =>
      rw [List.cons_append, answers, ih]
      rfl

theorem Resolver.lookUp_eq (r : Resolver σ) (label : Text) (memory : σ) :
    (r.lookUp label memory).1 = (r.answer label memory).operand := by
  unfold lookUp answer Answer.operand
  rcases r.find label memory with ⟨refusal | cell, memory⟩ <;> rfl

/-! ## Why an evaluation ends -/

/-- Every answer to some labels leads to an operand. -/
def Resolver.AllUsable (r : Resolver σ) (labels : List Text) (memory : σ) : Prop :=
  ∀ a ∈ r.answers labels memory, a.Usable

/-- Why the evaluation of a formula has ended without a value, having asked for some labels. -/
inductive Cause (r : Resolver σ) (tokens : List Text) (memory : σ) : List Text → Ending → Prop
  /-- It has come to its ending by itself. -/
  | itself {asked ending} : r.AllUsable asked memory → ending.Own tokens →
      Cause r tokens memory asked ending
  /-- The last answer leads to no operand. -/
  | answer {before label ending} : r.AllUsable before memory →
      (r.answer label (r.askAll before memory)).operand = .error ending →
      Cause r tokens memory (before ++ [label]) ending

/-- An evaluation that goes on has got an operand for every label that it has asked for. -/
structure GoesOn (r : Resolver σ) (memory : σ) (p : Progress σ) : Prop where
  traced : Traced r memory p
  usable : r.AllUsable p.asked.reverse memory

theorem Resolver.AllUsable.concat {r : Resolver σ} {labels : List Text} {label : Text} {memory : σ}
    (before : r.AllUsable labels memory)
    (last : (r.answer label (r.askAll labels memory)).Usable) :
    r.AllUsable (labels ++ [label]) memory := by
  intro a there
  rw [r.answers_concat] at there
  rcases List.mem_append.mp there with there | there
  · exact before a there
  · rw [List.mem_singleton.mp there]
    exact last

/-- What a step leads to: the pass goes on, or there is a cause for its end. -/
def Accounts (r : Resolver σ) (tokens : List Text) (memory : σ) : Progress σ × Option Ending → Prop
  | (p, none) => GoesOn r memory p
  | (p, some ending) => Cause r tokens memory p.asked.reverse ending

section

variable {r : Resolver σ} {tokens : List Text} {memory : σ} {p : Progress σ}

theorem allUsable_nil : r.AllUsable [] memory := by
  intro a there
  cases there

theorem GoesOn.start : GoesOn r memory { memory } :=
  ⟨rfl, allUsable_nil⟩

theorem GoesOn.refer (on : GoesOn r memory p) (label : Text) :
    Accounts r tokens memory (refer r label p) := by
  have led := r.lookUp_eq label p.memory
  have traced := traced_refer label on.traced
  rw [refer_eq] at traced ⊢
  -- The label is asked for in the memory that all the earlier asking has left.
  have asked : (r.lookUp label p.memory).1 =
      (r.answer label (r.askAll p.asked.reverse memory)).operand := by
    rw [← on.traced, led]
  generalize r.lookUp label p.memory = found at traced asked
  obtain ⟨ending | x, after⟩ := found
  · show Cause r tokens memory (label :: p.asked).reverse ending
    rw [List.reverse_cons]
    exact .answer on.usable asked.symm
  · refine ⟨traced, ?_⟩
    show r.AllUsable (label :: p.asked).reverse memory
    rw [List.reverse_cons]
    exact on.usable.concat ⟨x, asked.symm⟩

theorem GoesOn.proceed (on : GoesOn r memory p) {after : Except Failure Stacks}
    (own : ∀ f, after = .error f → f.Own) : Accounts r tokens memory (p.proceed after) := by
  cases after with
  | ok held => exact ⟨on.traced, on.usable⟩
  | error f => exact .itself on.usable (.failed (own f rfl))

theorem own_of_map {after : Except Failure Stacks} {change : Stacks → Stacks}
    (own : ∀ f, after = .error f → f.Own) : ∀ f, after.map change = .error f → f.Own := by
  intro f failed
  cases after with
  | ok held => cases failed
  | error g =>
      cases failed
      exact own _ rfl

theorem GoesOn.step (on : GoesOn r memory p) (t : Text) (next? : Option Text) :
    Accounts r tokens memory (step r t next? p) := by
  unfold Formula.step
  cases Token.classify r.isLabel t with
  | number x =>
      simp only
      split
      · exact .itself on.usable (.flawed _)
      · exact ⟨on.traced, on.usable⟩
  | reference => exact on.refer t
  | openParen => exact ⟨on.traced, on.usable⟩
  | closeParen => exact on.proceed (own_of_map fun _ failed => Stacks.own_of_reduce failed)
  | operator o =>
      simp only
      split
      · exact .itself on.usable (.flawed _)
      · exact on.proceed (own_of_map fun _ failed => Stacks.own_of_reduce failed)
  | unknown => exact on

theorem GoesOn.scan (on : GoesOn r memory p) (ts : List Text) :
    Accounts r tokens memory (scan r ts p) := by
  induction ts generalizing p with
  | nil => exact on
  | cons t ts ih =>
      have first : Accounts r tokens memory (Formula.step r t ts.head? p) := on.step t ts.head?
      unfold Formula.scan
      rcases hs : Formula.step r t ts.head? p with ⟨p', _ | ending⟩
      · rw [hs] at first
        exact ih first
      · rw [hs] at first
        exact first

end

/-- **An evaluation ends with a value or for a cause.** With a value, every answer has led to an
operand. -/
theorem run_cases (r : Resolver σ) (tokens : List Text) (memory : σ) :
    ((∃ result, (run r tokens memory).1 = .value result) ∧
      r.AllUsable (run r tokens memory).2.1 memory) ∨
    Cause r tokens memory (run r tokens memory).2.1 (run r tokens memory).1 := by
  unfold run
  split
  · next no_token => exact .inr (.itself allUsable_nil (.empty no_token))
  · split
    · next pair => exact .inr (.itself allUsable_nil (.pair pair))
    · have pass : Accounts r tokens memory (scan r tokens { memory }) := GoesOn.start.scan tokens
      rcases through : scan r tokens { memory } with ⟨p, _ | ending⟩
      · rw [through] at pass
        simp only [close]
        split
        · exact .inr (.itself pass.usable (.flawed _))
        · cases finished : p.held.finish with
          | ok values => exact .inl ⟨⟨.top values, rfl⟩, pass.usable⟩
          | error f => exact .inr (.itself pass.usable (.failed (Stacks.own_of_finish finished)))
      · rw [through] at pass
        exact .inr pass

end

end SheetCalc.Formula
