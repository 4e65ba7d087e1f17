import SheetCalc.Proofs.Formula.Answers

/-!
# Endings

How evaluations end. Unless the resolver breaks off for a reason that no evaluation deals with, or
passes on a failure that has no code (`Resolver.Reports`), every ending but that with a value has an
error (`run_reported`); and an evaluation that ends with a value has carried out its whole plan
(`passed_of_value`, `plan_of_finish`).
-/

namespace SheetCalc.Formula

/-! ## Endings with an error -/

/-- An ending that leaves an error and breaks nothing off. -/
def Ending.Reported (ending : Ending) : Prop :=
  (∀ trailing, ending.error trailing ≠ {}) ∧ ending.fatal? = none

/-- The errors that an evaluation has for a formula. -/
def catalog : List Text :=
  [emptyFormula, missingParentheses, invalidFormula, divideByZero, invalidOperator, invalidCell]

theorem codes_ne_empty : ∀ code ∈ catalog, code ≠ {} := by
  decide

theorem invalidFormula_ne_empty : invalidFormula ≠ {} :=
  codes_ne_empty invalidFormula (by decide)

theorem reported_flawed (result : Result) : (Ending.flawed result).Reported :=
  ⟨fun _ => invalidFormula_ne_empty, rfl⟩

theorem reported_failed {f : Failure} (coded : f.code ≠ {}) : (Ending.failed f).Reported :=
  ⟨fun _ => coded, rfl⟩

theorem Failure.Own.coded {f : Failure} (own : f.Own) : f.code ≠ {} := by
  cases own with
  | malformed detail => exact invalidFormula_ne_empty
  | badOperator token => exact codes_ne_empty invalidOperator (by decide)
  | divisionByZero => exact codes_ne_empty divideByZero (by decide)

theorem Ending.Own.reported {tokens : List Text} {ending : Ending} (own : ending.Own tokens) :
    ending.Reported := by
  cases own with
  | flawed result => exact reported_flawed result
  | empty _ => exact ⟨fun _ => codes_ne_empty emptyFormula (by decide), rfl⟩
  | pair _ => exact ⟨fun _ => codes_ne_empty missingParentheses (by decide), rfl⟩
  | failed own => exact reported_failed own.coded

section

variable {σ : Type}

/-- The resolver refuses a label only in ways that an evaluation reports: it does not break off for
a reason that no evaluation deals with, and a failure that it passes on has a code. -/
structure Resolver.Reports (r : Resolver σ) : Prop where
  not_fatal : ∀ label memory reason, (r.find label memory).1 ≠ .error (.fatal reason)
  coded : ∀ label memory f, (r.find label memory).1 = .error (.failure f) → f.code ≠ {}

/-- A table leads to a cell, or to what stands for all labels that are not in it. -/
theorem find_table (isLabel : Text → Bool) (cells : Entries Text CellView)
    (absent : Except Refusal CellView) (label : Text) (memory : Unit) :
    (∃ cell, ((Resolver.table isLabel cells absent).find label memory).1 = .ok cell) ∨
      ((Resolver.table isLabel cells absent).find label memory).1 = absent := by
  simp only [Resolver.table]
  cases cells.get? label with
  | some cell => exact .inl ⟨cell, rfl⟩
  | none => exact .inr rfl

/-- A table refuses a label only in the way in which it refuses all of them. -/
theorem absent_of_refused {isLabel : Text → Bool} {cells : Entries Text CellView}
    {absent : Except Refusal CellView} {label : Text} {memory : Unit} {refusal : Refusal}
    (refused : ((Resolver.table isLabel cells absent).find label memory).1 = .error refusal) :
    absent = .error refusal := by
  rcases find_table isLabel cells absent label memory with ⟨cell, found⟩ | same
  · rw [found] at refused
    cases refused
  · rw [← same]
    exact refused

/-- A table in which every label leads to a cell refuses none. -/
theorem reports_table (isLabel : Text → Bool) (cells : Entries Text CellView)
    (absent : CellView) : (Resolver.table isLabel cells (.ok absent)).Reports := by
  constructor
  · intro label memory reason refused
    cases absent_of_refused refused
  · intro label memory f refused
    cases absent_of_refused refused

/-- What ends an evaluation without a value leaves an error. -/
theorem Cause.reported {r : Resolver σ} (reports : r.Reports) {tokens asked : List Text}
    {memory : σ} {ending : Ending} (cause : Cause r tokens memory asked ending) :
    ending.Reported := by
  cases cause with
  | itself _ own => exact own.reported
  | @answer before label _ _ led =>
      rcases Answer.operand_error led with ⟨refusal, refused, rfl⟩ | ⟨cell, _, some_error, _, rfl⟩ |
        ⟨_, rfl | rfl⟩
      · cases refusal with
        | failure f => exact ⟨fun _ => reports.coded label _ f refused, rfl⟩
        | unusable => exact ⟨fun _ => invalidFormula_ne_empty, rfl⟩
        | fatal reason => exact absurd refused (reports.not_fatal label _ reason)
      · exact reported_failed some_error
      · exact reported_failed (codes_ne_empty invalidCell (by decide))
      · exact ⟨fun _ => invalidFormula_ne_empty, rfl⟩

/-! ## The ending with a value -/

theorem Cause.not_value {r : Resolver σ} {tokens asked : List Text} {memory : σ} {ending : Ending}
    (cause : Cause r tokens memory asked ending) (result : Result) : ending ≠ .value result := by
  rintro rfl
  cases cause with
  | itself _ own => cases own
  | answer _ led =>
      rcases Answer.operand_error led with ⟨_, _, same⟩ | ⟨_, _, _, _, same⟩ | ⟨_, same | same⟩ <;>
        cases same

/-- An evaluation with a value gets through its formula. -/
theorem through_of_value {r : Resolver σ} {tokens : List Text} {memory : σ} {result : Result}
    (value : (run r tokens memory).1 = .value result) :
    tokens ≠ [] ∧ tokens ≠ [openSign, closeSign] ∧
      ∃ p, scan r tokens { memory } = (p, none) ∧
        run r tokens memory =
          (close (endsInOperator tokens) p.held, p.asked.reverse, p.memory) := by
  rcases vacant_or_scan r tokens memory with ⟨error, vacant⟩ | ⟨some_token, no_pair⟩
  · rw [vacant] at value
    cases value
  refine ⟨some_token, no_pair, ?_⟩
  have pass : Accounts r tokens memory (scan r tokens { memory }) := GoesOn.start.scan tokens
  rw [run_eq_scan r memory some_token no_pair] at value ⊢
  rcases through : scan r tokens { memory } with ⟨p, _ | ending⟩
  · exact ⟨p, rfl, rfl⟩
  · rw [through] at pass value
    exact absurd value (pass.not_value result)

/-- What is left of the operands at the end is what the application of all that waits leaves. -/
theorem carryOut_of_finish (r : Resolver σ) {d : Desk σ} {ps : List Pending}
    {values : List Float} (finished : Stacks.finish ⟨d.values, ps⟩ = .ok values) :
    carryOut r (ps.map .apply) d = .ok { d with values } := by
  unfold Stacks.finish at finished
  rw [carryOut_map_apply]
  cases ps with
  | nil =>
      cases finished
      rfl
  | cons p ps =>
      simp only at finished
      split at finished
      · cases finished
      · cases reduced : Stacks.reduce (fun _ => false) d.values (p :: ps) with
        | error f =>
            rw [reduced] at finished
            cases finished
        | ok s =>
            rw [reduced] at finished
            cases finished
            rfl

/-- What the pass of an evaluation with a value leaves comes to that value. -/
theorem passed_of_value {r : Resolver σ} {tokens : List Text} {memory after : σ} {result : Result}
    {asked : List Text} (h : run r tokens memory = (.value result, asked, after)) :
    tokens ≠ [] ∧ tokens ≠ [openSign, closeSign] ∧ endsInOperator tokens = false ∧
      ∃ p values, scan r tokens { memory } = (p, none) ∧ p.held.finish = .ok values ∧
        result = .top values ∧ asked = p.asked.reverse ∧ after = p.memory := by
  have value : (run r tokens memory).1 = .value result := by rw [h]
  obtain ⟨some_token, no_pair, p, through, ran⟩ := through_of_value value
  rw [ran] at h
  refine ⟨some_token, no_pair, ?_⟩
  cases last : endsInOperator tokens with
  | true =>
      rw [last] at h
      cases h
  | false =>
      rw [last] at h
      simp only [close, Bool.false_eq_true, if_false] at h
      cases finished : p.held.finish with
      | error f =>
          rw [finished] at h
          cases h
      | ok values =>
          rw [finished] at h
          cases h
          exact ⟨rfl, p, values, through, finished, rfl, rfl, rfl⟩

/-- **A pass that comes to a value has carried out the whole plan**, and has met no two tokens
between which it would end. -/
theorem plan_of_finish {r : Resolver σ} {tokens : List Text} {memory : σ} {p : Progress σ}
    {values : List Float} (through : scan r tokens { memory } = (p, none))
    (finished : p.held.finish = .ok values) :
    Calm r.isLabel tokens ∧
      carryOut r (allActions r.isLabel tokens) (Desk.start memory) =
        .ok { p.desk with values } := by
  have calm := calm_of_scan r through
  refine ⟨calm, ?_⟩
  have pass := scan_eq_carryOut r tokens { memory } calm
  rw [show ({ memory } : Progress σ).desk = Desk.start memory from rfl, through] at pass
  cases done : carryOut r (actions r.isLabel tokens []) (Desk.start memory) with
  | error halt =>
      rw [done] at pass
      cases pass
  | ok d =>
      rw [done] at pass
      cases pass
      rw [allActions, carryOut_append, done]
      exact carryOut_of_finish r finished

/-- Every ending of an evaluation but that with a value leaves an error. -/
theorem run_reported {r : Resolver σ} (reports : r.Reports) (tokens : List Text) (memory : σ) :
    (∃ result, (run r tokens memory).1 = .value result) ∨
      (run r tokens memory).1.Reported := by
  rcases run_cases r tokens memory with ⟨value, _⟩ | cause
  · exact .inl value
  · exact .inr (cause.reported reports)

end

end SheetCalc.Formula
