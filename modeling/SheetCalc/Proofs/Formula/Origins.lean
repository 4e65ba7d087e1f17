import SheetCalc.Proofs.Sheet.Cells

/-!
# Where errors come from

Every error that an evaluation leaves has a `Source`: it is in the catalog of errors, or it is
stored in a cell that has been looked up, or a look-up has failed with it. A look-up may fail with
any code, also with none (`raised_codes_left`). Nothing escapes from an evaluation but what a
look-up breaks off with, and then the result of the evaluator is kept (`evaluate_accounted`). Where
the error says that a division has failed, either the evaluation has divided itself, or the last
look-up has passed the error on (`divided_or_passed_on`).

Both are read off the two causes for which an evaluation ends without a value (`run_cases`).
-/

namespace SheetCalc.Formula

/-- Where an error comes from, given what look-ups have answered. -/
inductive Source (answers : List Answer) (error : Text) : Prop
  | catalog : error ∈ catalog → Source answers error
  /-- A cell that has been looked up holds it. -/
  | stored {a cell} : a ∈ answers → a.found = .ok cell → cell.error ≠ {} →
      cell.error ≠ emptyFormula → error = cell.error → Source answers error
  /-- A look-up has failed with it, by a failure whose code is not in the catalog. -/
  | raised {a f} : a ∈ answers → a.found = .error (.failure f) → f.code ∉ catalog →
      error = f.code → Source answers error

/-- An ending by a failure that has been caught. -/
def Ending.Caught : Ending → Prop
  | .failed _ | .refused (.failure _) | .refused .unusable => True
  | _ => False

section

variable {σ : Type}

/-- The answers that an evaluation gets. -/
def Resolver.heard (r : Resolver σ) (tokens : List Text) (memory : σ) : List Answer :=
  r.answers (run r tokens memory).2.1 memory

/-- What comes out of an evaluation. -/
structure Accounted (r : Resolver σ) (ev : Evaluator) (tokens : List Text) (memory : σ) : Prop where
  /-- It is broken off exactly if an answer breaks off. -/
  escapes : ∀ reason, (ev.evaluate r tokens memory).fatal = some reason ↔
    ∃ a ∈ r.heard tokens memory, a.found = .error (.fatal reason)
  /-- What is broken off keeps the result. -/
  kept : (ev.evaluate r tokens memory).fatal ≠ none →
    (ev.evaluate r tokens memory).evaluator.result = ev.result
  /-- What is not broken off leaves no error, or one that comes from somewhere. -/
  source : (ev.evaluate r tokens memory).fatal = none →
    (ev.evaluate r tokens memory).evaluator.error = {} ∨
      Source (r.heard tokens memory) (ev.evaluate r tokens memory).evaluator.error
  /-- A failure that is caught breaks nothing off and leaves an error, unless a look-up has failed
  with the empty code. -/
  caught : (run r tokens memory).1.Caught → (ev.evaluate r tokens memory).fatal = none ∧
    ((ev.evaluate r tokens memory).evaluator.error ≠ {} ∨
      ∃ a ∈ r.heard tokens memory, ∃ f, a.found = .error (.failure f) ∧ f.code = {})

theorem invalidFormula_mem : invalidFormula ∈ catalog := by
  decide

theorem Ending.Own.error_mem {tokens : List Text} {ending : Ending} (own : ending.Own tokens)
    (trailing : Bool) : ending.error trailing ∈ catalog := by
  cases own with
  | flawed result => exact invalidFormula_mem
  | empty _ => exact (by decide : emptyFormula ∈ catalog)
  | pair _ => exact (by decide : missingParentheses ∈ catalog)
  | failed own =>
      cases own with
      | malformed detail => exact invalidFormula_mem
      | badOperator token => exact (by decide : invalidOperator ∈ catalog)
      | divisionByZero => exact (by decide : divideByZero ∈ catalog)

theorem Ending.Own.not_fatal {tokens : List Text} {ending : Ending} (own : ending.Own tokens) :
    ending.fatal? = none := by
  cases own <;> rfl

theorem Answer.Usable.not_refused {a : Answer} (usable : a.Usable) (refusal : Refusal) :
    a.found ≠ .error refusal := by
  obtain ⟨cell, found⟩ := usable.found
  intro refused
  rw [found] at refused
  cases refused

/-- An answer that leads to no operand breaks off, or leaves an error that comes from somewhere. -/
theorem Answer.source {a : Answer} {ending : Ending} (led : a.operand = .error ending)
    {answers : List Answer} (there : a ∈ answers) :
    (∃ reason, a.found = .error (.fatal reason) ∧ ending.fatal? = some reason) ∨
    ((∀ reason, a.found ≠ .error (.fatal reason)) ∧ ending.fatal? = none ∧
      ∀ trailing, Source answers (ending.error trailing)) := by
  rcases Answer.operand_error led with ⟨refusal, found, rfl⟩ |
    ⟨cell, found, some_error, no_empty, rfl⟩ | ⟨⟨cell, found⟩, rfl | rfl⟩
  · cases refusal with
    | fatal reason => exact .inl ⟨reason, found, rfl⟩
    | failure f =>
        refine .inr ⟨by simp [found], rfl, ?_⟩
        intro trailing
        by_cases known : f.code ∈ catalog
        · exact .catalog known
        · exact .raised there found known rfl
    | unusable => exact .inr ⟨by simp [found], rfl, fun _ => .catalog invalidFormula_mem⟩
  · exact .inr ⟨by simp [found], rfl, fun _ => .stored there found some_error no_empty rfl⟩
  · exact .inr ⟨by simp [found], rfl,
      fun _ => .catalog (by decide : invalidCell ∈ catalog)⟩
  · exact .inr ⟨by simp [found], rfl, fun _ => .catalog invalidFormula_mem⟩

variable {r : Resolver σ} {tokens asked : List Text} {memory : σ} {ending : Ending}

theorem Resolver.mem_answers_concat (r : Resolver σ) (labels : List Text) (label : Text)
    (memory : σ) :
    r.answer label (r.askAll labels memory) ∈ r.answers (labels ++ [label]) memory := by
  rw [r.answers_concat]
  exact List.mem_append_right _ List.mem_cons_self

theorem Cause.fatal_iff (cause : Cause r tokens memory asked ending) (reason : String) :
    ending.fatal? = some reason ↔
      ∃ a ∈ r.answers asked memory, a.found = .error (.fatal reason) := by
  cases cause with
  | itself usable own =>
      rw [own.not_fatal]
      constructor
      · intro some_reason
        cases some_reason
      · rintro ⟨a, there, refused⟩
        exact absurd refused ((usable a there).not_refused _)
  | @answer before label _ usable led =>
      have there := r.mem_answers_concat before label memory
      -- Only the last answer can break off, since all others have led to an operand.
      have last : ∀ a ∈ r.answers (before ++ [label]) memory, a.found = .error (.fatal reason) →
          a = r.answer label (r.askAll before memory) := by
        intro a among refused
        rw [r.answers_concat] at among
        rcases List.mem_append.mp among with among | among
        · exact absurd refused ((usable a among).not_refused _)
        · exact List.mem_singleton.mp among
      rcases Answer.source led there with ⟨reason', found, fatal⟩ | ⟨not_refused, fatal, _⟩
      · rw [fatal]
        constructor
        · intro same
          cases same
          exact ⟨_, there, found⟩
        · rintro ⟨a, among, refused⟩
          rw [last a among refused, found] at refused
          cases refused
          rfl
      · rw [fatal]
        constructor
        · intro some_reason
          cases some_reason
        · rintro ⟨a, among, refused⟩
          exact absurd (last a among refused ▸ refused) (not_refused reason)

theorem Cause.source (cause : Cause r tokens memory asked ending) (goes_on : ending.fatal? = none)
    (trailing : Bool) : Source (r.answers asked memory) (ending.error trailing) := by
  cases cause with
  | itself _ own => exact .catalog (own.error_mem trailing)
  | @answer before label _ _ led =>
      rcases Answer.source led (r.mem_answers_concat before label memory) with
        ⟨reason, _, fatal⟩ | ⟨_, _, source⟩
      · rw [fatal] at goes_on
        cases goes_on
      · exact source trailing

theorem Source.ne_empty {answers : List Answer} {error : Text} (source : Source answers error) :
    error ≠ {} ∨ ∃ a ∈ answers, ∃ f, a.found = .error (.failure f) ∧ f.code = {} := by
  cases source with
  | catalog known => exact .inl (codes_ne_empty error known)
  | stored _ _ some_error _ same => exact .inl (same ▸ some_error)
  | @raised a f there found _ same =>
      by_cases coded : f.code = {}
      · exact .inr ⟨a, there, f, found, coded⟩
      · exact .inl (same ▸ coded)

theorem accounted (r : Resolver σ) (ev : Evaluator) (tokens : List Text) (memory : σ) :
    Accounted r ev tokens memory := by
  rcases run_cases r tokens memory with ⟨⟨result, value⟩, usable⟩ | cause
  · have fatal : (ev.evaluate r tokens memory).fatal = none := by
      show (run r tokens memory).1.fatal? = none
      rw [value]
      rfl
    refine ⟨?_, fun some_fatal => absurd fatal some_fatal, fun _ => .inl ?_, ?_⟩
    · intro reason
      rw [fatal]
      constructor
      · intro some_reason
        cases some_reason
      · rintro ⟨a, there, refused⟩
        exact absurd refused ((usable a there).not_refused _)
    · show (run r tokens memory).1.error _ = {}
      rw [value]
      rfl
    · intro caught
      rw [value] at caught
      exact caught.elim
  · refine ⟨cause.fatal_iff, ?_, fun goes_on => .inr (cause.source goes_on _), ?_⟩
    · -- What breaks off has no result.
      intro some_fatal
      show (run r tokens memory).1.result?.getD ev.result = ev.result
      cases ended : (run r tokens memory).1 with
      | refused refusal => rfl
      | _ => exact absurd (congrArg Ending.fatal? ended) some_fatal
    · intro caught
      have goes_on : (run r tokens memory).1.fatal? = none := by
        cases ended : (run r tokens memory).1 with
        | refused refusal =>
            rw [ended] at caught
            cases refusal with
            | fatal reason => exact caught.elim
            | _ => rfl
        | _ => rfl
      exact ⟨goes_on, (cause.source goes_on _).ne_empty⟩

theorem Resolver.mem_answers {r : Resolver σ} {labels : List Text} {memory : σ} {a : Answer}
    (there : a ∈ r.answers labels memory) : ∃ memory', a = r.answer a.label memory' := by
  induction labels generalizing memory with
  | nil => cases there
  | cons label labels ih =>
      rcases List.mem_cons.mp there with rfl | later
      · exact ⟨memory, rfl⟩
      · exact ih later

/-- In a table without cells none is found. -/
theorem unfound_of_no_cells {isLabel : Text → Bool} {refusal : Refusal} {tokens : List Text}
    {a : Answer} (there : a ∈ (Resolver.table isLabel [] (.error refusal)).heard tokens ())
    (cell : CellView) : a.found ≠ .ok cell := by
  obtain ⟨memory, same⟩ := Resolver.mem_answers there
  rw [same]
  exact nofun

/-- An answer that tells of an error: it is that of the cell, or that of the failure of the
look-up. -/
def Answer.Tells (a : Answer) (error : Text) : Prop :=
  (∃ cell, a.found = .ok cell ∧ cell.error = error) ∨
    ∃ f, a.found = .error (.failure f) ∧ f.code = error

/-- An error that stands for nothing that is wrong with a look-up has been told, and leaves no
result. -/
theorem Answer.tells_of_operand {a : Answer} {ending : Ending} (led : a.operand = .error ending)
    {trailing : Bool} {error : Text} (left : ending.error trailing = error)
    (foreign : error ∉ [{}, invalidFormula, invalidCell]) :
    ending.result? = none ∧ a.Tells error := by
  subst left
  rcases Answer.operand_error led with ⟨refusal, found, rfl⟩ | ⟨cell, found, _, _, rfl⟩ |
    ⟨_, rfl | rfl⟩
  · cases refusal with
    | failure f => exact ⟨rfl, .inr ⟨f, found, rfl⟩⟩
    | unusable => exact absurd (by simp [Ending.error]) foreign
    | fatal reason =>
        cases trailing <;> exact absurd (by simp [Ending.error]) foreign
  · exact ⟨rfl, .inl ⟨cell, found, rfl⟩⟩
  · exact absurd (by simp [Ending.error, Failure.code]) foreign
  · exact absurd (by simp [Ending.error]) foreign

/-- Only a division that has failed has its error, and it leaves the infinite result. -/
theorem Ending.Own.infinite {tokens : List Text} {ending : Ending} (own : ending.Own tokens)
    {trailing : Bool} (failed : ending.error trailing = divideByZero) :
    ending.result? = some .infinite := by
  cases own with
  | flawed result => exact absurd failed (by decide : invalidFormula ≠ divideByZero)
  | empty _ => exact absurd failed (by decide : emptyFormula ≠ divideByZero)
  | pair _ => exact absurd failed (by decide : missingParentheses ≠ divideByZero)
  | failed own =>
      cases own with
      | malformed detail => exact absurd failed (by decide : invalidFormula ≠ divideByZero)
      | badOperator token => exact absurd failed (by decide : invalidOperator ≠ divideByZero)
      | divisionByZero => rfl

theorem Cause.divided_or_passed_on (cause : Cause r tokens memory asked ending) {trailing : Bool}
    (failed : ending.error trailing = divideByZero) :
    ending.result? = some .infinite ∨
      (ending.result? = none ∧
        ∃ a, (r.answers asked memory).getLast? = some a ∧ a.Tells divideByZero) := by
  cases cause with
  | itself _ own => exact .inl (own.infinite failed)
  | @answer before label _ _ led =>
      obtain ⟨kept, told⟩ := Answer.tells_of_operand led failed (by decide)
      refine .inr ⟨kept, _, ?_, told⟩
      rw [r.answers_concat, List.getLast?_concat]

/-- Where an evaluation says that a division has failed, it has divided itself, or it has kept its
result and passes on what the last look-up has told. -/
theorem divided_or_passed_on {ev : Evaluator}
    (failed : (ev.evaluate r tokens memory).evaluator.error = divideByZero) :
    (ev.evaluate r tokens memory).evaluator.result = .infinite ∨
      ((ev.evaluate r tokens memory).evaluator.result = ev.result ∧
        ∃ a, (r.heard tokens memory).getLast? = some a ∧ a.Tells divideByZero) := by
  show (run r tokens memory).1.result?.getD ev.result = .infinite ∨
    ((run r tokens memory).1.result?.getD ev.result = ev.result ∧ _)
  rcases run_cases r tokens memory with ⟨⟨result, value⟩, _⟩ | cause
  · have no_error : ({} : Text) = divideByZero := by
      rw [← failed]
      show {} = (run r tokens memory).1.error _
      rw [value]
      rfl
    exact absurd no_error (by decide)
  · rcases cause.divided_or_passed_on failed with divided | ⟨kept, passed_on⟩
    · rw [divided]
      exact .inl rfl
    · rw [kept]
      exact .inr ⟨rfl, passed_on⟩

/-! ## Evaluations that leave no error -/

/-- A look-up that has failed and leaves no error: it breaks the evaluation off, or its failure has
the empty code. -/
def Answer.Mute (a : Answer) : Prop :=
  (∃ reason, a.found = .error (.fatal reason)) ∨
    ∃ f, a.found = .error (.failure f) ∧ f.code = {}

theorem Cause.mute (cause : Cause r tokens memory asked ending) {trailing : Bool}
    (clean : ending.error trailing = {}) :
    ∃ a, (r.answers asked memory).getLast? = some a ∧ a.Mute := by
  cases cause with
  | itself _ own => exact absurd clean (own.reported.1 trailing)
  | @answer before label _ _ led =>
      refine ⟨r.answer label (r.askAll before memory), ?_, ?_⟩
      · rw [r.answers_concat, List.getLast?_concat]
      · rcases Answer.operand_error led with ⟨refusal, found, rfl⟩ |
          ⟨cell, _, some_error, _, rfl⟩ | ⟨_, rfl | rfl⟩
        · cases refusal with
          | failure f => exact .inr ⟨f, found, clean⟩
          | unusable => exact absurd clean invalidFormula_ne_empty
          | fatal reason => exact .inl ⟨reason, found⟩
        · exact absurd clean some_error
        · exact absurd clean (codes_ne_empty invalidCell (by decide))
        · exact absurd clean invalidFormula_ne_empty

/-- An evaluation that leaves no error has come to a value, or the last look-up has failed without
leaving one. -/
theorem value_or_mute {ev : Evaluator}
    (clean : (ev.evaluate r tokens memory).evaluator.error = {}) :
    (∃ result, (run r tokens memory).1 = .value result) ∨
      ∃ a, (r.heard tokens memory).getLast? = some a ∧ a.Mute := by
  rcases run_cases r tokens memory with ⟨value, _⟩ | cause
  · exact .inl value
  · exact .inr (cause.mute clean)

/-- A formula is evaluated without error: it leaves none, and no look-up has failed without leaving
one. -/
def Resolver.Clean (r : Resolver σ) (tokens : List Text) (memory : σ) : Prop :=
  (evaluate r tokens memory).evaluator.error = {} ∧ ∀ a ∈ r.heard tokens memory, ¬ a.Mute

theorem Resolver.Clean.value (clean : r.Clean tokens memory) :
    ∃ result, (run r tokens memory).1 = .value result := by
  obtain ⟨no_error, told⟩ := clean
  rcases value_or_mute no_error with value | ⟨a, last, mute⟩
  · exact value
  · exact absurd mute (told a (List.mem_of_getLast? last))

/-- Where every look-up that fails leaves an error, it is enough that there is none. -/
theorem Resolver.Reports.clean (reports : r.Reports)
    (no_error : (evaluate r tokens memory).evaluator.error = {}) : r.Clean tokens memory := by
  refine ⟨no_error, ?_⟩
  intro a there mute
  obtain ⟨memory', same⟩ := Resolver.mem_answers there
  rw [same] at mute
  rcases mute with ⟨reason, broken⟩ | ⟨f, failed, no_code⟩
  · exact reports.not_fatal a.label memory' reason broken
  · exact reports.coded a.label memory' f failed no_code

end

end SheetCalc.Formula
