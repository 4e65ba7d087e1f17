import Mathlib.Data.List.Induction
import SheetCalc.Proofs.Formula.Origins
import SheetCalc.Proofs.Sheet.Calls

/-!
# Failed divisions

An evaluation that says that a division has failed has either divided itself, and its result is
infinite; or the cell that it has looked up last says so, and then its evaluator keeps the result
that it had. So a cell with this error holds the infinite value, or what was left in the evaluator
of its last evaluation (`infinite_unless_passed_on`). The value can be any number, as
`divideByZero_with_finite_value` shows.
-/

namespace SheetCalc.Sheet

open Formula (Evaluator Resolver Result divideByZero)

/-- Whether a call puts a value or an error into a cell that no evaluation has come to. -/
def Call.puts : Call → Bool
  | .setValue _ _ => true
  | .setError _ _ => true
  | _ => false

/-! ## Where a value comes from -/

theorem mem_memory_report {s : Sheet} {ev : Evaluator} {label : Text} {c : Cell}
    (there : c ∈ (s.report ev label).memory.cells) :
    c ∈ s.cells ∨ ∃ made, c = { label := made } := by
  rw [report, memory_evaluate] at there
  rcases mem_askAll there with before | made
  · exact mem_touch before
  · exact .inr made

/-- Two cells with the same label that hold the same value and the same error. -/
structure SameOutcome (c d : Cell) : Prop where
  label : c.label = d.label
  value : c.value = d.value
  error : c.error = d.error

/-- A cell after a call that puts nothing into cells: it is empty, or holds what it held before, or
what its evaluation has just come to. -/
theorem mem_after {s : Sheet} (sound : s.Sound) (ev : Evaluator) {call : Call}
    (computed : call.puts = false) {c : Cell} (there : c ∈ (s.after ev call).2.cells) :
    c.error = {} ∨
    (call ≠ .evaluate c.label ∧ ∃ c' ∈ s.cells, SameOutcome c c') ∨
    (call = .evaluate c.label ∧ c.value = (s.report ev c.label).evaluator.result.toValue ∧
      c.error = (s.report ev c.label).evaluator.error) := by
  have grown_by_empty {c' : Cell} (before : c' ∈ s.cells ∨ ∃ made, c' = { label := made })
      (same : SameOutcome c c') (other : call ≠ .evaluate c.label) :
      c.error = {} ∨ (call ≠ .evaluate c.label ∧ ∃ c' ∈ s.cells, SameOutcome c c') := by
    rcases before with before | ⟨made, rfl⟩
    · exact .inr ⟨other, c', before, same⟩
    · exact .inl same.error
  rw [after_eq] at there
  cases refused : s.refusal? call with
  | some e =>
      rw [refused] at there
      refine .inr (.inl ⟨?_, c, there, rfl, rfl, rfl⟩)
      -- A cell that is there has a label that is not refused.
      rintro rfl
      obtain ⟨p, inside⟩ := sound.inside c there
      simp [refusal?, Call.label?, inside] at refused
  | none =>
      rw [refused] at there
      cases call with
      | get label =>
          exact (grown_by_empty (mem_touch there) ⟨rfl, rfl, rfl⟩ (by simp)).imp_right .inl
      | setFormula label tokens =>
          simp only [act] at there
          cases written : Value.texts? tokens with
          | none =>
              rw [written] at there
              exact (grown_by_empty (mem_touch there) ⟨rfl, rfl, rfl⟩ (by simp)).imp_right .inl
          | some formula =>
              rw [written] at there
              obtain ⟨c', before, rfl⟩ := mem_modify there
              refine (grown_by_empty (mem_touch before) ?_ (by simp)).imp_right .inl
              split <;> exact ⟨rfl, rfl, rfl⟩
      | setValue label value => cases computed
      | setError label error => cases computed
      | evaluate label =>
          obtain ⟨c', before, rfl⟩ := mem_modify there
          by_cases same : c'.label = label
          · subst same
            simp only [beq_self_eq_true, if_true]
            exact .inr (.inr ⟨trivial, trivial, trivial⟩)
          · have apart : ¬ (c'.label == label) = true := by simpa using same
            rw [if_neg apart] at there grown_by_empty ⊢
            refine (grown_by_empty (mem_memory_report before) ⟨rfl, rfl, rfl⟩ ?_).imp_right .inl
            intro evaluated
            cases evaluated
            exact same rfl
      | evaluateTokens tokens =>
          rw [show (s.act ev (.evaluateTokens tokens)).2 = _ from memory_evaluate s {} tokens]
            at there
          exact (grown_by_empty (mem_askAll there) ⟨rfl, rfl, rfl⟩ (by simp)).imp_right .inl

/-! ## Errors that are passed on from cell to cell -/

theorem mem_of_viewOf {s : Sheet} {label : Text} {view : Formula.CellView}
    (told : s.viewOf label = .ok view) (some_error : view.error ≠ {}) :
    ∃ d ∈ s.cells, d.label = label ∧ d.error = view.error := by
  rw [viewOf_eq] at told
  cases hp : s.position label with
  | error e =>
      rw [hp] at told
      cases told
  | ok p =>
      rw [hp] at told
      cases hc : s.cellsOf label with
      | nil =>
          rw [hc] at told
          cases told
          exact absurd rfl some_error
      | cons d ds =>
          rw [hc] at told
          cases told
          have among : d ∈ s.cellsOf label := hc ▸ List.mem_cons_self
          obtain ⟨there, same⟩ := mem_cellsOf.mp among
          exact ⟨d, there, same, rfl⟩

/-- A sheet has a cell with the error that the last look-up of an evaluation tells of. -/
theorem mem_of_tells {s : Sheet} {ev : Evaluator} {label : Text} {a : Formula.Answer}
    (last : (resolver.heard (s.formulaOf label) (s.touch label)).getLast? = some a) {error : Text}
    (some_error : error ≠ {}) (tells : a.Tells error) :
    ∃ d ∈ s.cells, d.error = error ∧ (s.report ev label).asked.getLast? = some d.label := by
  unfold Resolver.heard at last
  show ∃ d ∈ s.cells, _ ∧
    (Formula.run resolver (s.formulaOf label) (s.touch label)).2.1.getLast? = some d.label
  generalize (Formula.run resolver (s.formulaOf label) (s.touch label)).2.1 = asked at last ⊢
  rcases List.eq_nil_or_concat asked with rfl | ⟨before, other, rfl⟩
  · cases last
  · rw [List.concat_eq_append, resolver.answers_concat, List.getLast?_concat] at last
    cases last
    -- Cells that have been made on the way are empty, so what is told was so from the beginning.
    have grown := (s.grown_touch label).trans (grown_askAll (s.touch label) before)
    rcases tells with ⟨cell, found, rfl⟩ | ⟨f, raised, _⟩
    · have told : s.viewOf other = .ok cell := by
        rw [← grown.viewOf]
        exact found
      obtain ⟨d, there, same, told_error⟩ := mem_of_viewOf told some_error
      refine ⟨d, there, told_error, ?_⟩
      rw [List.concat_eq_append, List.getLast?_concat, same]
    · cases refusal_eq_unusable raised

/-- What a cell holds was left in the evaluator of its last evaluation, which has passed on an error
that the cell looked up last had then. -/
def PassedOn (s : Sheet) (calls : List (Evaluator × Call)) (error : Text) (c : Cell) : Prop :=
  ∃ front ev back, calls = front ++ (ev, .evaluate c.label) :: back ∧
    (∀ call ∈ back, call.2 ≠ .evaluate c.label) ∧ c.value = ev.result.toValue ∧
    ∃ d ∈ (s.afterAll front).cells, d.error = error ∧
      ((s.afterAll front).report ev c.label).asked.getLast? = some d.label

theorem PassedOn.concat {s : Sheet} {calls : List (Evaluator × Call)} {error : Text} {c d : Cell}
    (passed_on : s.PassedOn calls error d) (same : SameOutcome c d) (ev : Evaluator) {call : Call}
    (other : call ≠ .evaluate c.label) : s.PassedOn (calls ++ [(ev, call)]) error c := by
  obtain ⟨front, ev', back, rfl, last, value, told⟩ := passed_on
  rw [← same.label] at last told
  refine ⟨front, ev', back ++ [(ev, call)], ?_, ?_, same.value.trans value, told⟩
  · rw [same.label, List.append_assoc, List.cons_append]
  · intro later there
    rcases List.mem_append.mp there with before | now
    · exact last later before
    · rw [List.mem_singleton.mp now]
      exact other

/-- On a sheet into which no value and no error has been put, a cell whose error is that of a failed
division holds the infinite value, or has passed the error on. -/
theorem infinite_or_passedOn {rows cols : Int} {s : Sheet} (made : ofSize rows cols = .ok s)
    {calls : List (Evaluator × Call)} (computed : ∀ call ∈ calls, call.2.puts = false) :
    ∀ c ∈ (s.afterAll calls).cells, c.error = divideByZero →
      c.value = Result.infinite.toValue ∨ s.PassedOn calls divideByZero c := by
  have no_error : ({} : Text) ≠ divideByZero := by decide
  -- The last call has left the cell as it was, or has evaluated it.
  induction calls using List.reverseRecOn with
  | nil =>
      intro c there
      rw [show s.afterAll [] = s from rfl, (ofSize_ok_iff.mp made).2.2] at there
      cases there
  | append_singleton calls call ih =>
      obtain ⟨ev, call⟩ := call
      have before := ih fun call there => computed call (List.mem_append_left _ there)
      intro c there failed
      rw [afterAll_concat] at there
      have sound := (sound_ofSize made).afterAll calls
      rcases mem_after sound ev (computed (ev, call) (by simp)) there with
        empty | ⟨other, d, there', same⟩ | ⟨rfl, value, error⟩
      · exact absurd (empty.symm.trans failed) no_error
      · rcases before d there' (same.error ▸ failed) with infinite | passed_on
        · exact .inl (same.value.trans infinite)
        · exact .inr (passed_on.concat same ev other)
      · rcases Formula.divided_or_passed_on (error.symm.trans failed) with
          infinite | ⟨kept, a, last, tells⟩
        · exact .inl (value.trans (congrArg Result.toValue infinite))
        · refine .inr ⟨calls, ev, [], rfl, ?_, value.trans (congrArg Result.toValue kept),
            mem_of_tells last no_error.symm tells⟩
          intro call none_there
          cases none_there

/-- **A failed division leaves the infinite value, unless its error is passed on.** An evaluation
with this error has the infinite result; or its last look-up tells of the error, and the result is
the one that the evaluator had before. On a sheet into which no value and no error has been put, a
cell with this error holds the infinite value, or else what the evaluator of its last evaluation had
before that, and the cell that it looked up last had the error then. -/
theorem infinite_unless_passed_on :
    (∀ (σ : Type) (r : Resolver σ) (ev : Evaluator) (tokens : List Text) (memory : σ),
      (ev.evaluate r tokens memory).evaluator.error = divideByZero →
        (ev.evaluate r tokens memory).evaluator.result = .infinite ∨
          ((ev.evaluate r tokens memory).evaluator.result = ev.result ∧
            ∃ a, (r.heard tokens memory).getLast? = some a ∧ a.Tells divideByZero)) ∧
    ∀ (rows cols : Int) (s : Sheet) (calls : List (Evaluator × Call)),
      ofSize rows cols = .ok s → (∀ call ∈ calls, call.2.puts = false) →
        ∀ c ∈ (s.afterAll calls).cells, c.error = divideByZero →
          c.value = Result.infinite.toValue ∨ s.PassedOn calls divideByZero c :=
  ⟨fun _ _ _ _ _ failed => Formula.divided_or_passed_on failed,
    fun _ _ _ _ made computed => infinite_or_passedOn made computed⟩

/-- One cell divides by zero, and another one refers to it. -/
def dividesAndRefers : List (Evaluator × Call) :=
  [({}, .setFormula "A1" ["1", "/", "0"]), ({}, .evaluate "A1"),
    ({}, .setFormula "B1" ["A1"]), ({}, .evaluate "B1")]

theorem computed_dividesAndRefers : ∀ call ∈ dividesAndRefers, call.2.puts = false := by
  simp [dividesAndRefers, Call.puts]

theorem cells_dividesAndRefers : ((oneRow 1).afterAll dividesAndRefers).cells =
    [{ label := "A1", formula := ["1", "/", "0"], value := .float (1 / 0), error := divideByZero },
      { label := "B1", formula := ["A1"], value := .int 0, error := divideByZero }] := by
  rfl

theorem mem_dividesAndRefers :
    { label := "B1", formula := ["A1"], value := .int 0, error := divideByZero } ∈
      ((oneRow 1).afterAll dividesAndRefers).cells := by
  rw [cells_dividesAndRefers]
  exact List.mem_cons_of_mem _ List.mem_cons_self

theorem passedOn_dividesAndRefers :
    ofSize 1 2 = .ok (oneRow 1) ∧ (∀ call ∈ dividesAndRefers, call.2.puts = false) ∧
      ∃ c ∈ ((oneRow 1).afterAll dividesAndRefers).cells,
        c.error = divideByZero ∧ (oneRow 1).PassedOn dividesAndRefers divideByZero c := by
  have made : ofSize 1 2 = .ok (oneRow 1) := rfl
  refine ⟨made, computed_dividesAndRefers, _, mem_dividesAndRefers, rfl, ?_⟩
  rcases infinite_unless_passed_on.2 1 2 (oneRow 1) dividesAndRefers made
    computed_dividesAndRefers _ mem_dividesAndRefers rfl with infinite | passed_on
  · cases infinite
  · exact passed_on

/-- A failed division that is passed on leaves a finite value, in an evaluation and on a sheet. -/
theorem divideByZero_with_finite_value :
    ¬ (∀ (σ : Type) (r : Resolver σ) (ev : Evaluator) (tokens : List Text) (memory : σ),
      (ev.evaluate r tokens memory).evaluator.error = divideByZero →
        (ev.evaluate r tokens memory).evaluator.result = .infinite) ∧
    ¬ (∀ (rows cols : Int) (s : Sheet) (calls : List (Evaluator × Call)),
      ofSize rows cols = .ok s → (∀ call ∈ calls, call.2.puts = false) →
        ∀ c ∈ (s.afterAll calls).cells, c.error = divideByZero →
          c.value = Result.infinite.toValue) := by
  constructor
  · intro infinite
    have kept := infinite Sheet resolver {} ["A1"] ((oneRow 1).afterAll dividesAndRefers) rfl
    cases kept
  · intro infinite
    have kept := infinite 1 2 (oneRow 1) dividesAndRefers rfl computed_dividesAndRefers _
      mem_dividesAndRefers rfl
    cases kept

end SheetCalc.Sheet
