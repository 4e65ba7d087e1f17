import SheetCalc.Proofs.Sheet.Store

/-!
# The frame of an evaluation

To evaluate a cell may make cells, as a formula asks for them one after the other, and may stop at
any of its tokens. Wherever it stops, it writes to one cell only, and in that cell it leaves the
formula as it is; all that is made beside it are empty cells, for labels that the formula refers to
(`evaluateCell_confined`).

The invariant is `Grown`, which all asking keeps. What it leaves open is which cells are made: a
cell that was not there before has been asked for and is in the grid (`asked_of_made`).

However many cells are evaluated one after the other, no formula is changed by it, and no other cell
that was there (`spared_evaluations`).
-/

namespace SheetCalc.Sheet

open Formula (Evaluator references)

/-! ## Which cells are made -/

/-- Asking for a label makes a cell for no other one, and none that is outside the grid. -/
theorem touched_of_made {s : Sheet} {label other : Text} (none_before : s.cellsOf other = [])
    (made : (s.touch label).cellsOf other ≠ []) :
    other = label ∧ ∃ p, s.position other = .ok p := by
  rw [touch_eq] at made
  split at made
  · next p inside _ =>
      rw [cellsOf_append, none_before, List.nil_append] at made
      by_cases same : label = other
      · exact ⟨same.symm, p, same ▸ inside⟩
      · rw [if_neg same] at made
        exact absurd rfl made
  · exact absurd none_before made

/-- A cell that is made has been asked for and is in the grid. -/
theorem asked_of_made {s : Sheet} {labels : List Text} {other : Text}
    (none_before : s.cellsOf other = []) (made : (resolver.askAll labels s).cellsOf other ≠ []) :
    other ∈ labels ∧ ∃ p, s.position other = .ok p := by
  induction labels generalizing s with
  | nil => exact absurd none_before made
  | cons label labels ih =>
      by_cases none_yet : (s.touch label).cellsOf other = []
      · obtain ⟨later, p, inside⟩ := ih none_yet made
        rw [(s.grown_touch label).position] at inside
        exact ⟨List.mem_cons_of_mem _ later, p, inside⟩
      · obtain ⟨same, inside⟩ := touched_of_made none_before none_yet
        exact ⟨same ▸ List.mem_cons_self, inside⟩

theorem grown_report (s : Sheet) (ev : Evaluator) (label : Text) :
    Grown s (s.report ev label).memory := by
  rw [report, memory_evaluate]
  exact (s.grown_touch label).trans (grown_askAll _ _)

/-- The cell that is evaluated is there when its formula has been run. -/
theorem cellsOf_report {s : Sheet} {label : Text} {p : Position} (ev : Evaluator)
    (inside : s.position label = .ok p) : (s.report ev label).memory.cellsOf label ≠ [] := by
  have grown := s.grown_report ev label
  rw [report, memory_evaluate] at grown ⊢
  exact ((s.touched_touch label).grown (grown_askAll _ _)).there
    ((grown.position label).trans inside)

/-- What an evaluation makes beside its cell are cells that its formula refers to. -/
theorem reference_of_made {s : Sheet} {ev : Evaluator} {label other : Text} (apart : other ≠ label)
    (none_before : s.cellsOf other = []) (made : (s.report ev label).memory.cellsOf other ≠ []) :
    other ∈ references Label.isLabel (s.formulaOf label) ∧ ∃ p, s.position other = .ok p := by
  have none_yet : (s.touch label).cellsOf other = [] := by
    by_contra there
    exact apart (touched_of_made none_before there).1
  rw [report, memory_evaluate] at made
  obtain ⟨asked, p, inside⟩ := asked_of_made none_yet made
  rw [(s.grown_touch label).position] at inside
  exact ⟨Formula.mem_references_of_asked asked, p, inside⟩

/-! ## What an evaluation writes -/

/-- A sheet in which one cell holds what an evaluator has kept, and of which nothing else is new but
empty cells for labels that the formula of that cell refers to. -/
structure Confined (s t : Sheet) (label : Text) (ev : Evaluator) : Prop where
  size : t.rows = s.rows ∧ t.cols = s.cols
  written : t.find? label =
    some { label, formula := s.formulaOf label, value := ev.result.toValue, error := ev.error }
  kept : ∀ other c, other ≠ label → s.find? other = some c → t.find? other = some c
  made : ∀ other c, other ≠ label → s.find? other = none → t.find? other = some c →
    c = { label := other } ∧ (∃ p, s.position other = .ok p) ∧
      other ∈ s.formulaOf label ∧ Formula.Token.classify Label.isLabel other = .reference

/-- What is stored in a cell that is there is found in it beside its formula, and in no other
one. -/
theorem find?_store {t : Sheet} {label : Text} (ev : Evaluator) (there : t.cellsOf label ≠ [])
    (other : Text) :
    (t.store label ev).find? other =
      if other = label then
        some { label, formula := t.formulaOf label, value := ev.result.toValue, error := ev.error }
      else t.find? other := by
  rw [find?_eq, find?_eq, cellsOf_store]
  by_cases same : other = label
  · rw [if_pos same, if_pos same, formulaOf_eq, first]
    cases found : t.cellsOf label with
    | nil => exact absurd found there
    | cons c cs =>
        have named : c.label = label := (mem_cellsOf.mp (found ▸ List.mem_cons_self)).2
        rw [List.map_cons, List.head?_cons, List.head?_cons, Option.getD_some, named]
  · rw [if_neg same, if_neg same]

/-- A sheet is the same as before but for empty cells when a formula has been run, and what the
formula comes to is then written into one cell. -/
theorem confined_act {s : Sheet} {label : Text} {p : Position} (ev : Evaluator)
    (inside : s.position label = .ok p) :
    Confined s (s.act ev (.evaluate label)).2 label (s.act ev (.evaluate label)).1 := by
  have grown := s.grown_report ev label
  have there := cellsOf_report ev inside
  have stored := find?_store (s.report ev label).evaluator there
  refine ⟨⟨grown.rows, grown.cols⟩, ?_, ?_, ?_⟩
  · refine (stored label).trans ?_
    rw [if_pos rfl, grown.formulaOf]
    rfl
  · intro other c apart before
    refine (stored other).trans ?_
    rw [find?_eq] at before
    have some_before : s.cellsOf other ≠ [] := by
      intro none_before
      rw [none_before] at before
      cases before
    rw [if_neg apart, find?_eq, grown.cellsOf some_before]
    exact before
  · intro other c apart absent found
    rw [find?_eq, List.head?_eq_none_iff] at absent
    have found := (stored other).symm.trans found
    rw [if_neg apart, find?_eq] at found
    rcases grown.cells other with same | ⟨_, made⟩
    · rw [same, absent] at found
      cases found
    · obtain ⟨referred, inside⟩ := reference_of_made apart absent (made ▸ List.cons_ne_nil _ _)
      obtain ⟨token, kind⟩ := Formula.mem_references.mp referred
      rw [made] at found
      exact ⟨(Option.some.inj found).symm, inside, token, kind⟩

theorem refusal?_of_inside {s : Sheet} {label : Text} {p : Position}
    (inside : s.position label = .ok p) : s.refusal? (.evaluate label) = none := by
  simp only [refusal?, Call.label?, Option.map_some, inside]

/-- **The frame of an evaluation.** To evaluate a cell in the grid does not fail, whatever its
formula and with an evaluator of any past. What comes out is what is stored in that cell, its
formula is as before, and so are all other cells that were there and the size of the grid. All that
is new beside that cell are empty cells in the grid, for labels that its formula refers to. -/
theorem evaluateCell_confined (s : Sheet) (ev : Evaluator) {label : Text} {p : Position}
    (inside : s.position label = .ok p) :
    ∃ ev' t, s.evaluateCell label ev = .ok (ev', t) ∧
      ((Call.evaluate label).steps ev).run s = (.ok ev', t) ∧ Confined s t label ev' := by
  have admitted := refusal?_of_inside inside
  refine ⟨_, _, ?_, ?_, confined_act ev inside⟩
  · unfold evaluateCell
    rw [cell_eq s inside]
    rfl
  · rw [run_steps, admitted]
    rfl

/-- A formula that refers to its own cell, to an empty one and to one behind it stops at the empty
one. The evaluator has been used before, and what it has kept is stored with the error. -/
theorem evaluateCell_confined_itself :
    let s := (oneRow 2).afterAll [({}, .setFormula "A1" ["A1", "+", "B1", "+", "C1"])]
    let ev : Evaluator := { result := .number 7 }
    (∃ p, s.position "A1" = .ok p) ∧
      ∃ ev' t, s.evaluateCell "A1" ev = .ok (ev', t) ∧ Confined s t "A1" ev' ∧
        t.cells.map Cell.label = [("A1" : Text), "B1"] ∧ ev'.error = Formula.invalidCell := by
  intro s ev
  have inside : s.position "A1" = .ok ⟨0, 0⟩ := by decide +kernel
  obtain ⟨ev', t, ran, _, confined⟩ := evaluateCell_confined s ev inside
  have left : (s.evaluateCell "A1" ev).map (fun (ev', t) => (t.cells.map Cell.label, ev'.error)) =
      .ok ([("A1" : Text), "B1"], Formula.invalidCell) := by decide +kernel
  rw [ran] at left
  obtain ⟨labels, error⟩ := Prod.mk.inj (Except.ok.inj left)
  exact ⟨⟨_, inside⟩, ev', t, ran, confined, labels, error⟩

/-! ## Many evaluations -/

/-- The evaluation of a cell leaves all formulas as they are. -/
theorem Confined.formulaOf {s t : Sheet} {label : Text} {ev : Evaluator}
    (confined : Confined s t label ev) (other : Text) : t.formulaOf other = s.formulaOf other := by
  by_cases same : other = label
  · rw [same]
    unfold Sheet.formulaOf
    rw [confined.written]
    rfl
  · unfold Sheet.formulaOf
    cases before : s.find? other with
    | some c => rw [confined.kept other c same before]
    | none =>
        cases after : t.find? other with
        | none => rfl
        | some c =>
            obtain ⟨rfl, _⟩ := confined.made other c same before after
            rfl

/-- A sheet of which no formula and no cell has been changed but the results of some cells, and to
which no cells have been added but these and empty ones that their formulas refer to. -/
structure Spared (s t : Sheet) (labels : List Text) : Prop where
  size : t.rows = s.rows ∧ t.cols = s.cols
  formulas : ∀ label, t.formulaOf label = s.formulaOf label
  kept : ∀ other c, other ∉ labels → s.find? other = some c → t.find? other = some c
  made : ∀ other c, s.find? other = none → t.find? other = some c →
    other ∈ labels ∨
      (c = { label := other } ∧
        ∃ label ∈ labels, other ∈ references Label.isLabel (s.formulaOf label))

theorem Spared.also {s t : Sheet} {labels : List Text} (spared : Spared s t labels) (label : Text) :
    Spared s t (label :: labels) := by
  refine ⟨spared.size, spared.formulas, ?_, ?_⟩
  · intro other c apart before
    exact spared.kept other c (fun there => apart (List.mem_cons_of_mem _ there)) before
  · intro other c absent found
    rcases spared.made other c absent found with evaluated | ⟨empty, first, there, referred⟩
    · exact .inl (List.mem_cons_of_mem _ evaluated)
    · exact .inr ⟨empty, first, List.mem_cons_of_mem _ there, referred⟩

theorem Spared.cons {s t u : Sheet} {label : Text} {ev : Evaluator} {labels : List Text}
    (confined : Confined s t label ev) (spared : Spared t u labels) :
    Spared s u (label :: labels) := by
  refine ⟨⟨?_, ?_⟩, ?_, ?_, ?_⟩
  · rw [spared.size.1, confined.size.1]
  · rw [spared.size.2, confined.size.2]
  · intro other
    rw [spared.formulas, confined.formulaOf]
  · intro other c apart before
    rw [List.mem_cons, not_or] at apart
    exact spared.kept other c apart.2 (confined.kept other c apart.1 before)
  · intro other c absent found
    by_cases evaluated : other ∈ label :: labels
    · exact .inl evaluated
    rw [List.mem_cons, not_or] at evaluated
    refine .inr ?_
    cases between : t.find? other with
    | none =>
        obtain later | ⟨empty, first, there, referred⟩ := spared.made other c between found
        · exact absurd later evaluated.2
        · rw [confined.formulaOf] at referred
          exact ⟨empty, first, List.mem_cons_of_mem _ there, referred⟩
    | some c' =>
        obtain ⟨empty, _, token, kind⟩ := confined.made other c' evaluated.1 absent between
        -- It is not evaluated later on either, so it is still what it was made as.
        have same := (spared.kept other c' evaluated.2 between).symm.trans found
        rw [← Option.some.inj same]
        exact ⟨empty, label, List.mem_cons_self, Formula.mem_references.mpr ⟨token, kind⟩⟩

/-- **Evaluations change nothing but the results of their cells**, whatever cells are evaluated one
after the other and with whichever evaluators. A label that is refused makes no difference. -/
theorem spared_evaluations (s : Sheet) (evaluations : List (Evaluator × Text)) :
    Spared s (s.afterAll (evaluations.map fun (ev, label) => (ev, .evaluate label)))
      (evaluations.map Prod.snd) := by
  induction evaluations generalizing s with
  | nil =>
      refine ⟨⟨rfl, rfl⟩, fun _ => rfl, fun _ _ _ before => before, ?_⟩
      intro other c absent found
      cases absent.symm.trans found
  | cons evaluation evaluations ih =>
      obtain ⟨ev, label⟩ := evaluation
      have later := ih (s.after ev (.evaluate label)).2
      show Spared s ((s.after ev (.evaluate label)).2.afterAll _) _
      cases hp : s.position label with
      | ok p =>
          rw [after_eq, refusal?_of_inside hp] at later ⊢
          exact later.cons (confined_act ev hp)
      | error e =>
          have refused : s.refusal? (.evaluate label) = some e := by
            simp only [refusal?, Call.label?, Option.map_some, hp]
          rw [after_eq, refused] at later ⊢
          exact later.also label

end SheetCalc.Sheet
