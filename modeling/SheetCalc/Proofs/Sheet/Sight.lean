import SheetCalc.Proofs.Sheet.Cells

/-!
# What a formula sees of a sheet

A formula sees of a sheet only the cells that it refers to, and of each of them three facts: whether
it has a formula, its value as a number, and its error (`SeenAlike`). So on two sheets that are
alike in these it comes to the same and asks for the same labels (`evaluate_alike`), whatever the
formulas of the cells say and whatever else is there.

The relation between the two sheets is that looking up a label which the formula refers to leads to
the same operand (`evaluate_congr`). Asking for other labels, by which cells are made, keeps it.
-/

namespace SheetCalc.Sheet

open Formula (Evaluator references)

/-! ## Looking up a label -/

/-- What looking up a label leads to does not depend on what has been asked for before. -/
theorem lookUp_touch (s : Sheet) (asked label : Text) :
    (resolver.lookUp label (s.touch asked)).1 = (resolver.lookUp label s).1 :=
  Formula.Resolver.lookUp_congr ((s.grown_touch asked).viewOf label)

/-- In the grid a look-up leads to the operand that the cell stands for, and nowhere outside of
it. -/
theorem lookUp_cell (s : Sheet) (label : Text) :
    (resolver.lookUp label s).1 = match s.position label with
      | .ok _ => (s.first label).view.operand label
      | .error _ => .error (.refused .unusable) := by
  have said := s.viewOf_eq label
  unfold viewOf at said
  unfold Formula.Resolver.lookUp
  rcases found : resolver.find label s with ⟨answer, after⟩
  rw [found] at said
  obtain rfl : answer = _ := said
  cases s.position label <;> rfl

/-- **What a formula comes to depends only on what the labels in it lead to.** -/
theorem evaluate_congr {s t : Sheet} {tokens : List Text}
    (same : ∀ label ∈ references Label.isLabel tokens,
      (resolver.lookUp label t).1 = (resolver.lookUp label s).1) (ev : Evaluator) :
    (ev.evaluate resolver tokens t).evaluator = (ev.evaluate resolver tokens s).evaluator ∧
      (ev.evaluate resolver tokens t).asked = (ev.evaluate resolver tokens s).asked := by
  have agree : Formula.Agree resolver resolver (references resolver.isLabel tokens) fun s' t' =>
      ∀ label ∈ references Label.isLabel tokens,
        (resolver.lookUp label t').1 = (resolver.lookUp label s').1 := by
    refine ⟨rfl, fun asked there s' t' alike => alike asked there, ?_⟩
    intro asked _ s' t' alike label there
    show (resolver.lookUp label (t'.touch asked)).1 = (resolver.lookUp label (s'.touch asked)).1
    rw [lookUp_touch, lookUp_touch]
    exact alike label there
  obtain ⟨ending, asked, _⟩ :=
    Formula.run_alike agree (fun _ asked => Formula.mem_references_of_asked asked) same
  exact ⟨by simp only [Evaluator.evaluate, ending], asked⟩

/-! ## Three facts of a cell -/

/-- A formula sees no difference between the cells with a label in two sheets: both or neither have
a formula, their values are the same number or both are none, and their errors are equal. A cell
that is not there has no formula, the value zero and no error. -/
structure SeenAlike (s t : Sheet) (label : Text) : Prop where
  formula : (t.first label).formula.isEmpty = (s.first label).formula.isEmpty
  value : (t.first label).value.toFloat.toOption = (s.first label).value.toFloat.toOption
  error : (t.first label).error = (s.first label).error

theorem SeenAlike.operand {s t : Sheet} {label : Text} (alike : SeenAlike s t label) :
    (t.first label).view.operand label = (s.first label).view.operand label := by
  obtain ⟨formula, value, error⟩ := alike
  unfold Formula.CellView.operand Cell.view
  simp only [formula, error]
  generalize (t.first label).value.toFloat = number at value
  generalize (s.first label).value.toFloat = other at value
  -- Why a value is no number makes no difference.
  cases number <;> cases other <;> cases value <;> rfl

/-- **A formula sees only the cells that it names, and of them three facts.** On two sheets of the
same size that agree in these facts on every cell in the grid that a formula refers to, the formula
comes to the same, by way of the same look-ups in the same order. The evaluators are new ones, or
have been left alike by earlier evaluations. -/
theorem evaluate_alike {s t : Sheet} (rows : t.rows = s.rows) (cols : t.cols = s.cols)
    {tokens : List Text}
    (alike : ∀ label ∈ references Label.isLabel tokens, ∀ p, s.position label = .ok p →
      SeenAlike s t label) (ev : Evaluator) :
    (ev.evaluate resolver tokens t).evaluator = (ev.evaluate resolver tokens s).evaluator ∧
      (ev.evaluate resolver tokens t).asked = (ev.evaluate resolver tokens s).asked := by
  refine evaluate_congr ?_ ev
  intro label referred
  have position : t.position label = s.position label := by
    unfold Sheet.position
    rw [rows, cols]
  rw [lookUp_cell, lookUp_cell, position]
  cases inside : s.position label with
  | error e => rfl
  | ok p => exact (alike label referred p inside).operand

/-- Two sheets that have hardly anything in common. The cells `A1` hold the same number, once as an
integer and once as a text, with different formulas; `B1` is empty here and not there at all in the
other sheet. -/
theorem evaluate_alike_strangers :
    let s : Sheet :=
      { rows := 2, cols := 3, rows_pos := by decide, cols_pos := by decide
        cells := [{ label := "A1", formula := ["2"], value := .int 3 }, { label := "B1" }] }
    let t : Sheet :=
      { rows := 2, cols := 3, rows_pos := by decide, cols_pos := by decide
        cells := [{ label := "C1", error := "#CIRC!" },
          { label := "A1", formula := ["C1", "/", "0"], value := .text "3" }] }
    let tokens : List Text := ["A1", "*", "4", "-", "B1", "+", "Q9"]
    (∀ label ∈ references Label.isLabel tokens, ∀ p, s.position label = .ok p →
        SeenAlike s t label) ∧
      (Formula.evaluate resolver tokens t).evaluator =
        (Formula.evaluate resolver tokens s).evaluator ∧
      (Formula.evaluate resolver tokens t).asked = (Formula.evaluate resolver tokens s).asked ∧
      (Formula.evaluate resolver tokens s).asked = [("A1" : Text), "B1"] := by
  intro s t tokens
  have referred : references Label.isLabel tokens = [("A1" : Text), "B1", "Q9"] := by
    decide +kernel
  have outside : (s.position "Q9").toOption = none := by decide
  have alike : ∀ label ∈ references Label.isLabel tokens, ∀ p, s.position label = .ok p →
      SeenAlike s t label := by
    intro label there p inside
    simp only [referred, List.mem_cons, List.not_mem_nil, or_false] at there
    rcases there with rfl | rfl | rfl
    · exact ⟨rfl, rfl, rfl⟩
    · exact ⟨rfl, rfl, rfl⟩
    · rw [inside] at outside
      cases outside
  obtain ⟨evaluator, asked⟩ := evaluate_alike (s := s) (t := t) rfl rfl alike {}
  exact ⟨alike, evaluator, asked, by decide +kernel⟩

end SheetCalc.Sheet
