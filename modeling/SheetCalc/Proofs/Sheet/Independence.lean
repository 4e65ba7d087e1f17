import SheetCalc.Proofs.Sheet.FixedPoint
import SheetCalc.Proofs.Sheet.Frame

/-!
# Independent evaluations

Two cells are independent of each other if neither occurs in the other's formula. Cells that are so
two by two may be evaluated in any order: each comes to the same, and the sheets that are left have
the same cells (`evaluateEach_perm`, and for two cells `evaluateCell_comm`). They differ at most in
the order in which the cells have been made. The formulas may refer to the same cells, to themselves
and to cells that are not there, and may fail.

Each formula comes to what it did at the start, since what is stored for one cell is seen by no
other formula. So what is left of a sheet can be read off the one at the start (`AllEvaluated`): the
cells that are made are those that any of the formulas asks for, and in this the order of the
evaluations does not occur.
-/

namespace SheetCalc.Sheet

open Formula (Evaluator references)

/-! ## Which cells asking makes -/

/-- A label leads to a cell that has still to be made. -/
def Vacant (s : Sheet) (label : Text) : Prop :=
  s.cellsOf label = [] ∧ ∃ p, s.position label = .ok p

open Classical in
/-- The cells with a label after some labels have been asked for. -/
theorem cellsOf_askAll (s : Sheet) (labels : List Text) (label : Text) :
    (resolver.askAll labels s).cellsOf label =
      if label ∈ labels ∧ s.Vacant label then [{ label }] else s.cellsOf label := by
  have grown := grown_askAll s labels
  by_cases made : label ∈ labels ∧ s.Vacant label
  · rw [if_pos made]
    obtain ⟨asked, none_before, p, inside⟩ := made
    rcases grown.cells label with same | ⟨_, made⟩
    · have there := (touched_askAll s asked).there ((grown.position label).trans inside)
      exact absurd (same.trans none_before) there
    · exact made
  · rw [if_neg made]
    rcases grown.cells label with same | ⟨none_before, now⟩
    · exact same
    · obtain ⟨asked, inside⟩ := asked_of_made none_before (now ▸ List.cons_ne_nil _ _)
      exact absurd ⟨asked, none_before, inside⟩ made

open Classical in
/-- It makes no difference in which order labels are asked for, nor how often. -/
theorem cellsOf_askAll_of_mem_iff (s : Sheet) {labels others : List Text}
    (same : ∀ label, label ∈ labels ↔ label ∈ others) (label : Text) :
    (resolver.askAll labels s).cellsOf label = (resolver.askAll others s).cellsOf label := by
  rw [cellsOf_askAll, cellsOf_askAll]
  exact if_congr (and_congr_left' (same label)) rfl rfl

open Classical in
/-- What asking makes of a label depends on the cells with this label only. -/
theorem cellsOf_askAll_congr {s t : Sheet} (position : ∀ label, t.position label = s.position label)
    {label : Text} (same : t.cellsOf label = s.cellsOf label) (labels : List Text) :
    (resolver.askAll labels t).cellsOf label = (resolver.askAll labels s).cellsOf label := by
  have vacant : t.Vacant label ↔ s.Vacant label := by
    unfold Vacant
    rw [same, position]
  rw [cellsOf_askAll, cellsOf_askAll, same]
  exact if_congr (and_congr_right' vacant) rfl rfl

theorem askAll_append (s : Sheet) (labels more : List Text) :
    resolver.askAll (labels ++ more) s = resolver.askAll more (resolver.askAll labels s) :=
  List.foldl_append

/-! ## One cell after the other -/

/-- Cells of which no one occurs in the formula of another one. -/
def Independent (s : Sheet) (labels : List Text) : Prop :=
  labels.Pairwise fun a b => a ≠ b ∧ b ∉ references Label.isLabel (s.formulaOf a) ∧
    a ∉ references Label.isLabel (s.formulaOf b)

theorem Independent.perm {s : Sheet} {labels others : List Text}
    (independent : s.Independent labels) (perm : labels.Perm others) : s.Independent others :=
  (perm.pairwise_iff fun ⟨apart, left, right⟩ => ⟨apart.symm, right, left⟩).mp independent

theorem Independent.congr {s t : Sheet} {labels : List Text}
    (formulas : ∀ label, t.formulaOf label = s.formulaOf label)
    (independent : s.Independent labels) : t.Independent labels := by
  unfold Independent
  simp only [formulas]
  exact independent

/-- All labels that are asked for when some cells are evaluated. -/
def allAsked (s : Sheet) (labels : List Text) : List Text :=
  labels.flatMap fun label => label :: (s.judge label).asked

/-- A cell with what its formula comes to in a sheet. -/
def settle (s : Sheet) (c : Cell) : Cell :=
  { c with
    value := (s.judge c.label).evaluator.result.toValue
    error := (s.judge c.label).evaluator.error }

/-- What independent evaluations leave of a sheet: the cells that are asked for are made, and those
of them that are evaluated hold what their formulas came to at the start. -/
structure AllEvaluated (s t : Sheet) (labels : List Text) : Prop where
  rows : t.rows = s.rows
  cols : t.cols = s.cols
  evaluated : ∀ label ∈ labels, t.cellsOf label =
    ((resolver.askAll (s.allAsked labels) s).cellsOf label).map s.settle
  others : ∀ label, label ∉ labels →
    t.cellsOf label = (resolver.askAll (s.allAsked labels) s).cellsOf label

theorem cellsOf_store_settle (s t : Sheet) (label : Text) :
    (t.store label (s.judge label).evaluator).cellsOf label =
      (t.cellsOf label).map s.settle := by
  rw [cellsOf_store, if_pos rfl]
  refine List.map_congr_left ?_
  intro c there
  unfold settle
  rw [(mem_cellsOf.mp there).2]

section

variable {s t : Sheet} {label : Text} {labels : List Text}

/-- What is evaluated after a cell comes to what it did before it, if it is independent of it. -/
theorem judge_of_independent (framed : Framed s t label)
    (independent : s.Independent (label :: labels)) {other : Text} (there : other ∈ labels) :
    (t.judge other).evaluator = (s.judge other).evaluator ∧
      (t.judge other).asked = (s.judge other).asked := by
  obtain ⟨_, _, unread⟩ := List.rel_of_pairwise_cons independent there
  exact judge_congr (framed.formulaOf other) fun third referred =>
    framed.viewOf third fun same => unread (same ▸ referred)

/-- One more cell is evaluated before the others. -/
theorem AllEvaluated.cons {u : Sheet} {p : Position} (inside : s.position label = .ok p)
    (independent : s.Independent (label :: labels))
    (first : t = (resolver.askAll (label :: (s.judge label).asked) s).store label
      (s.judge label).evaluator)
    (rest : AllEvaluated t u labels) : AllEvaluated s u (label :: labels) := by
  have grown := grown_askAll s (label :: (s.judge label).asked)
  have framed : Framed s t label := first ▸ framed_store grown label _
  have alike {other : Text} (there : other ∈ labels) :=
    judge_of_independent framed independent there
  have same_asked : t.allAsked labels = s.allAsked labels := by
    unfold allAsked
    rw [List.flatMap_congr fun other there => by rw [(alike there).2]]
  have all_asked : resolver.askAll (s.allAsked (label :: labels)) s =
      resolver.askAll (s.allAsked labels) (resolver.askAll (label :: (s.judge label).asked) s) :=
    s.askAll_append (label :: (s.judge label).asked) (s.allAsked labels)
  -- Of another cell the first evaluation leaves what asking for its labels makes of it.
  have away {other : Text} (apart : other ≠ label) :
      (resolver.askAll (t.allAsked labels) t).cellsOf other =
        (resolver.askAll (s.allAsked (label :: labels)) s).cellsOf other := by
    rw [same_asked, all_asked]
    refine cellsOf_askAll_congr (fun other => ?_) ?_ _
    · rw [framed.position, grown.position]
    · rw [first, cellsOf_store, if_neg apart]
  refine ⟨?_, ?_, ?_, ?_⟩
  · rw [rest.rows, first]
    exact grown.rows
  · rw [rest.cols, first]
    exact grown.cols
  · intro other there
    rcases List.mem_cons.mp there with rfl | there
    · have apart : other ∉ labels :=
        fun later => (List.rel_of_pairwise_cons independent later).1 rfl
      -- The cell is there when it has been evaluated, and stays as it is from then on.
      have there := (touched_askAll s List.mem_cons_self).there
        ((grown.position other).trans inside)
      rw [rest.others other apart, (grown_askAll t _).cellsOf, first, cellsOf_store_settle,
        all_asked, (grown_askAll _ _).cellsOf there]
      rw [first, cellsOf_store_settle]
      simpa using there
    · have apart : other ≠ label := (List.rel_of_pairwise_cons independent there).1.symm
      rw [rest.evaluated other there, away apart]
      refine List.map_congr_left ?_
      intro c among
      unfold settle
      rw [(mem_cellsOf.mp among).2, (alike there).1]
  · intro other none_there
    rw [List.mem_cons, not_or] at none_there
    rw [rest.others other none_there.2, away none_there.1]

/-- The cells that independent evaluations leave do not depend on the order of the evaluations. -/
theorem AllEvaluated.sameCells {u : Sheet} {others : List Text} (perm : labels.Perm others)
    (here : AllEvaluated s t labels) (there : AllEvaluated s u others) : SameCells t u := by
  have asked (label : Text) : label ∈ s.allAsked others ↔ label ∈ s.allAsked labels :=
    (perm.flatMap_right _).mem_iff.symm
  refine .of_cellsOf (there.rows.trans here.rows.symm) (there.cols.trans here.cols.symm) ?_
  intro label
  by_cases evaluated : label ∈ labels
  · rw [here.evaluated label evaluated, there.evaluated label (perm.mem_iff.mp evaluated),
      s.cellsOf_askAll_of_mem_iff asked]
  · rw [here.others label evaluated, there.others label (mt perm.mem_iff.mpr evaluated),
      s.cellsOf_askAll_of_mem_iff asked]

end

/-- **What independent evaluations come to.** Each cell comes to what its formula says of the sheet
at the start. -/
theorem evaluateEach_independent (s : Sheet) {labels : List Text}
    (inside : ∀ label ∈ labels, ∃ p, s.position label = .ok p)
    (independent : s.Independent labels) :
    ∃ t, s.evaluateEach labels = .ok (labels.map fun label => (s.judge label).evaluator, t) ∧
      AllEvaluated s t labels := by
  induction labels generalizing s with
  | nil => exact ⟨s, rfl, rfl, rfl, fun _ none_there => (nomatch none_there), fun _ _ => rfl⟩
  | cons label labels ih =>
      obtain ⟨p, here⟩ := inside label List.mem_cons_self
      have ran := s.evaluateCell_eq here
      generalize first : (resolver.askAll (label :: (s.judge label).asked) s).store label
        (s.judge label).evaluator = t at ran
      have framed : Framed s t label := first ▸ framed_store (grown_askAll s _) label _
      have inside_now : ∀ later ∈ labels, ∃ p, t.position later = .ok p := by
        intro later there
        rw [framed.position]
        exact inside later (List.mem_cons_of_mem _ there)
      have alike := List.map_congr_left fun other there =>
        (judge_of_independent framed independent there).1
      have later : s.Independent labels := List.Pairwise.of_cons independent
      obtain ⟨u, rest, evaluated⟩ := ih t inside_now (later.congr framed.formulaOf)
      rw [alike] at rest
      exact ⟨u, evaluateEach_cons.mpr ⟨t, ran, rest⟩, .cons here independent first.symm evaluated⟩

/-- Independent evaluations may be made in any order: each cell comes to the same, and the same
cells are left. -/
theorem evaluateEach_perm (s : Sheet) {labels others : List Text} (perm : labels.Perm others)
    (inside : ∀ label ∈ labels, ∃ p, s.position label = .ok p)
    (independent : s.Independent labels) :
    ∃ (outcome : Text → Evaluator) (t u : Sheet),
      s.evaluateEach labels = .ok (labels.map outcome, t) ∧
        s.evaluateEach others = .ok (others.map outcome, u) ∧ SameCells t u := by
  obtain ⟨t, ran, evaluated⟩ := s.evaluateEach_independent inside independent
  obtain ⟨u, ran_others, evaluated_others⟩ := s.evaluateEach_independent
    (fun label there => inside label (perm.mem_iff.mpr there)) (independent.perm perm)
  exact ⟨fun label => (s.judge label).evaluator, t, u, ran, ran_others,
    evaluated.sameCells perm evaluated_others⟩

/-! ## Two cells -/

/-- **Independent evaluations commute.** Two cells in the grid of which neither occurs in the
other's formula may be evaluated in either order: both come to the same, and the sheets that are
left have the same cells, with the same formulas, values and errors. The formulas may refer to the
same cells and to themselves, fail, and make cells. -/
theorem evaluateCell_comm (s : Sheet) {a b : Text} {p q : Position}
    (inside_a : s.position a = .ok p) (inside_b : s.position b = .ok q) (apart : a ≠ b)
    (unread_b : b ∉ references Label.isLabel (s.formulaOf a))
    (unread_a : a ∉ references Label.isLabel (s.formulaOf b)) :
    ∃ evA evB s₁ s₂ t u,
      s.evaluateCell a {} = .ok (evA, s₁) ∧ s₁.evaluateCell b {} = .ok (evB, t) ∧
        s.evaluateCell b {} = .ok (evB, s₂) ∧ s₂.evaluateCell a {} = .ok (evA, u) ∧
        SameCells t u := by
  have inside : ∀ label ∈ [a, b], ∃ p, s.position label = .ok p := by
    simp only [List.mem_cons, List.not_mem_nil, or_false]
    rintro label (rfl | rfl)
    · exact ⟨p, inside_a⟩
    · exact ⟨q, inside_b⟩
  have independent : s.Independent [a, b] :=
    List.pairwise_pair.mpr ⟨apart, unread_b, unread_a⟩
  obtain ⟨outcome, t, u, ran, ran_back, same⟩ :=
    s.evaluateEach_perm (.swap b a []) inside independent
  obtain ⟨s₁, first, later⟩ := evaluateEach_cons.mp ran
  obtain ⟨_, second, ended⟩ := evaluateEach_cons.mp later
  cases ended
  obtain ⟨s₂, first_back, later_back⟩ := evaluateEach_cons.mp ran_back
  obtain ⟨_, second_back, ended⟩ := evaluateEach_cons.mp later_back
  cases ended
  exact ⟨outcome a, outcome b, s₁, s₂, _, _, first, second, first_back, second_back, same⟩

/-- A formula that refers to its own cell, and another one that refers to a cell which the first one
refers to as well. Both stop at a cell that is not there. These two cells are made in different
orders. -/
theorem evaluateCell_comm_shared :
    let s : Sheet :=
      { rows := 2, cols := 4, rows_pos := by decide, cols_pos := by decide
        cells := [{ label := "A1", formula := ["A1", "*", "C1", "-", "D1"], value := .int 3 },
          { label := "B1", formula := ["C1", "/", "D2"] },
          { label := "C1", formula := ["8", "/", "2"], value := .float 4 }] }
    ∃ evA evB s₁ s₂ t u,
      s.evaluateCell "A1" {} = .ok (evA, s₁) ∧ s₁.evaluateCell "B1" {} = .ok (evB, t) ∧
        s.evaluateCell "B1" {} = .ok (evB, s₂) ∧ s₂.evaluateCell "A1" {} = .ok (evA, u) ∧
        SameCells t u ∧ t.cells.map Cell.label = [("A1" : Text), "B1", "C1", "D1", "D2"] ∧
        u.cells.map Cell.label = [("A1" : Text), "B1", "C1", "D2", "D1"] := by
  intro s
  have inside_a : s.position "A1" = .ok ⟨0, 0⟩ := by decide +kernel
  have inside_b : s.position "B1" = .ok ⟨0, 1⟩ := by decide +kernel
  obtain ⟨evA, evB, s₁, s₂, t, u, first, second, first_back, second_back, same⟩ :=
    evaluateCell_comm s inside_a inside_b (by decide) (by decide +kernel) (by decide +kernel)
  have made (a b : Text) {evA evB : Evaluator} {s' t : Sheet}
      (first : s.evaluateCell a {} = .ok (evA, s')) (second : s'.evaluateCell b {} = .ok (evB, t)) :
      (s.evaluateEach [a, b]).toOption.map (fun done => done.2.cells.map Cell.label) =
        some (t.cells.map Cell.label) := by
    rw [evaluateEach_cons.mpr ⟨s', first, evaluateEach_cons.mpr ⟨t, second, rfl⟩⟩]
    rfl
  refine ⟨evA, evB, s₁, s₂, t, u, first, second, first_back, second_back, same, ?_, ?_⟩
  · exact Option.some.inj ((made "A1" "B1" first second).symm.trans (by decide +kernel))
  · exact Option.some.inj ((made "B1" "A1" first_back second_back).symm.trans (by decide +kernel))

end SheetCalc.Sheet
