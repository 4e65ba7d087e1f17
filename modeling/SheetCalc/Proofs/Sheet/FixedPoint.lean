import SheetCalc.Proofs.Sheet.Sight

/-!
# Evaluation in the order of dependency

When the cells of a sheet are evaluated one after the other, each after those that its formula
refers to, the sheet comes to a fixed point: evaluating any of these cells again, in any order and
any number of times, leaves the sheet as it is and comes to what is stored (`evaluateEach_fixed`).

The invariant is that a cell which has been evaluated is `Settled`: what is stored in it is what its
formula comes to now, and its formula makes no cell any more. The evaluation of another cell that
its formula does not refer to keeps it settled (`Settled.kept`), because that evaluation changes
what the sheet says of no other label (`evaluateCell_spec`).
-/

namespace SheetCalc.Sheet

open Formula (Evaluator Report references)

/-- Evaluates the formulas of some cells one after the other, each with a new evaluator. -/
def evaluateEach (s : Sheet) : List Text → Except LabelError (List Evaluator × Sheet)
  | [] => .ok ([], s)
  | label :: labels =>
    match s.evaluateCell label {} with
    | .error e => .error e
    | .ok (ev, s) => (s.evaluateEach labels).map fun (evs, s) => (ev :: evs, s)

/-- No formula refers to its own cell or to one that comes later. -/
def Ordered (s : Sheet) : List Text → Prop
  | [] => True
  | label :: labels =>
    (∀ later ∈ label :: labels, later ∉ references Label.isLabel (s.formulaOf label)) ∧
      s.Ordered labels

/-- The value and the error of the cell with a label. -/
def stored? (s : Sheet) (label : Text) : Option (Value × Text) :=
  (s.find? label).map fun c => (c.value, c.error)

/-- What the formula of a cell comes to. -/
def judge (s : Sheet) (label : Text) : Report Sheet :=
  Formula.evaluate resolver (s.formulaOf label) s

/-- Stores what an evaluator has kept in the cells with a label. -/
def store (s : Sheet) (label : Text) (ev : Evaluator) : Sheet :=
  s.modify label ({ · with value := ev.result.toValue, error := ev.error })

/-- All cells with a label hold what an evaluator has kept. -/
def Stores (s : Sheet) (label : Text) (ev : Evaluator) : Prop :=
  ∀ c ∈ s.cellsOf label, c.value = ev.result.toValue ∧ c.error = ev.error

/-! ## Storing -/

theorem cellsOf_store (s : Sheet) (label : Text) (ev : Evaluator) (other : Text) :
    (s.store label ev).cellsOf other =
      if other = label then
        (s.cellsOf label).map ({ · with value := ev.result.toValue, error := ev.error })
      else s.cellsOf other := by
  unfold store
  apply cellsOf_modify
  intro c here
  exact here

theorem stores_store (s : Sheet) (label : Text) (ev : Evaluator) :
    (s.store label ev).Stores label ev := by
  intro c there
  rw [cellsOf_store, if_pos rfl] at there
  obtain ⟨c', _, rfl⟩ := List.mem_map.mp there
  exact ⟨rfl, rfl⟩

theorem store_eq_self {s : Sheet} {label : Text} {ev : Evaluator} (stores : s.Stores label ev) :
    s.store label ev = s := by
  unfold store modify
  have kept : (s.cells.map fun c =>
      if (c.label == label) = true then
        { c with value := ev.result.toValue, error := ev.error }
      else c) = s.cells := by
    refine (List.map_congr_left ?_).trans (List.map_id _)
    intro c hc
    by_cases same : (c.label == label) = true
    · obtain ⟨value, error⟩ := stores c (List.mem_filter.mpr ⟨hc, same⟩)
      rw [if_pos same, ← value, ← error]
      rfl
    · rw [if_neg same]
      rfl
  rw [kept]

/-! ## One evaluation -/

/-- What a formula comes to depends only on what the sheet says of the labels in it. -/
theorem judge_congr {s t : Sheet} {label : Text} (formula : t.formulaOf label = s.formulaOf label)
    (views : ∀ other ∈ references Label.isLabel (s.formulaOf label),
      t.viewOf other = s.viewOf other) :
    (t.judge label).evaluator = (s.judge label).evaluator ∧
      (t.judge label).asked = (s.judge label).asked := by
  unfold judge Formula.evaluate
  rw [formula]
  exact evaluate_congr (fun other there => Formula.Resolver.lookUp_congr (views other there)) {}

/-- What becomes of a sheet when the formula of a cell is evaluated. -/
theorem memory_judge (s : Sheet) (label : Text) :
    (s.judge label).memory = resolver.askAll (s.judge label).asked s :=
  Formula.memory_run resolver (s.formulaOf label) s

/-- A sheet in which something has become of one cell, and of all others at most that they are there
now. -/
structure Framed (s t : Sheet) (label : Text) : Prop where
  position : ∀ other, t.position other = s.position other
  formulaOf : ∀ other, t.formulaOf other = s.formulaOf other
  viewOf : ∀ other, other ≠ label → t.viewOf other = s.viewOf other
  touched : ∀ other, s.Touched other → t.Touched other
  cellsOf : ∀ other, other ≠ label → s.cellsOf other ≠ [] → t.cellsOf other = s.cellsOf other

theorem framed_store {s t : Sheet} (grown : Grown s t) (label : Text) (ev : Evaluator) :
    Framed s (t.store label ev) label := by
  have position (other : Text) : (t.store label ev).position other = t.position other := rfl
  have away (other : Text) (apart : other ≠ label) :
      (t.store label ev).cellsOf other = t.cellsOf other := by
    rw [cellsOf_store, if_neg apart]
  refine ⟨grown.position, ?_, ?_, ?_, ?_⟩
  · intro other
    rw [← grown.formulaOf]
    unfold Sheet.formulaOf
    rw [find?_eq, find?_eq, cellsOf_store]
    by_cases same : other = label
    · rw [if_pos same, same]
      cases t.cellsOf label <;> rfl
    · rw [if_neg same]
  · intro other apart
    rw [← grown.viewOf, viewOf_eq, viewOf_eq, position, away other apart]
  · intro other touched
    rcases touched.grown grown with there | refused
    · refine .inl ?_
      rw [cellsOf_store]
      by_cases same : other = label
      · rw [if_pos same]
        subst same
        simpa using there
      · rwa [if_neg same]
    · exact .inr refused
  · intro other apart there
    rw [away other apart, grown.cellsOf there]

/-- What the evaluation of a cell leaves of a sheet: what its formula comes to is stored in it, the
labels asked for are touched, and no other cell is changed. -/
structure Evaluated (s t : Sheet) (label : Text) : Prop where
  framed : Framed s t label
  touched : t.Touched label
  asked : ∀ other ∈ (s.judge label).asked, t.Touched other
  stored : t.Stores label (s.judge label).evaluator

/-- One evaluation asks for its cell and for all that the formula asks for, and then stores what the
formula comes to. -/
theorem evaluateCell_eq (s : Sheet) {label : Text} {p : Position}
    (inside : s.position label = .ok p) :
    s.evaluateCell label {} = .ok ((s.judge label).evaluator,
      (resolver.askAll (label :: (s.judge label).asked) s).store label
        (s.judge label).evaluator) := by
  -- The cell is made before its formula is evaluated, which shows in nothing that formulas read.
  have first := s.grown_touch label
  obtain ⟨evaluator, asked⟩ := judge_congr (first.formulaOf label) fun other _ => first.viewOf other
  have memory := memory_judge (s.touch label) label
  rw [asked] at memory
  show _ = Except.ok (_, (resolver.askAll (s.judge label).asked (s.touch label)).store label _)
  rw [← evaluator, ← memory]
  unfold evaluateCell
  rw [cell_eq s inside]
  show _ = Except.ok (((s.touch label).judge label).evaluator, _)
  unfold judge
  rw [first.formulaOf]
  rfl

/-- **What one evaluation does.** The formula of a cell comes to what it says, and that is
stored. -/
theorem evaluateCell_spec (s : Sheet) {label : Text} {p : Position}
    (inside : s.position label = .ok p) :
    ∃ t, s.evaluateCell label {} = .ok ((s.judge label).evaluator, t) ∧ Evaluated s t label := by
  have asked (other : Text) (there : other ∈ label :: (s.judge label).asked) :
      ((resolver.askAll (label :: (s.judge label).asked) s).store label
        (s.judge label).evaluator).Touched other :=
    (framed_store (.refl _) label _).touched other (touched_askAll s there)
  exact ⟨_, s.evaluateCell_eq inside, framed_store (grown_askAll s _) label _,
    asked label List.mem_cons_self, fun other there => asked other (List.mem_cons_of_mem _ there),
    stores_store _ label _⟩

/-! ## Settled cells -/

/-- What is stored in a cell is what its formula comes to now, and all that its formula asks for is
there or refused. -/
structure Settled (s : Sheet) (label : Text) : Prop where
  inside : ∃ p, s.position label = .ok p
  there : s.cellsOf label ≠ []
  asked : ∀ other ∈ (s.judge label).asked, s.Touched other
  stored : s.Stores label (s.judge label).evaluator

/-- Evaluating a settled cell changes nothing and comes to what is stored in it. -/
theorem Settled.evaluateCell {s : Sheet} {label : Text} (settled : s.Settled label) :
    s.evaluateCell label {} = .ok ((s.judge label).evaluator, s) ∧
      s.stored? label = some ((s.judge label).evaluator.result.toValue,
        (s.judge label).evaluator.error) := by
  obtain ⟨p, inside⟩ := settled.inside
  have untouched : s.touch label = s := touch_of_touched (.inl settled.there)
  have memory : (s.judge label).memory = s := by
    rw [memory_judge]
    exact askAll_of_touched settled.asked
  constructor
  · have kept := store_eq_self settled.stored
    unfold Sheet.evaluateCell
    rw [cell_eq s inside, untouched]
    show Except.ok ((s.judge label).evaluator,
      (s.judge label).memory.store label (s.judge label).evaluator) = _
    rw [memory, kept]
  · unfold stored?
    rw [find?_eq]
    cases hc : s.cellsOf label with
    | nil => exact absurd hc settled.there
    | cons c cs =>
        obtain ⟨value, error⟩ := settled.stored c (hc ▸ List.mem_cons_self)
        simp only [List.head?_cons, Option.map_some, value, error]

section

variable {s t : Sheet} {label : Text}

/-- A cell is settled after its evaluation, if its formula does not refer to it. -/
theorem settled_of_evaluated {p : Position} (inside : s.position label = .ok p)
    (evaluated : Evaluated s t label)
    (apart : label ∉ references Label.isLabel (s.formulaOf label)) : t.Settled label := by
  obtain ⟨framed, touched, asked, stored⟩ := evaluated
  obtain ⟨evaluator, same_asked⟩ := judge_congr (framed.formulaOf label) fun other there =>
    framed.viewOf other fun same => apart (same ▸ there)
  have inside : t.position label = .ok p := framed.position label ▸ inside
  refine ⟨⟨p, inside⟩, touched.there inside, ?_, ?_⟩
  · rw [same_asked]
    exact asked
  · rw [evaluator]
    exact stored

/-- A settled cell is settled after the evaluation of another one that its formula does not refer
to. -/
theorem Settled.kept {other : Text} (settled : s.Settled other) (framed : Framed s t label)
    (different : other ≠ label)
    (apart : label ∉ references Label.isLabel (s.formulaOf other)) : t.Settled other := by
  obtain ⟨evaluator, same_asked⟩ := judge_congr (framed.formulaOf other) fun third there =>
    framed.viewOf third fun same => apart (same ▸ there)
  have cells := framed.cellsOf other different settled.there
  obtain ⟨p, inside⟩ := settled.inside
  refine ⟨⟨p, framed.position other ▸ inside⟩, cells ▸ settled.there, ?_, ?_⟩
  · intro third there
    rw [same_asked] at there
    exact framed.touched third (settled.asked third there)
  · unfold Stores
    rw [evaluator, cells]
    exact settled.stored

end

/-! ## Many evaluations -/

/-- The order of dependency depends only on the formulas. -/
theorem Ordered.congr {s t : Sheet} (formulas : ∀ label, t.formulaOf label = s.formulaOf label)
    {labels : List Text} (ordered : s.Ordered labels) : t.Ordered labels := by
  induction labels with
  | nil => trivial
  | cons label labels ih =>
      refine ⟨?_, ih ordered.2⟩
      rw [formulas label]
      exact ordered.1

theorem evaluateEach_cons {s u : Sheet} {label : Text} {labels : List Text} {ev : Evaluator}
    {evs : List Evaluator} :
    s.evaluateEach (label :: labels) = .ok (ev :: evs, u) ↔
      ∃ t, s.evaluateCell label {} = .ok (ev, t) ∧ t.evaluateEach labels = .ok (evs, u) := by
  rw [evaluateEach]
  rcases s.evaluateCell label {} with e | ⟨ev', t⟩
  · simp
  · cases rest : t.evaluateEach labels <;> grind [Except.map]

/-- Evaluating cells in the order of dependency settles them, and keeps settled what was so before
and refers to none of them. -/
theorem settled_evaluateEach (s : Sheet) {labels done : List Text}
    (inside : ∀ label ∈ labels, ∃ p, s.position label = .ok p) (ordered : s.Ordered labels)
    (settled : ∀ label ∈ done, s.Settled label)
    (apart : ∀ label ∈ done, ∀ later ∈ labels,
      later ∉ references Label.isLabel (s.formulaOf label)) :
    ∃ evs t, s.evaluateEach labels = .ok (evs, t) ∧
      ∀ label, label ∈ done ∨ label ∈ labels → t.Settled label := by
  induction labels generalizing s done with
  | nil =>
      refine ⟨[], s, rfl, ?_⟩
      rintro label (before | none_there)
      · exact settled label before
      · cases none_there
  | cons label labels ih =>
      obtain ⟨p, here⟩ := inside label List.mem_cons_self
      obtain ⟨t, ran, evaluated⟩ := s.evaluateCell_spec here
      have framed := evaluated.framed
      -- The new cell is settled since its formula does not refer to it, and the earlier ones
      -- stay so since theirs do not refer to it either.
      have itself := ordered.1 label List.mem_cons_self
      have settled_now := settled_of_evaluated here evaluated itself
      have inside_now : ∀ later ∈ labels, ∃ p, t.position later = .ok p := by
        intro later there
        rw [framed.position]
        exact inside later (List.mem_cons_of_mem _ there)
      have all_settled : ∀ other ∈ label :: done, t.Settled other := by
        intro other there
        by_cases same : other = label
        · exact same ▸ settled_now
        · have before := (List.mem_cons.mp there).resolve_left same
          exact (settled other before).kept framed same
            (apart other before label List.mem_cons_self)
      have all_apart : ∀ other ∈ label :: done, ∀ later ∈ labels,
          later ∉ references Label.isLabel (t.formulaOf other) := by
        intro other there later behind
        rw [framed.formulaOf]
        rcases List.mem_cons.mp there with rfl | before
        · exact ordered.1 later (List.mem_cons_of_mem _ behind)
        · exact apart other before later (List.mem_cons_of_mem _ behind)
      obtain ⟨evs, u, rest, settled_all⟩ :=
        ih t inside_now (ordered.2.congr framed.formulaOf) all_settled all_apart
      refine ⟨(s.judge label).evaluator :: evs, u, evaluateEach_cons.mpr ⟨t, ran, rest⟩, ?_⟩
      rintro other (before | there)
      · exact settled_all other (.inl (List.mem_cons_of_mem _ before))
      · rcases List.mem_cons.mp there with rfl | behind
        · exact settled_all other (.inl List.mem_cons_self)
        · exact settled_all other (.inr behind)

/-- Settled cells are evaluated to what is stored in them, and nothing is changed. -/
theorem evaluateEach_of_settled {s : Sheet} {calls : List Text}
    (settled : ∀ label ∈ calls, s.Settled label) :
    ∃ evs, s.evaluateEach calls = .ok (evs, s) ∧
      evs.map (fun ev => some (ev.result.toValue, ev.error)) = calls.map s.stored? := by
  induction calls with
  | nil => exact ⟨[], rfl, rfl⟩
  | cons label calls ih =>
      obtain ⟨evaluated, stored⟩ := (settled label List.mem_cons_self).evaluateCell
      obtain ⟨evs, rest, all_stored⟩ := ih fun other there =>
        settled other (List.mem_cons_of_mem _ there)
      refine ⟨(s.judge label).evaluator :: evs, evaluateEach_cons.mpr ⟨s, evaluated, rest⟩, ?_⟩
      rw [List.map_cons, List.map_cons, stored, all_stored]

/-- **Evaluating in the order of dependency reaches a fixed point.** After the cells of some labels
in the grid have been evaluated, each after those that its formula refers to, evaluating any of them
again, in any order and any number of times, leaves the sheet as it is, and each comes to the value
and the error that are stored in it. Their formulas may refer to any other labels, and fail. -/
theorem evaluateEach_fixed (s : Sheet) {labels : List Text}
    (inside : ∀ label ∈ labels, ∃ p, s.position label = .ok p) (ordered : s.Ordered labels) :
    ∃ evs t, s.evaluateEach labels = .ok (evs, t) ∧
      ∀ calls : List Text, (∀ label ∈ calls, label ∈ labels) →
        ∃ again, t.evaluateEach calls = .ok (again, t) ∧
          again.map (fun ev => some (ev.result.toValue, ev.error)) = calls.map t.stored? := by
  have none_settled : ∀ label ∈ ([] : List Text), s.Settled label := by
    intro label none_there
    cases none_there
  have none_apart : ∀ label ∈ ([] : List Text), ∀ later ∈ labels,
      later ∉ references Label.isLabel (s.formulaOf label) := by
    intro label none_there
    cases none_there
  obtain ⟨evs, t, evaluated, settled⟩ :=
    s.settled_evaluateEach inside ordered none_settled none_apart
  refine ⟨evs, t, evaluated, ?_⟩
  intro calls within
  exact evaluateEach_of_settled fun label there => settled label (.inr (within label there))

/-- A cell that holds a quotient is evaluated after its dividend. Its divisor is not there, which
makes it fail each time. -/
theorem evaluateEach_fixed_quotient :
    let s : Sheet :=
      { rows := 2, cols := 3, rows_pos := by decide, cols_pos := by decide
        cells := [{ label := "A1", formula := ["B1", "/", "C1"] },
          { label := "B1", formula := ["2"] }] }
    ∃ evs t, s.evaluateEach ["B1", "A1"] = .ok (evs, t) ∧
      ∃ again, t.evaluateEach ["A1", "B1", "A1"] = .ok (again, t) ∧
        again.map (fun ev => some (ev.result.toValue, ev.error)) =
          (["A1", "B1", "A1"] : List Text).map t.stored? := by
  intro s
  have inside : ∀ label ∈ (["B1", "A1"] : List Text), ∃ p, s.position label = .ok p := by
    intro label there
    rcases List.mem_cons.mp there with rfl | there
    · exact ⟨⟨0, 1⟩, by rfl⟩
    · rw [List.mem_singleton.mp there]
      exact ⟨⟨0, 0⟩, by rfl⟩
  have ordered : s.Ordered ["B1", "A1"] := ⟨by decide +kernel, by decide +kernel, trivial⟩
  obtain ⟨evs, t, evaluated, again⟩ := evaluateEach_fixed s inside ordered
  exact ⟨evs, t, evaluated, again ["A1", "B1", "A1"] (by decide)⟩

end SheetCalc.Sheet
