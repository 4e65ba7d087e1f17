import SheetCalc.Proofs.Sheet.Calls

/-!
# Sharing an evaluator

An evaluation without a result leaves in its cell what its evaluator has from before: with an
evaluator that is shared the result of some other cell, and with a new one the blank result. Such a
value is left over. There is an error over it, and formulas read it only if that is the error of an
empty formula and the cell has a formula again.

As long as no value that is left over is read by a formula, and the error over none of them is
cleared (`careful`), nobody sees whether an evaluator is shared (`sharing_unseen`). Otherwise it is
seen in the errors of other cells (`sharing_seen`).

The invariant is that the two sheets are the same when the values that are left over are blotted out
(`Veiled`).
-/

namespace SheetCalc

/-- A cell as it is seen from outside, where an error hides the value. -/
def Cell.face (c : Cell) : Cell :=
  if c.error = {} then c else { c with value := .null }

/-- Whether a formula reads the value of a cell that it refers to. -/
def Formula.CellView.isRead (view : CellView) : Bool :=
  (view.error.isEmpty || view.error == emptyFormula) && view.hasFormula

namespace Sheet

open Formula (Ending Evaluator)

/-- A sheet as it is seen from outside. -/
def face (s : Sheet) : Sheet :=
  { s with cells := s.cells.map Cell.face }

/-- The evaluator and the sheet after some calls that share the evaluator. -/
def sharing (s : Sheet) (ev : Evaluator) : List Call → Evaluator × Sheet
  | [] => (ev, s)
  | call :: calls => (s.after ev call).2.sharing (s.after ev call).1 calls

/-- A sheet after some calls, each of which has a new evaluator. -/
def renewing (s : Sheet) : List Call → Sheet
  | [] => s
  | call :: calls => (s.after {} call).2.renewing calls

/-! ## Values that are left over -/

/-- How the evaluation of a cell ends. -/
def ending (s : Sheet) (label : Text) : Ending :=
  (Formula.run resolver (s.formulaOf label) (s.touch label)).1

/-- The labels of the cells whose values are left over, after a call. -/
def leftAfter (s : Sheet) (left : List Text) (call : Call) : List Text :=
  match s.refusal? call, call with
  | none, .setValue label _ => left.filter (· != label)
  | none, .evaluate label =>
    if (s.ending label).result?.isNone then label :: left else left.filter (· != label)
  | _, _ => left

/-- Whether a formula that refers to a label reads the value of its cell. -/
def readsValue (s : Sheet) (label : Text) : Bool :=
  match s.viewOf label with
  | .ok view => view.isRead
  | .error _ => false

/-- Whether a call reads a value that is left over, or clears the error over it. -/
def uncovers (s : Sheet) (left : List Text) : Call → Bool
  | .setError label error => error.isEmpty && left.contains label
  | .evaluate label => reads (s.report {} label).asked
  | .evaluateTokens tokens => reads (Formula.evaluate resolver tokens s).asked
  | _ => false
where
  /-- Whether looking up some labels reads a value that is left over. -/
  reads (labels : List Text) : Bool :=
    labels.any fun label => left.contains label && s.readsValue label

/-- Whether no call of a row uncovers a value that is left over. -/
def careful (s : Sheet) (left : List Text) : List Call → Bool
  | [] => true
  | call :: calls =>
    !s.uncovers left call && (s.after {} call).2.careful (s.leftAfter left call) calls

end Sheet

/-! ## Blotting out -/

/-- A cell whose value is blotted out if it is left over. -/
def Cell.blot (left : List Text) (c : Cell) : Cell :=
  if c.label ∈ left then { c with value := .int 0 } else c

section

variable {left : List Text} {c d : Cell}

theorem Cell.blot_left (there : c.label ∈ left) : c.blot left = { c with value := .int 0 } :=
  if_pos there

theorem Cell.blot_other (other : c.label ∉ left) : c.blot left = c :=
  if_neg other

theorem Cell.label_blot (left : List Text) (c : Cell) : (c.blot left).label = c.label := by
  unfold blot
  split <;> rfl

theorem Cell.formula_blot (left : List Text) (c : Cell) : (c.blot left).formula = c.formula := by
  unfold blot
  split <;> rfl

theorem Cell.error_blot (left : List Text) (c : Cell) : (c.blot left).error = c.error := by
  unfold blot
  split <;> rfl

theorem Cell.blot_congr {left' : List Text} (same : c.label ∈ left' ↔ c.label ∈ left) :
    c.blot left' = c.blot left := by
  simp only [blot, same]

theorem Cell.blot_replaced (left : List Text) (c : Cell) (value : Value) (error : Text) :
    { c.blot left with value, error } = { c with value, error } := by
  unfold blot
  split <;> rfl

theorem Cell.face_blot (covered : c.label ∈ left → c.error ≠ {}) : (c.blot left).face = c.face := by
  by_cases there : c.label ∈ left
  · rw [blot_left there]
    unfold face
    rw [if_neg (covered there), if_neg (covered there)]
  · rw [blot_other there]

end

/-- What a formula makes of a cell whose value it does not read does not depend on it. -/
theorem Formula.CellView.operand_of_not_read {view : CellView} (unread : view.isRead = false)
    (value : Value) (label : Text) : { view with value }.operand label = view.operand label := by
  unfold operand
  simp only
  split
  · rfl
  · next passed =>
      split
      · next formula =>
          unfold isRead at unread
          simp only [formula, Bool.and_true, Bool.or_eq_false_iff] at unread
          exact absurd (by simp [unread.1, bne, unread.2]) passed
      · rfl

namespace Sheet

open Formula (Ending Evaluator)

/-- A sheet in which the values that are left over are blotted out. -/
def blotted (s : Sheet) (left : List Text) : Sheet :=
  { s with cells := s.cells.map (Cell.blot left) }

theorem cellsOf_blotted (s : Sheet) (left : List Text) (label : Text) :
    (s.blotted left).cellsOf label = (s.cellsOf label).map (Cell.blot left) := by
  unfold blotted cellsOf
  rw [List.filter_map]
  have labels :
      (fun c : Cell => c.label == label) ∘ Cell.blot left = fun c => c.label == label := by
    funext c
    simp only [Function.comp, Cell.label_blot]
  rw [labels]

theorem blotted_touch (s : Sheet) (left : List Text) (label : Text) :
    (s.touch label).blotted left = (s.blotted left).touch label := by
  have position : (s.blotted left).position label = s.position label := rfl
  rw [touch_eq, touch_eq, position, cellsOf_blotted]
  cases s.position label with
  | error e => rfl
  | ok p =>
      cases s.cellsOf label with
      | cons c cs => rfl
      | nil =>
          have fresh : Cell.blot left { label } = { label } := by
            unfold Cell.blot
            split <;> rfl
          simp only [blotted, List.map_append, List.map_cons, List.map_nil, fresh]

theorem blotted_modify (s : Sheet) (label : Text) {left left' : List Text} {f g : Cell → Cell}
    (here : ∀ c : Cell, c.label = label → (f c).blot left' = g (c.blot left))
    (others : ∀ c : Cell, c.label ≠ label → c.blot left' = c.blot left) :
    (s.modify label f).blotted left' = (s.blotted left).modify label g := by
  unfold blotted modify
  simp only [List.map_map]
  congr 1
  refine List.map_congr_left ?_
  intro c _
  simp only [Function.comp, Cell.label_blot]
  by_cases same : c.label = label
  · rw [if_pos (beq_iff_eq.mpr same), if_pos (beq_iff_eq.mpr same), here c same]
  · rw [if_neg (by simpa using same), if_neg (by simpa using same), others c same]

/-! ## Evaluations of sheets that are the same but for what is left over -/

theorem operand_of_blot {left : List Text} {c d : Cell} (same : d.blot left = c.blot left)
    (hidden : c.label ∈ left → c.view.isRead = false) (label : Text) :
    d.view.operand label = c.view.operand label := by
  have label_same : d.label = c.label := by rw [← d.label_blot left, same, c.label_blot]
  have formula : d.formula = c.formula := by rw [← d.formula_blot left, same, c.formula_blot]
  have error : d.error = c.error := by rw [← d.error_blot left, same, c.error_blot]
  by_cases there : c.label ∈ left
  · have view : d.view = { c.view with value := d.value } := by
      unfold Cell.view
      rw [formula, error]
    rw [view]
    exact Formula.CellView.operand_of_not_read (hidden there) d.value label
  · have other : d.label ∉ left := label_same ▸ there
    rw [Cell.blot_other there, Cell.blot_other other] at same
    rw [same]

theorem first_blotted (s : Sheet) (left : List Text) (label : Text) :
    (s.blotted left).first label = (s.first label).blot left := by
  unfold first
  rw [cellsOf_blotted]
  cases s.cellsOf label with
  | nil =>
      unfold Cell.blot
      split <;> rfl
  | cons c cs => rfl

section

variable {left : List Text} {s t : Sheet} (same : t.blotted left = s.blotted left)

include same

theorem position_of_blotted (label : Text) : t.position label = s.position label := by
  show (t.blotted left).position label = (s.blotted left).position label
  rw [same]

theorem first_of_blotted (label : Text) :
    (t.first label).blot left = (s.first label).blot left := by
  rw [← first_blotted, ← first_blotted, same]

theorem formulaOf_of_blotted (label : Text) : t.formulaOf label = s.formulaOf label := by
  rw [formulaOf_eq, formulaOf_eq, ← (t.first label).formula_blot left, first_of_blotted same,
    Cell.formula_blot]

theorem touch_of_blotted (label : Text) :
    (t.touch label).blotted left = (s.touch label).blotted left := by
  rw [blotted_touch, blotted_touch, same]

/-- A label leads to the same operand, unless a value that is left over is read. -/
theorem lookUp_of_blotted {label : Text} (hidden : label ∈ left → s.readsValue label = false) :
    (resolver.lookUp label t).1 = (resolver.lookUp label s).1 := by
  rw [resolver.lookUp_eq, resolver.lookUp_eq]
  show Formula.Answer.operand ⟨label, t.viewOf label⟩ =
    Formula.Answer.operand ⟨label, s.viewOf label⟩
  unfold readsValue at hidden
  rw [viewOf_eq] at hidden
  rw [viewOf_eq, viewOf_eq, position_of_blotted same]
  cases hp : s.position label with
  | error e => rfl
  | ok p =>
      rw [hp] at hidden
      have unread : (s.first label).label ∈ left → (s.first label).view.isRead = false := by
        rw [label_first]
        exact hidden
      exact operand_of_blot (first_of_blotted same label) unread label

theorem run_of_blotted {tokens : List Text}
    (hidden : ∀ label ∈ (Formula.run resolver tokens s).2.1, label ∈ left →
      s.readsValue label = false) :
    (Formula.run resolver tokens t).1 = (Formula.run resolver tokens s).1 ∧
      (Formula.run resolver tokens t).2.2.blotted left =
        (Formula.run resolver tokens s).2.2.blotted left := by
  -- Sheets that have grown on the way read the same values as at the beginning.
  have agree : Formula.Agree resolver resolver (Formula.run resolver tokens s).2.1 fun m m' =>
      Grown s m ∧ m'.blotted left = m.blotted left := by
    refine ⟨rfl, ?_, ?_⟩
    · rintro label asked m m' ⟨grown, alike⟩
      refine lookUp_of_blotted alike fun there => ?_
      unfold readsValue
      rw [grown.viewOf]
      exact hidden label asked there
    · rintro label _ m m' ⟨grown, alike⟩
      exact ⟨grown.trans (m.grown_touch label), touch_of_blotted alike label⟩
  obtain ⟨ending, _, _, memory⟩ := Formula.run_alike agree (fun _ asked => asked) ⟨.refl s, same⟩
  exact ⟨ending, memory⟩

theorem report_of_blotted {label : Text}
    (hidden : ∀ other ∈ (s.report {} label).asked, other ∈ left → s.readsValue other = false)
    (ev : Evaluator) :
    t.ending label = s.ending label ∧
      (t.report ev label).memory.blotted left = (s.report {} label).memory.blotted left := by
  have grown := s.grown_touch label
  have unread : ∀ other ∈ (Formula.run resolver (s.formulaOf label) (s.touch label)).2.1,
      other ∈ left → (s.touch label).readsValue other = false := by
    intro other asked there
    unfold readsValue
    rw [grown.viewOf]
    exact hidden other asked there
  obtain ⟨ended, memory⟩ := run_of_blotted (touch_of_blotted same label) unread
  unfold ending
  rw [formulaOf_of_blotted same]
  refine ⟨ended, ?_⟩
  show (Formula.run resolver (t.formulaOf label) (t.touch label)).2.2.blotted left = _
  rw [formulaOf_of_blotted same]
  exact memory

end

/-! ## What is left over is covered -/

/-- Every value that is left over is in a cell with an error. -/
def Covered (s : Sheet) (left : List Text) : Prop :=
  ∀ label ∈ left, s.cellsOf label ≠ [] ∧ ∀ c ∈ s.cellsOf label, c.error ≠ {}

section

variable {left left' : List Text} {s t : Sheet}

theorem Covered.grown (covered : s.Covered left) (grown : Grown s t) : t.Covered left := by
  intro label there
  obtain ⟨some_cell, errors⟩ := covered label there
  rw [grown.cellsOf some_cell]
  exact ⟨some_cell, errors⟩

theorem Covered.modify (covered : s.Covered left) {label : Text} {f : Cell → Cell}
    (labels : ∀ c, c.label = label → (f c).label = label)
    (others : ∀ other ∈ left', other ≠ label → other ∈ left)
    (here : label ∈ left' → s.cellsOf label ≠ [] ∧ ∀ c ∈ s.cellsOf label, (f c).error ≠ {}) :
    (s.modify label f).Covered left' := by
  intro other there
  rw [cellsOf_modify s label labels]
  by_cases same : other = label
  · subst same
    rw [if_pos rfl]
    obtain ⟨some_cell, errors⟩ := here there
    refine ⟨by simpa using some_cell, ?_⟩
    intro c among
    obtain ⟨c', before, rfl⟩ := List.mem_map.mp among
    exact errors c' before
  · rw [if_neg same]
    exact covered other (others other there same)

/-- Two sheets that are the same but for values that are left over, all of which are covered. -/
structure Veiled (left : List Text) (s t : Sheet) : Prop where
  same : t.blotted left = s.blotted left
  covered : s.Covered left

theorem Veiled.face (veiled : Veiled left s t) : t.face = s.face := by
  obtain ⟨same, covered⟩ := veiled
  have covered_in (u : Sheet) (alike : u.blotted left = s.blotted left) :
      ∀ c ∈ u.cells, c.label ∈ left → c.error ≠ {} := by
    intro c there among
    have blotted_there : c.blot left ∈ (s.blotted left).cells := by
      rw [← alike]
      exact List.mem_map_of_mem there
    obtain ⟨c', there', blot⟩ := List.mem_map.mp blotted_there
    have label : c'.label = c.label := by rw [← c'.label_blot left, blot, c.label_blot]
    have error : c'.error = c.error := by rw [← c'.error_blot left, blot, c.error_blot]
    rw [← error]
    exact (covered c.label among).2 c' (mem_cellsOf.mpr ⟨there', label⟩)
  have through (u : Sheet) (alike : u.blotted left = s.blotted left) :
      u.face = (u.blotted left).face := by
    unfold Sheet.face blotted
    simp only [List.map_map]
    congr 1
    refine List.map_congr_left ?_
    intro c there
    exact (Cell.face_blot (covered_in u alike c there)).symm
  rw [through t same, through s rfl, same]

/-! ## One call -/

theorem mem_filter_ne {label other : Text} :
    other ∈ left.filter (· != label) ↔ other ∈ left ∧ other ≠ label := by
  rw [List.mem_filter, bne_iff_ne]

/-- A value that is stored by an evaluation without a result is left over. -/
theorem blotted_store_left (s : Sheet) (label : Text) (ev : Evaluator) :
    (s.store label ev).blotted (label :: left) =
      (s.blotted left).modify label ({ · with value := .int 0, error := ev.error }) := by
  refine s.blotted_modify label ?_ ?_
  · intro c here
    rw [Cell.blot_left (here ▸ List.mem_cons_self)]
    exact (c.blot_replaced left (.int 0) ev.error).symm
  · intro c other
    exact Cell.blot_congr (List.mem_cons.trans (or_iff_right other))

/-- A change that replaces the value replaces what has been left over. -/
theorem blotted_replace (same : t.blotted left = s.blotted left) (label : Text) (f : Cell → Cell)
    (labels : ∀ c, (f c).label = c.label) (replaces : ∀ c, f (c.blot left) = f c) :
    (t.modify label f).blotted (left.filter (· != label)) =
      (s.modify label f).blotted (left.filter (· != label)) := by
  have through (u : Sheet) : (u.modify label f).blotted (left.filter (· != label)) =
      (u.blotted left).modify label f := by
    refine u.blotted_modify label ?_ ?_
    · intro c here
      have gone : (f c).label ∉ left.filter (· != label) := by
        rw [labels]
        exact fun there => (mem_filter_ne.mp there).2 here
      rw [Cell.blot_other gone, replaces]
    · intro c other
      exact Cell.blot_congr (mem_filter_ne.trans (and_iff_left other))
  rw [through t, through s, same]

/-- A change that does not touch the value leaves it as much left over as it was. -/
theorem blotted_keep (same : t.blotted left = s.blotted left) (label : Text) (f : Cell → Cell)
    (keeps : ∀ c, (f c).blot left = f (c.blot left)) :
    (t.modify label f).blotted left = (s.modify label f).blotted left := by
  have through (u : Sheet) : (u.modify label f).blotted left = (u.blotted left).modify label f :=
    u.blotted_modify label (fun c _ => keeps c) fun _ _ => rfl
  rw [through t, through s, same]

theorem evaluator_report (s : Sheet) (ev : Evaluator) (label : Text) :
    (s.report ev label).evaluator =
      { result := (s.ending label).result?.getD ev.result
        error := (s.ending label).error (Formula.endsInOperator (s.formulaOf label)) } :=
  rfl

theorem error_of_no_result {label : Text} (none_left : (s.ending label).result? = none)
    (ev : Evaluator) : (s.report ev label).evaluator.error ≠ {} := by
  unfold ending at none_left
  rcases Formula.run_reported resolver_reports.2 (s.formulaOf label) (s.touch label) with
    ⟨result, value⟩ | reported
  · rw [value] at none_left
    cases none_left
  · exact reported.1 _

theorem Veiled.evaluate (veiled : Veiled left s t) (ev : Evaluator) {label : Text} {p : Position}
    (inside : s.position label = .ok p)
    (hidden : ∀ other ∈ (s.report {} label).asked, other ∈ left → s.readsValue other = false) :
    Veiled
      (if (s.ending label).result?.isNone then label :: left else left.filter (· != label))
      ((s.report {} label).memory.store label (s.report {} label).evaluator)
      ((t.report ev label).memory.store label (t.report ev label).evaluator) := by
  obtain ⟨ended, memory⟩ := report_of_blotted veiled.same hidden ev
  have formula := formulaOf_of_blotted veiled.same label
  have grown : Grown (s.touch label) (s.report {} label).memory := by
    rw [report, memory_evaluate]
    exact grown_askAll _ _
  have covered := veiled.covered.grown ((s.grown_touch label).trans grown)
  have there : (s.report {} label).memory.cellsOf label ≠ [] := by
    rcases (s.touched_touch label).grown grown with there | ⟨e, refused⟩
    · exact there
    · rw [((s.grown_touch label).trans grown).position, inside] at refused
      cases refused
  cases left_by : (s.ending label).result? with
  | none =>
      refine ⟨?_, covered.modify (fun _ here => here) ?_ fun _ => ⟨there, fun _ _ => ?_⟩⟩
      · simp only [Option.isNone_none, if_true]
        rw [blotted_store_left, blotted_store_left, memory, evaluator_report, evaluator_report,
          ended, formula]
      · intro other among different
        exact (List.mem_cons.mp among).resolve_left different
      · exact error_of_no_result left_by {}
  | some result =>
      have stored : (t.report ev label).evaluator = (s.report {} label).evaluator := by
        rw [evaluator_report, evaluator_report, ended, formula, left_by]
        rfl
      refine ⟨?_, covered.modify (fun _ here => here) ?_ ?_⟩
      · simp only [Option.isNone_some, Bool.false_eq_true, if_false]
        rw [stored]
        exact blotted_replace memory label _ (fun _ => rfl) fun c => c.blot_replaced left _ _
      · intro other among _
        exact (mem_filter_ne.mp among).1
      · intro among
        exact absurd rfl (mem_filter_ne.mp among).2

theorem hidden_of_not_reads {labels : List Text} (unread : uncovers.reads s left labels = false) :
    ∀ label ∈ labels, label ∈ left → s.readsValue label = false := by
  intro label asked there
  have read := List.any_eq_false.mp unread label asked
  simpa [List.contains_iff_mem, there] using read

/-- **A call that uncovers nothing keeps the veil**, whichever evaluator it has. -/
theorem Veiled.after (veiled : Veiled left s t) (ev : Evaluator) {call : Call}
    (careful : s.uncovers left call = false) :
    Veiled (s.leftAfter left call) (s.after {} call).2 (t.after ev call).2 := by
  obtain ⟨same, covered⟩ := veiled
  have refusal : t.refusal? call = s.refusal? call := by
    unfold refusal?
    rw [show t.position = s.position from funext (position_of_blotted same)]
  rw [after_eq, after_eq, refusal]
  unfold leftAfter
  cases admitted : s.refusal? call with
  | some e => exact ⟨same, covered⟩
  | none =>
      have touched {label : Text} : (s.touch label).Covered left :=
        covered.grown (s.grown_touch label)
      cases call with
      | get label => exact ⟨touch_of_blotted same label, touched⟩
      | setFormula label tokens =>
          simp only [act]
          cases Value.texts? tokens with
          | none => exact ⟨touch_of_blotted same label, touched⟩
          | some formula =>
              have keeps (c : Cell) :
                  { c with formula }.blot left = { c.blot left with formula } := by
                unfold Cell.blot
                split <;> rfl
              exact ⟨blotted_keep (touch_of_blotted same label) label _ keeps,
                touched.modify (fun _ here => here) (fun _ there _ => there) (touched label)⟩
      | setValue label value =>
          have replaces (c : Cell) : { c.blot left with value } = { c with value } := by
            unfold Cell.blot
            split <;> rfl
          refine ⟨blotted_replace (touch_of_blotted same label) label _ (fun _ => rfl) replaces,
            touched.modify (fun _ here => here) ?_ ?_⟩
          · intro other there _
            exact (mem_filter_ne.mp there).1
          · intro there
            exact absurd rfl (mem_filter_ne.mp there).2
      | setError label error =>
          have keeps (c : Cell) : { c with error }.blot left = { c.blot left with error } := by
            unfold Cell.blot
            split <;> rfl
          refine ⟨blotted_keep (touch_of_blotted same label) label _ keeps,
            touched.modify (fun _ here => here) (fun _ there _ => there) ?_⟩
          intro there
          refine ⟨(touched label there).1, ?_⟩
          rintro _ _ rfl
          simp [uncovers, there, Text.isEmpty] at careful
      | evaluate label =>
          obtain ⟨p, inside⟩ := inside_of_admitted admitted rfl
          exact Veiled.evaluate ⟨same, covered⟩ ev inside (hidden_of_not_reads careful)
      | evaluateTokens tokens =>
          obtain ⟨_, memory⟩ := run_of_blotted same (hidden_of_not_reads careful)
          refine ⟨memory, ?_⟩
          show (({} : Evaluator).evaluate resolver tokens s).memory.Covered left
          rw [memory_evaluate]
          exact covered.grown (grown_askAll s _)

theorem Veiled.run (veiled : Veiled left s t) (ev : Evaluator) {calls : List Call}
    (careful : s.careful left calls = true) :
    ∃ left', Veiled left' (s.renewing calls) (t.sharing ev calls).2 := by
  induction calls generalizing left s t ev with
  | nil => exact ⟨left, veiled⟩
  | cons call calls ih =>
      unfold Sheet.careful at careful
      rw [Bool.and_eq_true, Bool.not_eq_true'] at careful
      exact ih (veiled.after ev careful.1) (t.after ev call).1 careful.2

theorem careful_of_append {front back : List Call}
    (careful : s.careful left (front ++ back) = true) : s.careful left front = true := by
  induction front generalizing left s with
  | nil => rfl
  | cons call front ih =>
      rw [List.cons_append, Sheet.careful, Bool.and_eq_true] at careful
      rw [Sheet.careful, Bool.and_eq_true]
      exact ⟨careful.1, ih careful.2⟩

end

/-- **Whether an evaluator is shared is not seen**, after any number of calls, as long as none of
them reads a value that is left over or clears the error over it: the sheets have the same cells
with the same formulas and errors, and with the same value wherever there is no error. -/
theorem sharing_unseen (s : Sheet) (ev : Evaluator) {calls : List Call}
    (careful : s.careful [] calls = true) {front : List Call} (before : front <+: calls) :
    (s.sharing ev front).2.face = (s.renewing front).face := by
  obtain ⟨back, rfl⟩ := before
  have start : Veiled [] s s := ⟨rfl, fun _ none_there => nomatch none_there⟩
  obtain ⟨left, veiled⟩ := start.run ev (careful_of_append careful)
  exact veiled.face

/-- An empty cell is evaluated after another one, gets a formula, and is evaluated again before a
third cell refers to it. -/
def refersLate : List Call :=
  [.setFormula "A1" ["5"], .evaluate "A1", .evaluate "B1", .setFormula "B1" ["0.5"], .evaluate "B1",
    .setFormula "C1" ["1", "/", "B1"], .evaluate "C1"]

theorem sharing_unseen_refersLate :
    (oneRow 2).careful [] refersLate = true ∧ refersLate <+: refersLate ∧
      ((oneRow 2).sharing {} refersLate).2.face = ((oneRow 2).renewing refersLate).face := by
  have careful : (oneRow 2).careful [] refersLate = true := by decide +kernel
  exact ⟨careful, List.prefix_rfl, sharing_unseen (oneRow 2) {} careful List.prefix_rfl⟩

/-- The third cell refers to the second one before that is evaluated again. -/
def refersEarly : List Call :=
  [.setFormula "A1" ["5"], .evaluate "A1", .evaluate "B1", .setFormula "B1" ["5"],
    .setFormula "C1" ["1", "/", "B1"], .evaluate "C1"]

/-- The error of an empty cell is cleared. -/
def clears : List Call :=
  [.setFormula "A1" ["5"], .evaluate "A1", .evaluate "B1", .setError "B1" {}]

/-- **Whether an evaluator is shared is seen** in the error of a cell that refers to a value that is
left over, and where the error over such a value is cleared. -/
theorem sharing_seen :
    ((oneRow 2).sharing {} refersEarly).2.face ≠ ((oneRow 2).renewing refersEarly).face ∧
      ((oneRow 2).sharing {} clears).2.face ≠ ((oneRow 2).renewing clears).face := by
  constructor
  · intro same
    have errors := congrArg (fun s => s.cells.map Cell.error) same
    exact absurd errors (by decide +kernel)
  · intro same
    have blank := congrArg (fun s => s.cells.map fun c => c.value matches .int _) same
    exact absurd blank (by decide +kernel)

end Sheet

end SheetCalc
