import Mathlib.Data.List.Nodup
import SheetCalc.Proofs.Formula.Endings
import SheetCalc.Proofs.Formula.Footprint
import SheetCalc.Sheet

/-!
# The cells of a sheet

A sheet answers for a label with its cells of that label (`cellsOf`); what it says of a label to a
formula (`viewOf`) and which formula it has for it (`formulaOf`) are read off them. Asking for a
label makes an empty cell where there is none. A sheet that has grown by such cells (`Grown`)
answers as it did before, since an empty cell is seen in the same way as none. A label that leads to
a cell or is refused (`Touched`) makes no cell any more when it is asked for.
-/

namespace SheetCalc.Sheet

open Formula (Resolver)

/-- A sheet refuses a label only in one way. -/
theorem refusal_eq_unusable {label : Text} {s : Sheet} {refusal : Formula.Refusal}
    (refused : (resolver.find label s).1 = .error refusal) : refusal = .unusable := by
  simp only [resolver] at refused
  cases hc : s.cell label with
  | ok found =>
      rw [hc] at refused
      cases refused
  | error e =>
      rw [hc] at refused
      cases refused
      rfl

/-- The resolver of a sheet takes no symbol for a label, and refuses labels only in ways that an
evaluation deals with. -/
theorem resolver_reports : Formula.RejectsSymbols resolver.isLabel ∧ resolver.Reports := by
  refine ⟨Formula.rejectsSymbols_isLabel, ?_, ?_⟩
  · intro label s reason refused
    cases refusal_eq_unusable refused
  · intro label s f refused
    cases refusal_eq_unusable refused

/-! ## What a sheet says of a label -/

/-- The cells with a label. -/
def cellsOf (s : Sheet) (label : Text) : List Cell :=
  s.cells.filter (·.label == label)

/-- What a sheet tells a formula of a label. -/
def viewOf (s : Sheet) (label : Text) : Except Formula.Refusal Formula.CellView :=
  (resolver.find label s).1

/-- A sheet after it has been asked for a label. -/
def touch (s : Sheet) (label : Text) : Sheet :=
  (resolver.find label s).2

/-- The formula of the cell with a label, where a cell that is not there has none. -/
def formulaOf (s : Sheet) (label : Text) : List Text :=
  ((s.find? label).getD { label }).formula

theorem mem_cellsOf {s : Sheet} {label : Text} {c : Cell} :
    c ∈ s.cellsOf label ↔ c ∈ s.cells ∧ c.label = label := by
  unfold cellsOf
  rw [List.mem_filter, beq_iff_eq]

theorem find?_eq (s : Sheet) (label : Text) : s.find? label = (s.cellsOf label).head? := by
  unfold find? cellsOf
  rw [List.head?_filter]

/-- The first cell with a label, or an empty one. -/
def first (s : Sheet) (label : Text) : Cell :=
  (s.cellsOf label).head?.getD { label }

theorem label_first (s : Sheet) (label : Text) : (s.first label).label = label := by
  unfold first
  cases hc : s.cellsOf label with
  | nil => rfl
  | cons c cs =>
      have there : c ∈ s.cellsOf label := hc ▸ List.mem_cons_self
      exact (mem_cellsOf.mp there).2

theorem find?_getD (s : Sheet) (label : Text) : (s.find? label).getD { label } = s.first label := by
  rw [find?_eq]
  rfl

theorem formulaOf_eq (s : Sheet) (label : Text) : s.formulaOf label = (s.first label).formula := by
  rw [← find?_getD]
  rfl

theorem viewOf_eq (s : Sheet) (label : Text) :
    s.viewOf label =
      match s.position label with
      | .error _ => .error .unusable
      | .ok _ => .ok ((s.cellsOf label).head?.getD { label }).view := by
  rw [← find?_eq]
  simp only [viewOf, resolver, cell]
  cases s.position label with
  | error e => rfl
  | ok p => cases s.find? label <;> rfl

theorem touch_eq (s : Sheet) (label : Text) :
    s.touch label =
      match s.position label, s.cellsOf label with
      | .ok _, [] => { s with cells := s.cells ++ [{ label }] }
      | _, _ => s := by
  have found := s.find?_eq label
  simp only [touch, resolver, cell]
  cases s.position label with
  | error e => rfl
  | ok p =>
      cases hc : s.cellsOf label with
      | nil =>
          rw [hc] at found
          simp only [found, List.head?_nil]
      | cons c cs =>
          rw [hc] at found
          simp only [found, List.head?_cons]

/-- A sheet gives out the cell that it has after it has been asked for it. -/
theorem cell_eq (s : Sheet) {label : Text} {p : Position} (inside : s.position label = .ok p) :
    s.cell label = .ok ((s.find? label).getD { label }, s.touch label) := by
  simp only [touch, resolver, cell, inside]
  cases s.find? label <;> rfl

theorem cellsOf_eq_nil {s : Sheet} {label : Text} :
    s.cellsOf label = [] ↔ label ∉ s.cells.map Cell.label := by
  unfold cellsOf
  rw [List.filter_eq_nil_iff, List.mem_map]
  constructor
  · rintro none_there ⟨c, there, same⟩
    exact none_there c there (beq_iff_eq.mpr same)
  · intro none_there c there same
    exact none_there ⟨c, there, beq_iff_eq.mp same⟩

/-! ## Sheets with the same cells -/

/-- Two sheets of the same size with the same cells, which may have been made in different
orders. -/
structure SameCells (s t : Sheet) : Prop where
  rows : t.rows = s.rows
  cols : t.cols = s.cols
  cells : t.cells.Perm s.cells
  find? : ∀ label, t.find? label = s.find? label

theorem SameCells.of_cellsOf {s t : Sheet} (rows : t.rows = s.rows) (cols : t.cols = s.cols)
    (same : ∀ label, t.cellsOf label = s.cellsOf label) : SameCells s t := by
  refine ⟨rows, cols, ?_, ?_⟩
  · classical
    rw [List.perm_iff_count]
    intro c
    -- A cell occurs as often as it does among those with its label.
    have among (u : Sheet) : (u.cellsOf c.label).count c = u.cells.count c :=
      List.count_filter (p := (Cell.label · == c.label)) (beq_self_eq_true c.label)
    rw [← among t, ← among s, same]
  · intro label
    rw [find?_eq, find?_eq, same]

theorem labels_modify (s : Sheet) (label : Text) {f : Cell → Cell}
    (labels : ∀ c, c.label = label → (f c).label = label) :
    (s.modify label f).cells.map Cell.label = s.cells.map Cell.label := by
  unfold modify
  rw [List.map_map]
  refine List.map_congr_left ?_
  intro c _
  simp only [Function.comp]
  split
  · next here =>
      have here := beq_iff_eq.mp here
      rw [labels c here, here]
  · rfl

theorem mem_modify {s : Sheet} {label : Text} {f : Cell → Cell} {c : Cell}
    (there : c ∈ (s.modify label f).cells) :
    ∃ c' ∈ s.cells, c = if c'.label == label then f c' else c' := by
  obtain ⟨c', before, same⟩ := List.mem_map.mp there
  exact ⟨c', before, same.symm⟩

/-- Changing the cells with a label leaves those with another label as they are. -/
theorem cellsOf_modify (s : Sheet) (label : Text) {f : Cell → Cell}
    (labels : ∀ c, c.label = label → (f c).label = label) (other : Text) :
    (s.modify label f).cellsOf other =
      if other = label then (s.cellsOf label).map f else s.cellsOf other := by
  unfold modify cellsOf
  rw [List.filter_map]
  have same_labels : ((fun c : Cell => c.label == other) ∘ fun c =>
      if (c.label == label) = true then f c else c) = fun c => c.label == other := by
    funext c
    simp only [Function.comp]
    split
    · next here =>
        have here := beq_iff_eq.mp here
        rw [labels c here, here]
    · rfl
  rw [same_labels]
  by_cases same : other = label
  · rw [if_pos same, same]
    refine List.map_congr_left ?_
    intro c there
    rw [if_pos (List.mem_filter.mp there).2]
  · rw [if_neg same]
    refine (List.map_congr_left ?_).trans (List.map_id _)
    intro c there
    have label_other : c.label = other := by simpa using (List.mem_filter.mp there).2
    have apart : ¬ (c.label == label) = true := by simpa [label_other] using same
    rw [if_neg apart]
    rfl

/-! ## Growing by empty cells -/

/-- A sheet that differs from another one at most by having empty cells where that one has none. -/
structure Grown (s t : Sheet) : Prop where
  rows : t.rows = s.rows
  cols : t.cols = s.cols
  cells : ∀ label, t.cellsOf label = s.cellsOf label ∨
    (s.cellsOf label = [] ∧ t.cellsOf label = [{ label }])

theorem Grown.refl (s : Sheet) : Grown s s :=
  ⟨rfl, rfl, fun _ => .inl rfl⟩

theorem Grown.trans {s t u : Sheet} (first : Grown s t) (second : Grown t u) : Grown s u := by
  refine ⟨second.rows.trans first.rows, second.cols.trans first.cols, ?_⟩
  intro label
  -- A cell that the first growth makes is there in the second one, so none is made twice.
  rcases second.cells label with same | ⟨none_before, made⟩
  · rw [same]
    exact first.cells label
  · rcases first.cells label with same | ⟨_, made_before⟩
    · exact .inr ⟨same ▸ none_before, made⟩
    · rw [made_before] at none_before
      cases none_before

theorem cellsOf_concat (s : Sheet) (c : Cell) (label : Text) :
    ({ s with cells := s.cells ++ [c] } : Sheet).cellsOf label =
      s.cellsOf label ++ if c.label = label then [c] else [] := by
  unfold cellsOf
  rw [List.filter_append]
  by_cases same : c.label = label <;> simp [same]

theorem cellsOf_append (s : Sheet) (label made : Text) :
    ({ s with cells := s.cells ++ [{ label := made }] } : Sheet).cellsOf label =
      s.cellsOf label ++ if made = label then [{ label := label }] else [] := by
  rw [cellsOf_concat]
  by_cases same : made = label <;> simp [same]

theorem mem_touch {s : Sheet} {label : Text} {c : Cell} (there : c ∈ (s.touch label).cells) :
    c ∈ s.cells ∨ ∃ made, c = { label := made } := by
  rw [touch_eq] at there
  split at there
  · rcases List.mem_append.mp there with before | made
    · exact .inl before
    · exact .inr ⟨label, List.mem_singleton.mp made⟩
  · exact .inl there

theorem grown_touch (s : Sheet) (label : Text) : Grown s (s.touch label) := by
  rw [touch_eq]
  split
  · next none_there =>
      refine ⟨rfl, rfl, ?_⟩
      intro other
      rw [cellsOf_append]
      by_cases same : label = other
      · rw [if_pos same]
        subst same
        exact .inr ⟨none_there, by rw [none_there]; rfl⟩
      · rw [if_neg same, List.append_nil]
        exact .inl rfl
  · exact .refl s

section

variable {s t : Sheet} (grown : Grown s t)

include grown

theorem Grown.position (label : Text) : t.position label = s.position label := by
  unfold Sheet.position
  rw [grown.rows, grown.cols]

/-- An empty cell stands for one that is not there. -/
theorem Grown.cell (label : Text) :
    (t.cellsOf label).head?.getD { label } = (s.cellsOf label).head?.getD { label } := by
  rcases grown.cells label with same | ⟨none_before, made⟩
  · rw [same]
  · rw [none_before, made]
    rfl

theorem Grown.viewOf (label : Text) : t.viewOf label = s.viewOf label := by
  rw [viewOf_eq, viewOf_eq, grown.position, grown.cell]

theorem Grown.formulaOf (label : Text) : t.formulaOf label = s.formulaOf label := by
  unfold Sheet.formulaOf
  rw [find?_eq, find?_eq, grown.cell]

theorem Grown.cellsOf {label : Text} (there : s.cellsOf label ≠ []) :
    t.cellsOf label = s.cellsOf label := by
  rcases grown.cells label with same | ⟨none_before, _⟩
  · exact same
  · exact absurd none_before there

end

/-! ## Labels that make no cell -/

/-- Asking for a label changes nothing: it has a cell, or it is refused. -/
def Touched (s : Sheet) (label : Text) : Prop :=
  s.cellsOf label ≠ [] ∨ ∃ e, s.position label = .error e

/-- Where a label that is in the grid makes no cell, it has one. -/
theorem Touched.there {s : Sheet} {label : Text} {p : Position} (touched : s.Touched label)
    (inside : s.position label = .ok p) : s.cellsOf label ≠ [] := by
  rcases touched with there | ⟨e, refused⟩
  · exact there
  · rw [inside] at refused
    cases refused

theorem touch_of_touched {s : Sheet} {label : Text} (touched : s.Touched label) :
    s.touch label = s := by
  rw [touch_eq]
  split
  · next p inside none_there =>
      rcases touched with there | ⟨e, refused⟩
      · exact absurd none_there there
      · rw [inside] at refused
        cases refused
  · rfl

theorem touched_touch (s : Sheet) (label : Text) : (s.touch label).Touched label := by
  rw [touch_eq]
  split
  · refine .inl ?_
    rw [cellsOf_append, if_pos rfl]
    simp
  · next other =>
      cases hp : s.position label with
      | error e => exact .inr ⟨e, hp⟩
      | ok p =>
          refine .inl ?_
          intro none_there
          exact other p hp none_there

theorem Touched.grown {s t : Sheet} {label : Text} (touched : s.Touched label)
    (grown : Grown s t) : t.Touched label := by
  rcases touched with there | ⟨e, refused⟩
  · exact .inl (grown.cellsOf there ▸ there)
  · exact .inr ⟨e, grown.position label ▸ refused⟩

theorem grown_askAll (s : Sheet) (labels : List Text) : Grown s (resolver.askAll labels s) := by
  induction labels generalizing s with
  | nil => exact .refl s
  | cons label labels ih => exact (s.grown_touch label).trans (ih (s.touch label))

theorem mem_askAll {s : Sheet} {labels : List Text} {c : Cell}
    (there : c ∈ (resolver.askAll labels s).cells) :
    c ∈ s.cells ∨ ∃ made, c = { label := made } := by
  induction labels generalizing s with
  | nil => exact .inl there
  | cons label labels ih =>
      rcases ih there with before | made
      · exact mem_touch before
      · exact .inr made

/-- Labels that have been asked for are touched. -/
theorem touched_askAll (s : Sheet) {labels : List Text} {label : Text} (asked : label ∈ labels) :
    (resolver.askAll labels s).Touched label := by
  induction labels generalizing s with
  | nil => cases asked
  | cons first labels ih =>
      rcases List.mem_cons.mp asked with rfl | later
      · exact (s.touched_touch label).grown (grown_askAll (s.touch label) labels)
      · exact ih (s.touch first) later

theorem askAll_of_touched {s : Sheet} {labels : List Text}
    (touched : ∀ label ∈ labels, s.Touched label) : resolver.askAll labels s = s := by
  induction labels with
  | nil => rfl
  | cons label labels ih =>
      have first : (resolver.find label s).2 = s :=
        touch_of_touched (touched label List.mem_cons_self)
      show resolver.askAll labels (resolver.find label s).2 = s
      rw [first]
      exact ih fun other later => touched other (List.mem_cons_of_mem _ later)

end SheetCalc.Sheet
