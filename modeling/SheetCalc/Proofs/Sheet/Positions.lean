import Mathlib.Data.List.Perm.Subperm
import SheetCalc.Proofs.Label
import SheetCalc.Proofs.Sheet.Calls

/-!
# Cells and positions

The cells of a sheet have different labels, and a position has two: its spelling, and the spelling
with a line feed behind it. So a sheet has at most two cells at one position, and one if no label
ends in a line feed (`one_cell_at_position`). There can be two at one position
(`two_cells_at_one_position`).
-/

namespace SheetCalc

/-- One position comes before another one, row by row. -/
def Position.Before (p q : Position) : Prop :=
  p.row < q.row ∨ (p.row = q.row ∧ p.col < q.col)

theorem Position.eq_of {p q : Position} (row : p.row = q.row) (col : p.col = q.col) : p = q := by
  cases p
  cases q
  cases row
  cases col
  rfl

theorem Position.le_iff {p q : Position} : p.le q = true ↔ p.Before q ∨ p = q := by
  obtain ⟨row, col⟩ := p
  obtain ⟨row', col'⟩ := q
  simp only [le, Before, Bool.or_eq_true, Bool.and_eq_true, decide_eq_true_iff, beq_iff_eq,
    Position.mk.injEq]
  omega

theorem Position.le_trans (p q r : Position) (first : p.le q = true) (second : q.le r = true) :
    p.le r = true := by
  obtain ⟨row, col⟩ := p
  obtain ⟨row', col'⟩ := q
  obtain ⟨row'', col''⟩ := r
  simp only [le, Bool.or_eq_true, Bool.and_eq_true, decide_eq_true_iff, beq_iff_eq] at *
  omega

theorem Position.le_total (p q : Position) : (p.le q || q.le p) = true := by
  simp only [le, Bool.or_eq_true, Bool.and_eq_true, decide_eq_true_iff, beq_iff_eq]
  omega

/-- One label names a position that comes before that of another one. -/
def Label.Precedes (t u : Text) : Prop :=
  ∃ p q, parse t = .ok p ∧ parse u = .ok q ∧ p.Before q

/-- The position of a cell. -/
def Cell.position (c : Cell) : Position :=
  (Label.parse c.label).toOption.getD ⟨0, 0⟩

namespace Sheet

open Formula (Evaluator)
open Label (isBroken)

theorem position_ok_iff {s : Sheet} {label : Text} {p : Position} :
    s.position label = .ok p ↔ Label.parse label = .ok p ∧ p.row < s.rows ∧ p.col < s.cols := by
  unfold position
  cases Label.parse label with
  | error e => simp
  | ok q => grind

section

variable {s : Sheet} (sound : s.Sound)

include sound

theorem Sound.named {c : Cell} (there : c ∈ s.cells) :
    Label.parse c.label = .ok c.position ∧ c.position.row < s.rows ∧ c.position.col < s.cols := by
  obtain ⟨p, inside⟩ := sound.inside c there
  obtain ⟨named, bounds⟩ := position_ok_iff.mp inside
  have same : c.position = p := by
    unfold Cell.position
    rw [named]
    rfl
  rw [same]
  exact ⟨named, bounds⟩

/-! ## Cells at the same position -/

theorem Sound.labels_ne : s.cells.Pairwise fun c d => c.label ≠ d.label :=
  List.pairwise_map.mp sound.nodup

/-- Two cells at the same position have labels that differ in a line feed at the end. -/
theorem Sound.same_position : s.cells.Pairwise fun c d =>
    Label.parse c.label = Label.parse d.label →
      c.label = d.label ++ ("\n" : Text) ∨ d.label = c.label ++ ("\n" : Text) := by
  refine sound.labels_ne.imp_of_mem ?_
  intro c d here there different same
  obtain ⟨named, _⟩ := sound.named here
  have also := same.symm.trans named
  have spelled := Label.spelling_of_parse named
  have spelled_also := Label.spelling_of_parse also
  cases first : isBroken c.label <;> cases second : isBroken d.label
  · exact absurd (Label.eq_of_parse named also (first.trans second.symm)) different
  · rw [first] at spelled
    rw [second] at spelled_also
    exact .inr (spelled_also.trans (congrArg (· ++ ("\n" : Text)) spelled.symm))
  · rw [first] at spelled
    rw [second] at spelled_also
    exact .inl (spelled.trans (congrArg (· ++ ("\n" : Text)) spelled_also.symm))
  · exact absurd (Label.eq_of_parse named also (first.trans second.symm)) different

/-- Cells whose labels all end in a line feed, or none of which does, are at different positions. -/
theorem Sound.positions_nodup (broken : Bool) :
    ((s.cells.filter fun c => isBroken c.label == broken).map Cell.position).Nodup := by
  refine List.pairwise_map.mpr ((sound.labels_ne.filter _).imp_of_mem ?_)
  intro c d here there different same
  obtain ⟨here, first⟩ := List.mem_filter.mp here
  obtain ⟨there, second⟩ := List.mem_filter.mp there
  obtain ⟨named, _⟩ := sound.named here
  obtain ⟨also, _⟩ := sound.named there
  rw [← same] at also
  exact different
    (Label.eq_of_parse named also ((beq_iff_eq.mp first).trans (beq_iff_eq.mp second).symm))

/-! ## The count of cells -/

theorem Sound.length_le {cells : List Cell} (within : ∀ c ∈ cells, c ∈ s.cells)
    (nodup : (cells.map Cell.position).Nodup) : cells.length ≤ s.rows * s.cols := by
  -- Positions are counted row by row.
  have counted : (cells.map fun c => c.position.row * s.cols + c.position.col).Nodup := by
    refine List.pairwise_map.mpr ((List.pairwise_map.mp nodup).imp_of_mem ?_)
    intro c d here there different same
    obtain ⟨_, _, col⟩ := sound.named (within c here)
    obtain ⟨_, _, col'⟩ := sound.named (within d there)
    have rows := congrArg (· / s.cols) same
    have cols := congrArg (· % s.cols) same
    simp only [Nat.mul_comm _ s.cols, Nat.mul_add_div s.cols_pos, Nat.mul_add_mod_self_left,
      Nat.div_eq_of_lt col, Nat.div_eq_of_lt col', Nat.mod_eq_of_lt col, Nat.mod_eq_of_lt col',
      Nat.add_zero] at rows cols
    exact different (Position.eq_of rows cols)
  have bounded : (cells.map fun c => c.position.row * s.cols + c.position.col) ⊆
      List.range (s.rows * s.cols) := by
    intro n counts
    obtain ⟨c, here, rfl⟩ := List.mem_map.mp counts
    obtain ⟨_, row, col⟩ := sound.named (within c here)
    rw [List.mem_range]
    calc
      c.position.row * s.cols + c.position.col < (c.position.row + 1) * s.cols := by
        rw [Nat.add_mul, Nat.one_mul]
        exact Nat.add_lt_add_left col _
      _ ≤ s.rows * s.cols := Nat.mul_le_mul_right s.cols row
  have length := (List.subperm_of_subset counted bounded).length_le
  rwa [List.length_map, List.length_range] at length

/-! ## The order of the labels -/

theorem Sound.positions_sorted :
    (s.sortedCells.map Cell.position).Pairwise fun p q => p.le q = true := by
  -- The order of labels is that of their positions, as every label of a cell has one.
  have along : s.sortedCells.map Cell.position =
      (s.cells.map Cell.position).mergeSort Position.le := by
    refine List.map_mergeSort ?_
    intro c here d there
    obtain ⟨named, _⟩ := sound.named here
    obtain ⟨also, _⟩ := sound.named there
    unfold labelLe
    rw [named, also]
  rw [along]
  exact List.pairwise_mergeSort Position.le_trans Position.le_total _

theorem Sound.labels_sorted (nodup : (s.cells.map Cell.position).Nodup) :
    s.labels.Pairwise Label.Precedes := by
  have perm : s.sortedCells.Perm s.cells := List.mergeSort_perm s.cells _
  have different := List.pairwise_map.mp ((perm.map Cell.position).nodup_iff.mpr nodup)
  have sorted := List.pairwise_map.mp sound.positions_sorted
  refine List.pairwise_map.mpr ((sorted.and different).imp_of_mem ?_)
  rintro c d here there ⟨le, apart⟩
  obtain ⟨named, _⟩ := sound.named (perm.mem_iff.mp here)
  obtain ⟨also, _⟩ := sound.named (perm.mem_iff.mp there)
  exact ⟨c.position, d.position, named, also, (Position.le_iff.mp le).resolve_right apart⟩

end

/-- Labels in strict order name different positions. -/
theorem nodup_of_labels_sorted {s : Sheet} (sorted : s.labels.Pairwise Label.Precedes) :
    (s.cells.map fun c => Label.parse c.label).Nodup := by
  have perm : s.labels.Perm (s.cells.map Cell.label) :=
    (List.mergeSort_perm s.cells _).map Cell.label
  have different : (s.labels.map Label.parse).Nodup := by
    refine List.pairwise_map.mpr (sorted.imp ?_)
    rintro t u ⟨p, q, named, also, before⟩ same
    rw [named, also] at same
    cases same
    rcases before with row | ⟨_, col⟩
    · exact Nat.lt_irrefl _ row
    · exact Nat.lt_irrefl _ col
  have all := (perm.map Label.parse).nodup_iff.mp different
  rwa [List.map_map] at all

/-- **A position has one cell, but for line feeds.** In a sheet that can be reached, the labels of
two cells at the same position differ in a line feed at the end, and there are at most two such
cells. If no label of a cell ends in a line feed, the labels are in strict order, and there are not
more cells than positions. -/
theorem one_cell_at_position {s : Sheet} (reachable : Reachable s) :
    (s.cells.Pairwise fun c d => Label.parse c.label = Label.parse d.label →
      c.label = d.label ++ ("\n" : Text) ∨ d.label = c.label ++ ("\n" : Text)) ∧
    s.cells.length ≤ 2 * (s.rows * s.cols) ∧
    ((∀ c ∈ s.cells, isBroken c.label = false) →
      s.labels.Pairwise Label.Precedes ∧ s.cells.length ≤ s.rows * s.cols) := by
  have sound := reachable.sound
  have length_filter (broken : Bool) :
      (s.cells.filter fun c => isBroken c.label == broken).length ≤ s.rows * s.cols :=
    sound.length_le (fun c there => (List.mem_filter.mp there).1) (sound.positions_nodup broken)
  refine ⟨sound.same_position, ?_, ?_⟩
  · have whole := length_filter false
    have broken := length_filter true
    have all := List.length_eq_length_filter_add (l := s.cells) fun c => isBroken c.label == true
    have others : (fun c : Cell => !(isBroken c.label == true)) =
        fun c => isBroken c.label == false := by
      funext c
      cases isBroken c.label <;> rfl
    rw [others] at all
    omega
  · intro unbroken
    have all : (s.cells.filter fun c => isBroken c.label == false) = s.cells :=
      List.filter_eq_self.mpr fun c there => beq_iff_eq.mpr (unbroken c there)
    have nodup := sound.positions_nodup false
    rw [all] at nodup
    exact ⟨sound.labels_sorted nodup, sound.length_le (fun _ there => there) nodup⟩

theorem reachable_oneRow : Reachable (oneRow 0) :=
  .sized (show ofSize 1 1 = .ok (oneRow 0) from rfl)

/-- The sheet with two rows of two cells each. -/
def square : Sheet :=
  { rows := 2, cols := 2, rows_pos := Nat.two_pos, cols_pos := Nat.two_pos }

/-- Three cells that are made from the last position on: a formula makes the first one while it is
evaluated. Their labels are in the order of the positions. -/
theorem one_cell_at_position_square :
    let s := square.afterAll
      [({}, .setFormula "B2" ["A1"]), ({}, .evaluate "B2"), ({}, .get "A2")]
    Reachable s ∧ s.cells.map Cell.label = ["B2", "A1", "A2"] ∧
      s.labels.Pairwise Label.Precedes ∧ s.cells.length ≤ s.rows * s.cols := by
  intro s
  have made : Reachable square := .sized (show ofSize 2 2 = .ok square from rfl)
  have reachable : Reachable s := .called {} _ (.called {} _ (.called {} _ made))
  exact ⟨reachable, by decide, (one_cell_at_position reachable).2.2 (by decide)⟩

/-- **There can be two cells at the only position of a sheet**, and then the labels are not in
strict order. -/
theorem two_cells_at_one_position :
    ∃ s, Reachable s ∧ s.rows * s.cols < s.cells.length ∧
      (s.cells.map fun c => Label.parse c.label) = [.ok ⟨0, 0⟩, .ok ⟨0, 0⟩] ∧
      ¬ s.labels.Pairwise Label.Precedes := by
  refine ⟨(oneRow 0).afterAll [({}, .get "A1"), ({}, .get "A1\n")],
    .called {} _ (.called {} _ reachable_oneRow), by decide, by decide, ?_⟩
  intro sorted
  exact absurd (nodup_of_labels_sorted sorted) (by decide)

end Sheet

end SheetCalc
