import Mathlib.Algebra.Group.Nat.Defs
import SheetCalc.Proofs.Procedure
import SheetCalc.Proofs.Sheet.Positions

/-!
# The store of a sheet

A call is a `Procedure`: it fetches a cell, which may make one, changes it or evaluates its formula,
and what has been done when something goes wrong stays done. What can go wrong is the label, at the
first step, or a token that cannot be written, when the cell has been fetched (`run_steps`).

What the cells of a sheet are like is kept by all calls (`store_kept`), also by those that fail:
they have different labels that are in the grid, their list only grows at its end, and the labels
are listed row by row. A call whose label is refused leaves the sheet as it was.

A label of more row digits than are read is refused even if its row is in the grid, and a token that
cannot be written leaves a cell behind (`refused_in_grid_or_half_done`).
-/

namespace SheetCalc

/-! ## What a label names -/

namespace Label

/-- The digits of the row that a label names. -/
def rowDigits (t : Text) : List Char :=
  ((split? t).map Prod.snd).getD []

/-- The position that a label names, however many digits its row has. -/
def place? (t : Text) : Option Position :=
  (split? t).map fun (letters, number) =>
    ⟨Decimal.valueOf number - 1, (Column.index (.ofChars letters)).toNat⟩

/-- A label is read if it has the form of one and its row is not too long. -/
theorem parse_ok_iff {t : Text} {p : Position} :
    parse t = .ok p ↔ place? t = some p ∧ (rowDigits t).length ≤ Decimal.digitLimit := by
  unfold parse place? rowDigits
  cases split? t with
  | none => simp
  | some found =>
      obtain ⟨letters, number⟩ := found
      by_cases long : Decimal.digitLimit < number.length
      · simp [long]
      · simp [long, Nat.le_of_not_lt long]

theorem isLabel_iff {t : Text} : isLabel t = true ↔ ∃ p, place? t = some p := by
  unfold isLabel place?
  cases split? t <;> simp

theorem getLast?_of_isRowNumber {number : List Char} (row : isRowNumber number = true) :
    number.getLast? ≠ some '\n' := by
  intro broken
  have digit := (Decimal.digits_of_isRowNumber row).2 _ (List.mem_of_getLast? broken)
  exact absurd digit (by decide)

/-- Up to three letters and the number of a row are a label. -/
theorem split_append {letters number : List Char} (some_letter : letters ≠ [])
    (few : letters.length ≤ 3) (all_letters : ∀ c ∈ letters, Column.isLetter c = true)
    (row : isRowNumber number = true) :
    split? (.ofChars (letters ++ number)) = some (letters, number) := by
  obtain ⟨some_digit, all_digits⟩ := Decimal.digits_of_isRowNumber row
  have unbroken : (letters ++ number).getLast? ≠ some '\n' := by
    rw [List.getLast?_append_of_ne_nil _ some_digit]
    exact getLast?_of_isRowNumber row
  have digit : ∀ c ∈ number.head?, Column.isLetter c = false :=
    fun c first => Decimal.isLetter_of_isDigit (all_digits c (List.mem_of_mem_head? first))
  rw [split_letters_append all_letters digit unbroken]
  simp [some_letter, few, row]

end Label

namespace Sheet

open Formula (Evaluator)
open Procedure (run_bind_ok run_bind_error)

/-! ## Calls step by step -/

/-- What goes wrong in a call. -/
inductive Mishap where
  | refused (e : LabelError)
  /-- A token cannot be written. -/
  | unwritten
  /-- An evaluation breaks off. -/
  | broken (reason : String)

/-- A part of a call. What it has done to the sheet when something goes wrong stays done. -/
abbrev Step := ExceptT Mishap (StateM Sheet)

/-- Gets the cell with a label, which is made if it is not there. -/
def fetch (label : Text) : Step Cell := fun s =>
  match s.cell label with
  | .ok (c, after) => (.ok c, after)
  | .error e => (.error (.refused e), s)

/-- Gets the cell with a label and changes it. -/
def alter (label : Text) (f : Cell → Cell) : Step Unit := do
  let _ ← fetch label
  modifyThe Sheet fun s => s.modify label f

/-- Writes the tokens of a formula. -/
def write (tokens : List Value) : Step (List Text) :=
  match Value.texts? tokens with
  | some formula => return formula
  | none => throw .unwritten

/-- Evaluates a formula. The cells that it asks for are made even if it breaks off. -/
def compute (ev : Evaluator) (tokens : List Text) : Step Evaluator := do
  let report := ev.evaluate resolver tokens (← get)
  set report.memory
  match report.fatal with
  | some reason => throw (.broken reason)
  | none => return report.evaluator

/-- The steps of a call, and the evaluator that its caller holds after them. -/
def Call.steps (ev : Evaluator) : Call → Step Evaluator
  | .get label => do
    let _ ← fetch label
    return ev
  | .setFormula label tokens => do
    let _ ← fetch label
    let formula ← write tokens
    modifyThe Sheet fun s => s.modify label ({ · with formula })
    return ev
  | .setValue label value => do
    alter label ({ · with value })
    return ev
  | .setError label error => do
    alter label ({ · with error })
    return ev
  | .evaluate label => do
    let c ← fetch label
    let ev ← compute ev c.formula
    modifyThe Sheet fun s => s.store label ev
    return ev
  | .evaluateTokens tokens => do
    let _ ← compute {} tokens
    return ev

section

variable {s : Sheet} {label : Text}

theorem fetch_ok {p : Position} (inside : s.position label = .ok p) :
    (fetch label).run s = (.ok (s.first label), s.touch label) := by
  have found := cell_eq s inside
  rw [find?_getD] at found
  show (match s.cell label with
    | .ok (c, after) => (.ok c, after)
    | .error e => (.error (.refused e), s) : Except Mishap Cell × Sheet) = _
  rw [found]

theorem fetch_error {e : LabelError} (refused : s.position label = .error e) :
    (fetch label).run s = (.error (.refused e), s) := by
  show (match s.cell label with
    | .ok (c, after) => (.ok c, after)
    | .error e => (.error (.refused e), s) : Except Mishap Cell × Sheet) = _
  rw [cell_refused refused]

/-- Changing a cell fails before anything is done, or makes the cell and changes it. -/
theorem run_alter (ev : Evaluator) (f : Cell → Cell) :
    (do
      alter label f
      return ev : Step Evaluator).run s = match s.position label with
        | .ok _ => (.ok ev, (s.touch label).modify label f)
        | .error e => (.error (.refused e), s) := by
  cases hp : s.position label with
  | error e =>
      have refused : (alter label f).run s = (.error (.refused e), s) :=
        run_bind_error (fetch_error hp) _
      exact run_bind_error refused _
  | ok p =>
      have altered : (alter label f).run s = (.ok (), (s.touch label).modify label f) :=
        run_bind_ok (fetch_ok hp) _
      exact run_bind_ok altered _

end

theorem fatal_evaluate (s : Sheet) (ev : Evaluator) (tokens : List Text) :
    (ev.evaluate resolver tokens s).fatal = none := by
  show (Formula.run resolver tokens s).1.fatal? = none
  rcases Formula.run_reported resolver_reports.2 tokens s with ⟨result, value⟩ | reported
  · rw [value]
    rfl
  · exact reported.2

/-- An evaluation on a sheet does not break off. -/
theorem run_compute (s : Sheet) (ev : Evaluator) (tokens : List Text) :
    (compute ev tokens).run s =
      (.ok (ev.evaluate resolver tokens s).evaluator, (ev.evaluate resolver tokens s).memory) := by
  show ((match (ev.evaluate resolver tokens s).fatal with
    | some reason => throw (.broken reason)
    | none => return (ev.evaluate resolver tokens s).evaluator : Step Evaluator).run
      (ev.evaluate resolver tokens s).memory) = _
  rw [fatal_evaluate]
  rfl

/-- **Only the label of a call can go wrong**, before anything is done, or a token that cannot be
written, when the cell is there. -/
theorem run_steps (s : Sheet) (ev : Evaluator) (call : Call) :
    (call.steps ev).run s = match s.refusal? call with
      | some e => (.error (.refused e), s)
      | none =>
        (if call.isWritable then .ok (s.act ev call).1 else .error .unwritten,
          (s.act ev call).2) := by
  cases call with
  | evaluateTokens tokens => exact run_bind_ok (run_compute s {} tokens) _
  | get label =>
      cases hp : s.position label with
      | error e =>
          simp only [refusal?, Call.label?, Option.map_some, hp]
          exact run_bind_error (fetch_error hp) _
      | ok p =>
          simp only [refusal?, Call.label?, Option.map_some, hp]
          exact run_bind_ok (fetch_ok hp) _
  | evaluate label =>
      cases hp : s.position label with
      | error e =>
          simp only [refusal?, Call.label?, Option.map_some, hp]
          exact run_bind_error (fetch_error hp) _
      | ok p =>
          simp only [refusal?, Call.label?, Option.map_some, hp]
          refine (run_bind_ok (fetch_ok hp) _).trans ?_
          refine (run_bind_ok (run_compute (s.touch label) ev _) _).trans ?_
          rw [← formulaOf_eq]
          rfl
  | setFormula label tokens =>
      simp only [refusal?, Call.label?, Option.map_some, act]
      cases hp : s.position label with
      | error e => exact run_bind_error (fetch_error hp) _
      | ok p =>
          refine (run_bind_ok (fetch_ok hp) _).trans ?_
          unfold write
          cases writable : (Call.setFormula label tokens).isWritable with
          | true =>
              rw [Value.texts?_of_writable writable]
              rfl
          | false =>
              rw [Value.texts?_of_not_writable writable]
              rfl
  | setValue label value =>
      refine (run_alter ev _).trans ?_
      simp only [refusal?, Call.label?, Option.map_some]
      cases s.position label <;> rfl
  | setError label error =>
      refine (run_alter ev _).trans ?_
      simp only [refusal?, Call.label?, Option.map_some]
      cases s.position label <;> rfl

/-! ## When a label is refused -/

/-- A label has not the form of one, has a row of too many digits, or is outside the grid. -/
def Refuses (s : Sheet) (label : Text) : Prop :=
  Label.isLabel label = false ∨ Decimal.digitLimit < (Label.rowDigits label).length ∨
    ∃ p, Label.place? label = some p ∧ (s.rows ≤ p.row ∨ s.cols ≤ p.col)

theorem position_error_iff {s : Sheet} {label : Text} :
    (∃ e, s.position label = .error e) ↔ s.Refuses label := by
  unfold position Refuses
  cases named : Label.parse label with
  | error e =>
      have unread : ∀ p, ¬ (Label.place? label = some p ∧
          (Label.rowDigits label).length ≤ Decimal.digitLimit) := by
        intro p read
        rw [Label.parse_ok_iff.mpr read] at named
        cases named
      simp only [Except.error.injEq, exists_eq', true_iff]
      by_cases formed : Label.isLabel label = true
      · obtain ⟨p, place⟩ := Label.isLabel_iff.mp formed
        exact .inr (.inl (Nat.lt_of_not_le fun short => unread p ⟨place, short⟩))
      · exact .inl (Bool.not_eq_true _ ▸ formed)
  | ok p =>
      obtain ⟨place, short⟩ := Label.parse_ok_iff.mp named
      have formed : Label.isLabel label = true := Label.isLabel_iff.mpr ⟨p, place⟩
      simp only [formed, place, Option.some.injEq]
      by_cases inside : p.row < s.rows ∧ p.col < s.cols
      · simp [inside]
        omega
      · simp [inside]
        omega

theorem refusal?_eq_some_iff {s : Sheet} {call : Call} {e : LabelError} :
    s.refusal? call = some e ↔ ∃ label, call.label? = some label ∧ s.position label = .error e := by
  unfold refusal?
  cases about : call.label? with
  | none => simp
  | some label =>
      cases hp : s.position label with
      | error e => simp [hp]
      | ok p => simp [hp]

theorem isWritable_eq_false_iff {call : Call} :
    call.isWritable = false ↔
      ∃ label tokens, call = .setFormula label tokens ∧ Value.areWritable tokens = false := by
  cases call <;> simp [Call.isWritable]

/-! ## What all calls keep -/

theorem Changed.size {s t : Sheet} (changed : Changed s t) : t.rows = s.rows ∧ t.cols = s.cols := by
  induction changed with
  | same => exact ⟨rfl, rfl⟩
  | @touch t label _ ih =>
      have grown := t.grown_touch label
      rw [grown.rows, grown.cols]
      exact ih
  | modify label labels _ ih => exact ih

theorem labels_touch (s : Sheet) (label : Text) :
    s.cells.map Cell.label <+: (s.touch label).cells.map Cell.label := by
  rw [touch_eq]
  split
  · rw [List.map_append]
    exact List.prefix_append _ _
  · exact List.prefix_refl _

/-- No cell is taken away, and those that are made come behind the others. -/
theorem Changed.labels {s t : Sheet} (changed : Changed s t) :
    s.cells.map Cell.label <+: t.cells.map Cell.label := by
  induction changed with
  | same => exact List.prefix_refl _
  | touch label _ ih => exact ih.trans (labels_touch _ label)
  | modify label labels _ ih =>
      rw [labels_modify _ label labels]
      exact ih

theorem changed_afterAll (s : Sheet) (calls : List (Evaluator × Call)) :
    Changed s (s.afterAll calls) := by
  induction calls generalizing s with
  | nil => exact .same
  | cons call calls ih => exact (s.changed_after call.1 call.2).trans (ih _)

/-! ## The store -/

/-- The labels of the cells are different, and each of them is read as a position in the grid. They
are listed row by row. -/
structure Stored (s : Sheet) : Prop where
  sized : 1 ≤ s.rows ∧ 1 ≤ s.cols
  nodup : (s.cells.map Cell.label).Nodup
  inside : ∀ c ∈ s.cells, Label.isLabel c.label = true ∧
    ∃ p, Label.parse c.label = .ok p ∧ p.row < s.rows ∧ p.col < s.cols
  listed : s.labels.Perm (s.cells.map Cell.label)
  sorted : s.labels.Pairwise fun a b =>
    ∃ p q, Label.parse a = .ok p ∧ Label.parse b = .ok q ∧ (p.Before q ∨ p = q)

theorem Sound.stored {s : Sheet} (sound : s.Sound) : s.Stored := by
  have perm : s.sortedCells.Perm s.cells := List.mergeSort_perm s.cells _
  refine ⟨⟨s.rows_pos, s.cols_pos⟩, sound.nodup, ?_, perm.map Cell.label, ?_⟩
  · intro c there
    obtain ⟨named, bounds⟩ := sound.named there
    exact ⟨Label.isLabel_iff.mpr ⟨_, (Label.parse_ok_iff.mp named).1⟩, c.position, named, bounds⟩
  · have sorted := List.pairwise_map.mp sound.positions_sorted
    refine List.pairwise_map.mpr (sorted.imp_of_mem ?_)
    intro c d here there le
    obtain ⟨named, _⟩ := sound.named (perm.mem_iff.mp here)
    obtain ⟨also, _⟩ := sound.named (perm.mem_iff.mp there)
    exact ⟨c.position, d.position, named, also, Position.le_iff.mp le⟩

/-- What a call that fails has done: nothing if its label is refused; and if a token of a formula
cannot be written, the cell has been fetched. -/
def FailsWith (s : Sheet) (call : Call) (t : Sheet) : Prop :=
  ((∃ label, call.label? = some label ∧ s.Refuses label) ∧ t = s) ∨
    ∃ label tokens c, call = .setFormula label tokens ∧ Value.areWritable tokens = false ∧
      s.cell label = .ok (c, t)

/-- **The store of a sheet.** In a sheet that can be reached the labels of the cells are different,
in the grid and listed row by row; no calls change its size or take a cell away. A call fails
exactly if it is about a label that is refused or is given a token that cannot be written, and
leaves the sheet as it was, but in the latter case for a cell that it may have made. -/
theorem store_kept {s : Sheet} (reachable : Reachable s) :
    s.Stored ∧
    (∀ calls, (s.afterAll calls).rows = s.rows ∧ (s.afterAll calls).cols = s.cols ∧
      s.cells.map Cell.label <+: (s.afterAll calls).cells.map Cell.label) ∧
    ∀ (ev : Evaluator) (call : Call),
      ((call.steps ev).run s).2 = (s.after ev call).2 ∧
      (∀ mishap t, (call.steps ev).run s = (.error mishap, t) → s.FailsWith call t) ∧
      ((∃ mishap t, (call.steps ev).run s = (.error mishap, t)) ↔
        (∃ label, call.label? = some label ∧ s.Refuses label) ∨
          ∃ label tokens, call = .setFormula label tokens ∧ Value.areWritable tokens = false) := by
  refine ⟨reachable.sound.stored, ?_, ?_⟩
  · intro calls
    have changed := s.changed_afterAll calls
    exact ⟨changed.size.1, changed.size.2, changed.labels⟩
  intro ev call
  rw [run_steps, after_eq]
  cases admitted : s.refusal? call with
  | some e =>
      obtain ⟨label, about, refused⟩ := refusal?_eq_some_iff.mp admitted
      have refuses : ∃ label, call.label? = some label ∧ s.Refuses label :=
        ⟨label, about, position_error_iff.mp ⟨e, refused⟩⟩
      refine ⟨rfl, ?_, fun _ => .inl refuses, fun _ => ⟨_, _, rfl⟩⟩
      intro mishap t failed
      cases failed
      exact .inl ⟨refuses, rfl⟩
  | none =>
      have not_refused : ¬ ∃ label, call.label? = some label ∧ s.Refuses label := by
        rintro ⟨label, about, refuses⟩
        obtain ⟨e, refused⟩ := position_error_iff.mpr refuses
        rw [refusal?_eq_some_iff.mpr ⟨label, about, refused⟩] at admitted
        cases admitted
      rw [← isWritable_eq_false_iff]
      cases writable : call.isWritable with
      | true =>
          refine ⟨rfl, ?_, ?_, ?_⟩
          · rintro mishap t ⟨⟩
          · rintro ⟨mishap, t, ⟨⟩⟩
          · rintro (refuses | unwritten)
            · exact absurd refuses not_refused
            · cases unwritten
      | false =>
          obtain ⟨label, tokens, rfl, unwritten⟩ := isWritable_eq_false_iff.mp writable
          obtain ⟨p, inside⟩ := inside_of_admitted admitted rfl
          have fetched : (s.act ev (.setFormula label tokens)).2 = s.touch label := by
            simp only [act]
            rw [Value.texts?_of_not_writable unwritten]
          refine ⟨rfl, ?_, fun _ => .inr rfl, fun _ => ⟨_, _, rfl⟩⟩
          intro mishap t failed
          cases failed
          exact .inr ⟨label, tokens, _, rfl, unwritten, fetched ▸ cell_eq s inside⟩

/-- In a sheet of one row and two columns, a label outside of it is refused after an evaluation that
has made a cell. -/
theorem store_kept_oneRow :
    let s := (oneRow 1).afterAll [({}, .setFormula "A1" ["B1"]), ({}, .evaluate "A1")]
    Reachable s ∧ s.Stored ∧ s.cells.map Cell.label = [("A1" : Text), "B1"] ∧
      ∃ mishap t, ((Call.evaluate "C1").steps {}).run s = (.error mishap, t) ∧
        s.FailsWith (.evaluate "C1") t := by
  intro s
  have reachable : Reachable s :=
    .called {} _ (.called {} _ (.sized (show ofSize 1 2 = .ok (oneRow 1) from rfl)))
  obtain ⟨stored, _, calls⟩ := store_kept reachable
  obtain ⟨_, left, fails⟩ := calls {} (.evaluate "C1")
  have outside : Label.place? "C1" = some ⟨0, 2⟩ ∧ s.cols ≤ 2 := by decide
  have refuses : s.Refuses "C1" := .inr (.inr ⟨_, outside.1, .inr outside.2⟩)
  obtain ⟨mishap, t, failed⟩ := fails.mpr (.inl ⟨"C1", rfl, refuses⟩)
  exact ⟨reachable, stored, by decide +kernel, mishap, t, failed, left mishap t failed⟩

/-! ## Labels with too many digits -/

/-- The label in the first column of the row with the number `10 ^ n`. -/
def farLabel (n : Nat) : Text :=
  .ofChars (['A'] ++ '1' :: List.replicate n '0')

theorem valueOf_one_zeros (n : Nat) : Decimal.valueOf ('1' :: List.replicate n '0') = 10 ^ n := by
  induction n with
  | zero => rfl
  | succ n ih =>
      rw [List.replicate_succ', ← List.cons_append, Decimal.valueOf_append_singleton, ih]
      simp
      omega

theorem split_farLabel (n : Nat) :
    Label.split? (farLabel n) = some (['A'], '1' :: List.replicate n '0') := by
  have letter : ∀ c ∈ ['A'], Column.isLetter c = true := by
    intro c there
    rw [List.mem_singleton.mp there]
    decide
  refine Label.split_append (by simp) (by simp) letter ?_
  simp [Label.isRowNumber, List.all_replicate, Text.isDigit]

/-- A sheet of one column, with as many rows as the number says. -/
def oneColumn (rows : Nat) (some_row : 0 < rows) : Sheet :=
  { rows, cols := 1, rows_pos := some_row, cols_pos := Nat.one_pos }

theorem ofSize_oneColumn {rows : Nat} (some_row : 0 < rows) :
    ofSize rows 1 = .ok (oneColumn rows some_row) := by
  unfold ofSize
  rw [dif_pos ⟨by omega, by omega⟩]
  simp [oneColumn]

/-- The far label of more digits than are read is refused, although its row is in the grid. -/
theorem fails_farLabel {n : Nat} (long : Decimal.digitLimit ≤ n) (some_row : 0 < 10 ^ n) :
    Label.isLabel (farLabel n) = true ∧ Label.place? (farLabel n) = some ⟨10 ^ n - 1, 0⟩ ∧
      ∃ mishap t, ((Call.get (farLabel n)).steps {}).run (oneColumn (10 ^ n) some_row) =
        (.error mishap, t) := by
  have place : Label.place? (farLabel n) = some ⟨10 ^ n - 1, 0⟩ := by
    unfold Label.place?
    rw [split_farLabel, ← valueOf_one_zeros]
    rfl
  have digits : Decimal.digitLimit < (Label.rowDigits (farLabel n)).length := by
    unfold Label.rowDigits
    rw [split_farLabel]
    simp
    omega
  have refused := (position_error_iff (s := oneColumn (10 ^ n) some_row)).mpr (.inr (.inl digits))
  obtain ⟨e, refused⟩ := refused
  exact ⟨Label.isLabel_iff.mpr ⟨_, place⟩, place, _, _, run_bind_error (fetch_error refused) _⟩

/-- The least number with more digits than are written. -/
def longToken : Value :=
  .int (Nat.pow 10 Decimal.digitLimit)

/-- A formula of a number that is too long to be written is refused when its cell has been made. -/
theorem fails_longToken :
    ((Call.setFormula "A1" [longToken]).steps {}).run (oneRow 0) =
      (.error .unwritten, { oneRow 0 with cells := [{ label := "A1" }] }) := by
  have unwritten : (Call.setFormula "A1" [longToken]).isWritable = false := by decide +kernel
  have admitted : (oneRow 0).refusal? (.setFormula "A1" [longToken]) = none := by decide +kernel
  rw [run_steps, admitted, unwritten]
  simp only [act]
  rw [Value.texts?_of_not_writable unwritten]
  rfl

/-- **A label with too many digits is refused even in a grid that has its row, and a call that fails
can leave a cell behind.** -/
theorem refused_in_grid_or_half_done :
    (∃ (s : Sheet) (label : Text) (p : Position), Reachable s ∧ Label.isLabel label = true ∧
      Label.place? label = some p ∧ p.row < s.rows ∧ p.col < s.cols ∧
      ∃ mishap t, ((Call.get label).steps {}).run s = (.error mishap, t)) ∧
    ∃ (s : Sheet) (call : Call), Reachable s ∧
      ∃ mishap t, (call.steps {}).run s = (.error mishap, t) ∧ t ≠ s := by
  constructor
  · have some_row : 0 < 10 ^ Decimal.digitLimit := Nat.pow_pos (by omega)
    obtain ⟨formed, place, failed⟩ := fails_farLabel (Nat.le_refl _) some_row
    exact ⟨oneColumn _ some_row, farLabel _, _, .sized (ofSize_oneColumn some_row), formed, place,
      Nat.sub_lt some_row Nat.one_pos, Nat.one_pos, failed⟩
  · refine ⟨oneRow 0, .setFormula "A1" [longToken], reachable_oneRow, _, _, fails_longToken, ?_⟩
    intro same
    cases congrArg Sheet.cells same

end Sheet

end SheetCalc
