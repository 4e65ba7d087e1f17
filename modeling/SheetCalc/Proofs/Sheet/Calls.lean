import SheetCalc.Proofs.Procedure
import SheetCalc.Proofs.Sheet.FixedPoint
import SheetCalc.Sheet.Spec

/-!
# Calls

What is asked of a sheet from outside is a `Call`. A call whose label is refused fails and changes
nothing; otherwise it acts, and fails only if it is given a token that cannot be written
(`perform_eq`, `after_eq`).

All that calls do to a sheet is made of two small changes: a label is asked for, or the cells with a
label are changed (`Changed`). What these two keep is kept by every call, as it is kept that the
labels of the cells are different and in the grid (`Sound`). All sheets that can be reached from a
size or a description are so (`Reachable.sound`).
-/

namespace SheetCalc.Sheet

open Formula (Evaluator Report)
open Procedure (bind_ok_iff mapError_ok_iff)

/-- What is asked of a sheet from outside. -/
inductive Call where
  | get (label : Text)
  | setFormula (label : Text) (tokens : List Value)
  | setValue (label : Text) (value : Value)
  | setError (label error : Text)
  | evaluate (label : Text)
  /-- Evaluates a formula that is in no cell, with an evaluator of its own. -/
  | evaluateTokens (tokens : List Text)

/-- The label of the cell that a call is about. -/
def Call.label? : Call → Option Text
  | .get label => some label
  | .setFormula label _ => some label
  | .setValue label _ => some label
  | .setError label _ => some label
  | .evaluate label => some label
  | .evaluateTokens _ => none

/-- Whether the tokens that a call is given can be written. -/
def Call.isWritable : Call → Bool
  | .setFormula _ tokens => Value.areWritable tokens
  | _ => true

/-- A change that fails leaves the sheet as it is. -/
def orLeave (s : Sheet) : Except LabelError (Evaluator × Sheet) → Except CellError Evaluator × Sheet
  | .ok (ev, changed) => (.ok ev, changed)
  | .error e => (.error (.badLabel e), s)

/-- Answers a call, for a caller that holds an evaluator. What comes out is the evaluator that the
caller then holds, or what goes wrong, and the sheet. -/
def perform (s : Sheet) (ev : Evaluator) : Call → Except CellError Evaluator × Sheet
  | .get label => s.orLeave ((s.cell label).map fun (_, s) => (ev, s))
  | .setFormula label tokens =>
    let (done, s) := s.setFormula label tokens
    (done.map fun _ => ev, s)
  | .setValue label value => s.orLeave ((s.setValue label value).map fun s => (ev, s))
  | .setError label error => s.orLeave ((s.setError label error).map fun s => (ev, s))
  | .evaluate label => s.orLeave (s.evaluateCell label ev)
  | .evaluateTokens tokens => (.ok ev, (Formula.evaluate resolver tokens s).memory)

/-- The evaluator and the sheet after a call. The evaluator is as before after one that fails. -/
def after (s : Sheet) (ev : Evaluator) (call : Call) : Evaluator × Sheet :=
  match s.perform ev call with
  | (.ok ev, changed) => (ev, changed)
  | (.error _, changed) => (ev, changed)

/-- A sheet after some calls, each with an evaluator of its own. -/
def afterAll (s : Sheet) (calls : List (Evaluator × Call)) : Sheet :=
  calls.foldl (fun s (ev, call) => (s.after ev call).2) s

/-- A sheet with one row, and one column more than is said. -/
def oneRow (more : Nat) : Sheet :=
  { rows := 1, cols := more + 1, rows_pos := Nat.one_pos, cols_pos := Nat.succ_pos more }

theorem afterAll_concat (s : Sheet) (calls : List (Evaluator × Call)) (ev : Evaluator)
    (call : Call) : s.afterAll (calls ++ [(ev, call)]) = ((s.afterAll calls).after ev call).2 := by
  unfold afterAll
  rw [List.foldl_append]
  rfl

/-! ## What a call does -/

/-- The evaluation of the formula of a cell. The cell is made before, if it is not there. -/
def report (s : Sheet) (ev : Evaluator) (label : Text) : Report Sheet :=
  ev.evaluate resolver (s.formulaOf label) (s.touch label)

/-- What a call does unless its label is refused. -/
def act (s : Sheet) (ev : Evaluator) : Call → Evaluator × Sheet
  | .get label => (ev, s.touch label)
  | .setFormula label tokens =>
    (ev, match Value.texts? tokens with
      | some formula => (s.touch label).modify label ({ · with formula })
      | none => s.touch label)
  | .setValue label value => (ev, (s.touch label).modify label ({ · with value }))
  | .setError label error => (ev, (s.touch label).modify label ({ · with error }))
  | .evaluate label =>
    let report := s.report ev label
    (report.evaluator, report.memory.store label report.evaluator)
  | .evaluateTokens tokens => (ev, (Formula.evaluate resolver tokens s).memory)

/-- Why the label of a call is refused, if it is. -/
def refusal? (s : Sheet) (call : Call) : Option LabelError :=
  match call.label?.map s.position with
  | some (.error e) => some e
  | _ => none

theorem cell_refused {s : Sheet} {label : Text} {e : LabelError}
    (refused : s.position label = .error e) : s.cell label = .error e := by
  unfold cell
  rw [refused]

theorem update_eq (s : Sheet) (label : Text) (f : Cell → Cell) :
    s.update label f = (s.position label).map fun _ => (s.touch label).modify label f := by
  unfold update
  cases hp : s.position label with
  | error e =>
      rw [cell_refused hp]
      rfl
  | ok p =>
      rw [cell_eq s hp]
      rfl

theorem update_orLeave (s : Sheet) (ev : Evaluator) (label : Text) (f : Cell → Cell) :
    s.orLeave ((s.update label f).map fun s => (ev, s)) =
      match s.position label with
      | .error e => (.error (.badLabel e), s)
      | .ok _ => (.ok ev, (s.touch label).modify label f) := by
  rw [update_eq]
  cases s.position label <;> rfl

/-- The cell is made, and then changed if the tokens can be written. -/
theorem setFormula_eq (s : Sheet) (label : Text) (tokens : List Value) :
    s.setFormula label tokens =
      match s.position label, Value.texts? tokens with
      | .error e, _ => (.error (.badLabel e), s)
      | .ok _, some formula => (.ok (), (s.touch label).modify label ({ · with formula }))
      | .ok _, none => (.error .notWritable, s.touch label) := by
  unfold setFormula
  cases hp : s.position label with
  | error e => rw [cell_refused hp]
  | ok p =>
      rw [cell_eq s hp]
      cases Value.texts? tokens <;> rfl

/-- **A call fails if its label is refused**, and then does nothing. Otherwise it does what it is
there for as far as it comes, and fails exactly if it is given a token that cannot be written. -/
theorem perform_eq (s : Sheet) (ev : Evaluator) (call : Call) :
    s.perform ev call =
      match s.refusal? call with
      | some e => (.error (.badLabel e), s)
      | none =>
        (if call.isWritable then .ok (s.act ev call).1 else .error .notWritable,
          (s.act ev call).2) := by
  cases call with
  | get label =>
      simp only [perform, refusal?, Call.label?, Option.map_some]
      cases hp : s.position label with
      | error e =>
          rw [cell_refused hp]
          rfl
      | ok p =>
          rw [cell_eq s hp]
          rfl
  | setFormula label tokens =>
      simp only [perform, setFormula_eq, refusal?, Call.label?, Option.map_some, act]
      cases s.position label with
      | error e => rfl
      | ok p =>
          cases writable : (Call.setFormula label tokens).isWritable with
          | true =>
              rw [Value.texts?_of_writable writable]
              rfl
          | false =>
              rw [Value.texts?_of_not_writable writable]
              rfl
  | setValue label value =>
      simp only [perform, setValue, update_orLeave, refusal?, Call.label?, Option.map_some]
      cases s.position label <;> rfl
  | setError label error =>
      simp only [perform, setError, update_orLeave, refusal?, Call.label?, Option.map_some]
      cases s.position label <;> rfl
  | evaluate label =>
      simp only [perform, evaluateCell, refusal?, Call.label?, Option.map_some]
      cases hp : s.position label with
      | error e =>
          rw [cell_refused hp]
          rfl
      | ok p =>
          rw [cell_eq s hp]
          rfl
  | evaluateTokens tokens => rfl

/-- A caller holds the same evaluator after a call that is given a token that cannot be written. -/
theorem act_fst_of_not_writable {call : Call} (unwritten : call.isWritable = false) (s : Sheet)
    (ev : Evaluator) : (s.act ev call).1 = ev := by
  cases call with
  | setFormula label tokens => rfl
  | _ => cases unwritten

theorem after_eq (s : Sheet) (ev : Evaluator) (call : Call) :
    s.after ev call =
      match s.refusal? call with
      | some _ => (ev, s)
      | none => s.act ev call := by
  unfold after
  rw [perform_eq]
  cases s.refusal? call with
  | some e => rfl
  | none =>
      cases writable : call.isWritable with
      | true => rfl
      | false => exact Prod.ext (act_fst_of_not_writable writable s ev).symm rfl

theorem inside_of_admitted {s : Sheet} {call : Call} {label : Text}
    (admitted : s.refusal? call = none) (about : call.label? = some label) :
    ∃ p, s.position label = .ok p := by
  simp only [refusal?, about, Option.map_some] at admitted
  cases hp : s.position label with
  | ok p => exact ⟨p, rfl⟩
  | error e =>
      rw [hp] at admitted
      cases admitted

theorem memory_evaluate (s : Sheet) (ev : Evaluator) (tokens : List Text) :
    (ev.evaluate resolver tokens s).memory =
      resolver.askAll (ev.evaluate resolver tokens s).asked s :=
  Formula.memory_run resolver tokens s

/-! ## Small changes -/

/-- What comes of a sheet when labels are asked for and cells are changed, but for their labels. -/
inductive Changed (s : Sheet) : Sheet → Prop
  | same : Changed s s
  | touch {t} (label : Text) : Changed s t → Changed s (t.touch label)
  | modify {t} (label : Text) {f : Cell → Cell}
      (labels : ∀ c, c.label = label → (f c).label = label) :
      Changed s t → Changed s (t.modify label f)

theorem Changed.askAll {s t : Sheet} (changed : Changed s t) (labels : List Text) :
    Changed s (resolver.askAll labels t) := by
  induction labels generalizing t with
  | nil => exact changed
  | cons label labels ih => exact ih (changed.touch label)

/-- **What a call does to a sheet is made of small changes.** -/
theorem changed_after (s : Sheet) (ev : Evaluator) (call : Call) :
    Changed s (s.after ev call).2 := by
  rw [after_eq]
  cases s.refusal? call with
  | some e => exact .same
  | none =>
      cases call with
      | get label => exact .touch label .same
      | setFormula label tokens =>
          simp only [act]
          split
          · exact .modify label (fun _ here => here) (.touch label .same)
          · exact .touch label .same
      | setValue label value => exact .modify label (fun _ here => here) (.touch label .same)
      | setError label error => exact .modify label (fun _ here => here) (.touch label .same)
      | evaluate label =>
          refine .modify label (fun _ here => here) ?_
          show Changed s (s.report ev label).memory
          rw [report, memory_evaluate]
          exact (Changed.touch label .same).askAll _
      | evaluateTokens tokens =>
          show Changed s (Evaluator.evaluate {} resolver tokens s).memory
          rw [memory_evaluate]
          exact Changed.same.askAll _

/-! ## The labels of the cells -/

/-- The cells of a sheet have different labels, all of them in the grid. -/
structure Sound (s : Sheet) : Prop where
  nodup : (s.cells.map Cell.label).Nodup
  inside : ∀ c ∈ s.cells, ∃ p, s.position c.label = .ok p

theorem ofSize_ok_iff {m n : Int} {s : Sheet} :
    ofSize m n = .ok s ↔ m = s.rows ∧ n = s.cols ∧ s.cells = [] := by
  obtain ⟨rows, cols, cells, rows_pos, cols_pos⟩ := s
  unfold ofSize
  constructor
  · intro sized
    split at sized
    · cases sized
      exact ⟨(Int.toNat_of_nonneg (by omega)).symm, (Int.toNat_of_nonneg (by omega)).symm, rfl⟩
    · cases sized
  · rintro ⟨rfl, rfl, rfl⟩
    have sized : 1 ≤ (rows : Int) ∧ 1 ≤ (cols : Int) := by omega
    rw [dif_pos sized]
    simp

theorem sound_ofSize {rows cols : Int} {s : Sheet} (made : ofSize rows cols = .ok s) : s.Sound := by
  have none_there := (ofSize_ok_iff.mp made).2.2
  refine ⟨?_, ?_⟩
  · rw [none_there]
    exact .nil
  · intro c there
    rw [none_there] at there
    cases there

theorem Sound.touch {s : Sheet} (sound : s.Sound) (label : Text) : (s.touch label).Sound := by
  rw [touch_eq]
  split
  · next p inside none_there =>
      refine ⟨?_, ?_⟩
      · rw [List.map_append, List.nodup_append]
        refine ⟨sound.nodup, List.pairwise_singleton _ _, ?_⟩
        rintro a there b made rfl
        rw [List.mem_singleton.mp made] at there
        exact cellsOf_eq_nil.mp none_there there
      · intro c there
        show ∃ p, s.position c.label = .ok p
        rcases List.mem_append.mp there with there | there
        · exact sound.inside c there
        · rw [List.mem_singleton.mp there]
          exact ⟨p, inside⟩
  · exact sound

theorem Sound.modify {s : Sheet} (sound : s.Sound) (label : Text) {f : Cell → Cell}
    (labels : ∀ c, c.label = label → (f c).label = label) : (s.modify label f).Sound := by
  refine ⟨?_, ?_⟩
  · rw [labels_modify s label labels]
    exact sound.nodup
  · intro c there
    have among : c.label ∈ s.cells.map Cell.label := by
      rw [← labels_modify s label labels]
      exact List.mem_map_of_mem there
    obtain ⟨c', there', same⟩ := List.mem_map.mp among
    rw [← same]
    exact sound.inside c' there'

theorem Changed.sound {s t : Sheet} (changed : Changed s t) (sound : s.Sound) : t.Sound := by
  induction changed with
  | same => exact sound
  | touch label _ ih => exact ih.touch label
  | modify label labels _ ih => exact ih.modify label labels

theorem Changed.trans {s t u : Sheet} (first : Changed s t) (second : Changed t u) :
    Changed s u := by
  induction second with
  | same => exact first
  | touch label _ ih => exact ih.touch label
  | modify label labels _ ih => exact ih.modify label labels

theorem Sound.afterAll {s : Sheet} (sound : s.Sound) (calls : List (Evaluator × Call)) :
    (s.afterAll calls).Sound := by
  induction calls generalizing s with
  | nil => exact sound
  | cons call calls ih => exact ih ((s.changed_after call.1 call.2).sound sound)

/-! ## Sheets that can be reached -/

/-- A sheet that has been made from a size or a description, after any number of calls. -/
inductive Reachable : Sheet → Prop
  | sized {rows cols s} : ofSize rows cols = .ok s → Reachable s
  | described {spec rows cols s} : ofSpec spec rows cols = .ok s → Reachable s
  | called {s} (ev : Evaluator) (call : Call) : Reachable s → Reachable (s.after ev call).2

/-- An entry of a description is put into a sheet: its label leads into the grid, all that it says
of the cell is read, and then the cell is changed. -/
theorem addSpec_ok_iff {s t : Sheet} {key : Key} {entry : Value} :
    s.addSpec key entry = .ok t ↔ key.isWritable = true ∧ (∃ p, s.position key.asText = .ok p) ∧
      ∃ fields formula value? error?, entry = Value.mapping fields ∧
        Spec.formula key.asText fields = .ok formula ∧
        Spec.value? key.asText fields = .ok value? ∧ Spec.error? fields = .ok error? ∧
        ((s.touch key.asText).modify key.asText fun _ =>
          { s.first key.asText with
            formula
            value := value?.getD (s.first key.asText).value
            error := error?.getD (s.first key.asText).error }) = t := by
  unfold addSpec
  simp only
  split
  · next writable =>
      simp only [writable, true_and]
      cases entry with
      | mapping fields =>
          simp only [bind_ok_iff, mapError_ok_iff, Value.mapping.injEq, exists_and_left,
            exists_eq_left', pure, Except.pure, Except.ok.injEq]
          cases hp : s.position key.asText with
          | error e => simp [cell_refused hp]
          | ok p => simp [cell_eq s hp, find?_getD]
      | _ => simp [throw, throwThe, MonadExceptOf.throw]
  · next unwritable => simp [throw, throwThe, MonadExceptOf.throw, bind, Except.bind, unwritable]

theorem changed_addSpec {s t : Sheet} {key : Key} {spec : Value}
    (added : s.addSpec key spec = .ok t) : Changed s t := by
  obtain ⟨_, _, fields, formula, value?, error?, _, _, _, _, rfl⟩ := addSpec_ok_iff.mp added
  exact .modify key.asText (fun _ _ => s.label_first key.asText) (.touch key.asText .same)

theorem changed_addSpecs {s t : Sheet} {cells : Spec}
    (added : cells.foldlM (fun s (key, spec) => s.addSpec key spec) s = .ok t) : Changed s t := by
  induction cells generalizing s with
  | nil =>
      cases added
      exact .same
  | cons entry cells ih =>
      obtain ⟨u, first, rest⟩ := bind_ok_iff.mp added
      exact (changed_addSpec first).trans (ih rest)

theorem changed_ofSpec {spec : Spec} {rows cols : Int} {t : Sheet}
    (made : ofSpec spec rows cols = .ok t) :
    ∃ rows cols s, ofSize rows cols = .ok s ∧ Changed s t := by
  obtain ⟨rows, _, made⟩ := bind_ok_iff.mp made
  obtain ⟨cols, _, made⟩ := bind_ok_iff.mp made
  obtain ⟨s, sized, made⟩ := bind_ok_iff.mp made
  obtain ⟨cells, _, made⟩ := bind_ok_iff.mp made
  exact ⟨rows, cols, s, mapError_ok_iff.mp sized, changed_addSpecs made⟩

theorem Reachable.sound {s : Sheet} (reachable : Reachable s) : s.Sound := by
  induction reachable with
  | sized made => exact sound_ofSize made
  | described made =>
      obtain ⟨_, _, _, sized, changed⟩ := changed_ofSpec made
      exact changed.sound (sound_ofSize sized)
  | called ev call _ ih => exact (changed_after _ ev call).sound ih

end SheetCalc.Sheet
