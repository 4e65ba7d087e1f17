import SheetCalc.Proofs.Files
import SheetCalc.Proofs.Sheet.Description
import SheetCalc.Proofs.Text.Utf8
import SheetCalc.Sheet.File

/-!
# How loading a sheet fails

A file that holds no sheet is refused: it is said that the document, the label, the size or whatever
it is does not fit (`LoadError.IsRefusal`). Some files are not refused although they hold no sheet,
since what is wrong with them is noticed too late. There are three kinds of them (`Trips`):

* collections inside too many others, and an escape with too large a number;
* a count of rows or columns that is no number at all, or is infinite (`Value.IsUncountable`);
* a cell with an integer beyond all floats as its value.

On these and no others loading breaks off (`Sheet.load_trips_iff`). What comes before in the
document is all right then: the counts are read in their order, and the cells one after the other.
-/

namespace SheetCalc

/-! ## Documents -/

/-- A document that consists of a node is read as the value that the node is. -/
theorem Yaml.read_of_node {cs : List Char} {node : Node} {v : Value}
    (parsed : Node.ofText? (Text.unifyBreaks cs) = .ok (some node))
    (allowed : (Text.unifyBreaks cs).all isAllowed = true)
    (value : node.toValue (Node.depthLimit + 1) = .ok v) : read cs = .ok v := by
  unfold read
  simp only [allowed, parsed, value, bind, Except.bind]
  rfl

/-! ## Failures -/

/-- What is refused in a description. -/
def SpecError.IsRefusal : SpecError → Prop
  | .badCount e => e ≠ .infinite ∧ ∀ kind, e ≠ .wrongKind kind
  | e => e ≠ .valueTooLarge

/-- What is refused in a file that can be read. -/
def LoadError.IsRefusal : LoadError → Prop
  | .badDocument _ | .notMapping _ => True
  | .badScalar e => e ≠ .tooDeep ∧ e ≠ .codeTooLarge
  | .badSpec e => e.IsRefusal
  | .notFound _ | .unreadable _ => False

/-- A value that is no count of anything: neither a number nor a text or a truth value, or an
infinite number. -/
def Value.IsUncountable : Value → Prop
  | .null | .list _ | .mapping _ => True
  | .float x => x.isInf = true
  | _ => False

/-- An entry that would describe a cell, but the value that it gives is an integer beyond all
floats. -/
structure Spec.Overflows (rows cols : Nat) (entry : Key × Value) : Prop where
  inside : ∃ p, Label.parse entry.1.asText = .ok p ∧ p.row < rows ∧ p.col < cols
  content : ∃ fields formula k, entry.2 = .mapping fields ∧ HasFormula fields formula ∧
    field? "value" fields = some (.int k) ∧ floatOfInt k = .error .tooLarge

/-- Descriptions over which the building of a sheet breaks off. -/
inductive Spec.Trips (spec : Spec) (rows cols : Int) : Prop
  | rows {v : Value} : spec.field? "n_rows" = some v → v.IsUncountable → Trips spec rows cols
  | cols {n : Int} {v : Value} : ((spec.field? "n_rows").getD (.int rows)).toInt = .ok n →
      spec.field? "n_cols" = some v → v.IsUncountable → Trips spec rows cols
  | value {m n : Nat} {before after : Spec} {entry : Key × Value} :
      spec.Measures "n_rows" rows m → spec.Measures "n_cols" cols n →
      spec.Contains (before ++ entry :: after) →
      (∀ earlier ∈ before, ∃ c, Spec.Describes m n earlier c) → Spec.Overflows m n entry →
      Trips spec rows cols

/-- Texts over which the loading of a sheet breaks off. -/
inductive Trips (text : List Char) (rows cols : Int) : Prop
  | deep : Yaml.read (Text.unifyBreaks text) = .error .tooDeep → Trips text rows cols
  | escape : Yaml.read (Text.unifyBreaks text) = .error .codeTooLarge → Trips text rows cols
  | spec {spec : Spec} : Yaml.read (Text.unifyBreaks text) = .ok (.mapping spec) →
      spec.Trips rows cols → Trips text rows cols

theorem Files.Holds.readText {fs : Files} {path : Path} {text : List Char}
    (holds : fs.Holds path (Text.Utf8.encode text)) :
    fs.readText path = .ok (Text.unifyBreaks text) := by
  have decoded := Text.Utf8.decode_encode_append text []
  rw [List.append_nil, Text.Utf8.decode_nil, List.append_nil] at decoded
  rw [Files.readText, holds.read]
  simp only [Except.map, decoded]

/-! ## Numbers -/

theorem Value.uncountable_iff {v : Value} :
    v.IsUncountable ↔ ∃ e, v.toInt = .error e ∧ ¬ (SpecError.badCount e).IsRefusal := by
  unfold Value.IsUncountable Value.toInt SpecError.IsRefusal
  cases v with
  | float x =>
      simp only [Decimal.isInf_iff, ← Decimal.truncate?_eq_none_iff]
      cases Decimal.truncate? x <;> cases x.isNaN <;> simp
  | text t =>
      simp only
      cases Decimal.readInt t.chars with
      | ok n => simp
      | error e => cases e <;> simp
  | _ => simp

theorem Value.toFloat_tooLarge_iff {v : Value} :
    v.toFloat = .error .tooLarge ↔ ∃ k, v = .int k ∧ floatOfInt k = .error .tooLarge := by
  unfold Value.toFloat
  cases v with
  | text t =>
      simp only
      cases Decimal.readFloat? t.chars <;> simp
  | _ => simp

namespace Sheet

open Procedure (bind_error_iff mapError_error_iff mapError_ok_iff)
open Spec (Describes)

/-! ## One step after the other -/

/-- A count is refused or read, or it is no count of anything. -/
theorem count_trips_iff {spec : Spec} {name : String} {default : Int} :
    (∃ e, spec.count name default = .error e ∧ ¬ e.IsRefusal) ↔
      ∃ v, spec.field? name = some v ∧ v.IsUncountable := by
  unfold Spec.count
  cases spec.field? name with
  | none => simp
  | some v =>
      simp only [mapError_error_iff, Option.some.injEq, exists_eq_left', Value.uncountable_iff]
      constructor
      · rintro ⟨_, ⟨e, failed, rfl⟩, unrefused⟩
        exact ⟨e, failed, unrefused⟩
      · rintro ⟨e, failed, unrefused⟩
        exact ⟨_, ⟨e, failed, rfl⟩, unrefused⟩

theorem formula_refusal {label : Text} {fields : Spec} {e : SpecError}
    (failed : Spec.formula label fields = .error e) : e.IsRefusal := by
  unfold Spec.formula at failed
  grind [SpecError.IsRefusal]

theorem error_refusal {fields : Spec} {e : SpecError} (failed : Spec.error? fields = .error e) :
    e.IsRefusal := by
  unfold Spec.error? at failed
  grind [SpecError.IsRefusal]

theorem value_trips_iff {label : Text} {fields : Spec} :
    (∃ e, Spec.value? label fields = .error e ∧ ¬ e.IsRefusal) ↔
      ∃ k, fields.field? "value" = some (.int k) ∧ floatOfInt k = .error .tooLarge := by
  unfold Spec.value?
  cases fields.field? "value" with
  | none => simp
  | some v =>
      have beyond := Value.toFloat_tooLarge_iff (v := v)
      simp only [Option.some.injEq, ← beyond]
      cases v.toFloat with
      | ok x => simp
      | error e => cases e <;> simp [SpecError.IsRefusal]

theorem inside_of_cell {s : Sheet} {label : Text} {found : Cell × Sheet}
    (made : s.cell label = .ok found) : ∃ p, s.position label = .ok p := by
  cases inside : s.position label with
  | ok p => exact ⟨p, rfl⟩
  | error e =>
      rw [cell_refused inside] at made
      cases made

/-- An entry is put into a sheet or refused, or it overflows. -/
theorem addSpec_trips_iff {s : Sheet} {entry : Key × Value} :
    (∃ e, s.addSpec entry.1 entry.2 = .error e ∧ ¬ e.IsRefusal) ↔
      Spec.Overflows s.rows s.cols entry := by
  obtain ⟨key, content⟩ := entry
  unfold addSpec
  simp only
  constructor
  · rintro ⟨e, failed, unrefused⟩
    split at failed
    · cases content with
      | mapping fields =>
          rcases bind_error_iff.mp failed with outside | ⟨⟨c, u⟩, found, failed⟩
          · obtain ⟨_, _, rfl⟩ := mapError_error_iff.mp outside
            exact absurd nofun unrefused
          rcases bind_error_iff.mp failed with unlisted | ⟨formula, listed, failed⟩
          · exact absurd (formula_refusal unlisted) unrefused
          rcases bind_error_iff.mp failed with valued | ⟨value?, _, failed⟩
          · obtain ⟨k, given, beyond⟩ := value_trips_iff.mp ⟨e, valued, unrefused⟩
            obtain ⟨p, inside⟩ := inside_of_cell (mapError_ok_iff.mp found)
            exact ⟨⟨p, position_ok_iff.mp inside⟩, fields, formula, k, rfl,
              Spec.formula_ok_iff.mp listed, given, beyond⟩
          rcases bind_error_iff.mp failed with faulty | ⟨error?, _, failed⟩
          · exact absurd (error_refusal faulty) unrefused
          · cases failed
      | _ =>
          cases failed
          exact absurd nofun unrefused
    · cases failed
      exact absurd nofun unrefused
  · rintro ⟨⟨p, named, bounds⟩, fields, formula, k, rfl, listed, given, beyond⟩
    obtain ⟨e, valued, unrefused⟩ := value_trips_iff.mpr ⟨k, given, beyond⟩
    refine ⟨e, ?_, unrefused⟩
    have inside : s.position key.asText = .ok p := position_ok_iff.mpr ⟨named, bounds⟩
    rw [if_pos (Key.writable_of_parse named)]
    exact bind_error_iff.mpr (.inr ⟨_, mapError_ok_iff.mpr (cell_eq s inside), bind_error_iff.mpr
      (.inr ⟨formula, Spec.formula_ok_iff.mpr listed, bind_error_iff.mpr (.inl valued)⟩)⟩)

/-- Entries are all put into a sheet, or one is refused, or the first that does not describe a cell
overflows. -/
theorem addSpecs_trips_iff {s : Sheet} {entries : Spec} :
    (∃ e, s.addSpecs entries = .error e ∧ ¬ e.IsRefusal) ↔
      ∃ before entry after, entries = before ++ entry :: after ∧
        (∀ earlier ∈ before, ∃ c, Describes s.rows s.cols earlier c) ∧
        Spec.Overflows s.rows s.cols entry := by
  induction entries generalizing s with
  | nil => simp [addSpecs, pure, Except.pure]
  | cons first entries ih =>
      constructor
      · rintro ⟨e, failed, unrefused⟩
        rcases bind_error_iff.mp failed with now | ⟨u, added, later⟩
        · exact ⟨[], first, entries, rfl, List.forall_mem_nil _,
            addSpec_trips_iff.mp ⟨e, now, unrefused⟩⟩
        · obtain ⟨before, entry, after, rfl, described, overflows⟩ := ih.mp ⟨e, later, unrefused⟩
          obtain ⟨rows, cols⟩ := (changed_addSpec added).size
          rw [rows, cols] at described overflows
          exact ⟨first :: before, entry, after, rfl,
            List.forall_mem_cons.mpr ⟨describes_of_addSpec added, described⟩, overflows⟩
      · rintro ⟨before, entry, after, same, described, overflows⟩
        cases before with
        | nil =>
            cases same
            obtain ⟨e, failed, unrefused⟩ := addSpec_trips_iff.mpr overflows
            exact ⟨e, bind_error_iff.mpr (.inl failed), unrefused⟩
        | cons _ before =>
            cases same
            obtain ⟨⟨c, describes⟩, described⟩ := List.forall_mem_cons.mp described
            obtain ⟨u, added, rows, cols, _⟩ := addSpec_of_describes describes
            rw [← rows, ← cols] at described overflows
            obtain ⟨e, failed, unrefused⟩ :=
              ih.mpr ⟨before, entry, after, rfl, described, overflows⟩
            exact ⟨e, bind_error_iff.mpr (.inr ⟨u, added, failed⟩), unrefused⟩

/-! ## The whole description -/

theorem cellSpecs_refusal {spec : Spec} {e : SpecError} (failed : spec.cellSpecs = .error e) :
    e.IsRefusal := by
  unfold Spec.cellSpecs at failed
  grind [SpecError.IsRefusal]

/-- A sheet is built or refused, or the description trips. -/
theorem ofSpec_trips_iff {spec : Spec} {rows cols : Int} :
    (∃ e, ofSpec spec rows cols = .error e ∧ ¬ e.IsRefusal) ↔ spec.Trips rows cols := by
  constructor
  · rintro ⟨e, failed, unrefused⟩
    rcases bind_error_iff.mp failed with uncounted | ⟨m, tall, failed⟩
    · obtain ⟨v, given, uncountable⟩ := count_trips_iff.mp ⟨e, uncounted, unrefused⟩
      exact .rows given uncountable
    rcases bind_error_iff.mp failed with uncounted | ⟨n, wide, failed⟩
    · obtain ⟨v, given, uncountable⟩ := count_trips_iff.mp ⟨e, uncounted, unrefused⟩
      exact .cols (Spec.count_ok_iff.mp tall) given uncountable
    rcases bind_error_iff.mp failed with unsized | ⟨start, sized, failed⟩
    · obtain ⟨_, _, rfl⟩ := mapError_error_iff.mp unsized
      exact absurd nofun unrefused
    rcases bind_error_iff.mp failed with uncontained | ⟨entries, contained, unadded⟩
    · exact absurd (cellSpecs_refusal uncontained) unrefused
    obtain ⟨rfl, rfl, _⟩ := ofSize_ok_iff.mp (mapError_ok_iff.mp sized)
    obtain ⟨before, entry, after, rfl, described, overflows⟩ :=
      addSpecs_trips_iff.mp ⟨e, unadded, unrefused⟩
    exact .value ⟨Spec.count_ok_iff.mp tall, start.rows_pos⟩
      ⟨Spec.count_ok_iff.mp wide, start.cols_pos⟩ (Spec.cellSpecs_ok_iff.mp contained) described
      overflows
  · intro trips
    cases trips with
    | rows given uncountable =>
        obtain ⟨e, failed, unrefused⟩ := count_trips_iff.mpr ⟨_, given, uncountable⟩
        exact ⟨e, bind_error_iff.mpr (.inl failed), unrefused⟩
    | cols tall given uncountable =>
        obtain ⟨e, failed, unrefused⟩ := count_trips_iff.mpr ⟨_, given, uncountable⟩
        exact ⟨e, bind_error_iff.mpr (.inr ⟨_, Spec.count_ok_iff.mpr tall,
          bind_error_iff.mpr (.inl failed)⟩), unrefused⟩
    | @value m n before after entry tall wide contains described overflows =>
        let start : Sheet :=
          { rows := m, cols := n, rows_pos := tall.positive, cols_pos := wide.positive }
        have sized : ofSize m n = .ok start := ofSize_ok_iff.mpr ⟨rfl, rfl, rfl⟩
        obtain ⟨e, failed, unrefused⟩ := (addSpecs_trips_iff (s := start)).mpr
          ⟨before, entry, after, rfl, described, overflows⟩
        refine ⟨e, bind_error_iff.mpr (.inr ⟨m, Spec.count_ok_iff.mpr tall.converts, ?_⟩),
          unrefused⟩
        refine bind_error_iff.mpr (.inr ⟨n, Spec.count_ok_iff.mpr wide.converts, ?_⟩)
        refine bind_error_iff.mpr (.inr ⟨start, mapError_ok_iff.mpr sized, ?_⟩)
        exact bind_error_iff.mpr (.inr ⟨_, Spec.cellSpecs_ok_iff.mpr contains, failed⟩)

/-! ## Files -/

/-- What is loaded from a file that holds a text. -/
theorem load_eq {fs : Files} {path : Path} {text : List Char}
    (holds : fs.Holds path (Text.Utf8.encode text)) (rows cols : Int) :
    load fs path rows cols = match Yaml.read (Text.unifyBreaks text) with
      | .ok (.mapping spec) => (ofSpec spec rows cols).mapError .badSpec
      | .ok v =>
        if v.truthy then .error (.notMapping path) else (ofSpec [] rows cols).mapError .badSpec
      | .error .malformed => .error (.badDocument path)
      | .error e => .error (.badScalar e) := by
  unfold load
  rw [holds.has, holds.readText]
  simp only [bind, Except.bind, Except.mapError]
  cases Yaml.read (Text.unifyBreaks text) with
  | ok v => cases v <;> rfl
  | error e => cases e <;> rfl

theorem load_ne_notFound {fs : Files} {path : Path} {text : List Char}
    (holds : fs.Holds path (Text.Utf8.encode text)) {rows cols : Int} {e : LoadError}
    (failed : load fs path rows cols = .error e) (other : Path) : e ≠ .notFound other := by
  rintro rfl
  have built {spec : Spec} (failed : (ofSpec spec rows cols).mapError LoadError.badSpec =
      .error (.notFound other)) : False := by
    obtain ⟨_, _, unlike⟩ := mapError_error_iff.mp failed
    cases unlike
  rw [load_eq holds] at failed
  split at failed
  · exact built failed
  · split at failed
    · cases failed
    · exact built failed
  · cases failed
  · cases failed

theorem not_trips_nil (rows cols : Int) : ¬ Spec.Trips [] rows cols := by
  intro trips
  cases trips with
  | rows given _ => cases given
  | cols _ given _ => cases given
  | value _ _ contains _ _ =>
    exact List.append_ne_nil_of_right_ne_nil _ (List.cons_ne_nil _ _) contains

/-- **A sheet is loaded or its file is refused, or the text trips.** -/
theorem load_trips_iff {fs : Files} {path : Path} {text : List Char}
    (holds : fs.Holds path (Text.Utf8.encode text)) (rows cols : Int) :
    (∃ e, load fs path rows cols = .error e ∧ ¬ e.IsRefusal) ↔ Trips text rows cols := by
  have building (spec : Spec) :
      (∃ e, (ofSpec spec rows cols).mapError LoadError.badSpec = .error e ∧ ¬ e.IsRefusal) ↔
        spec.Trips rows cols := by
    rw [← ofSpec_trips_iff]
    simp only [mapError_error_iff]
    constructor
    · rintro ⟨_, ⟨e, failed, rfl⟩, unrefused⟩
      exact ⟨e, failed, unrefused⟩
    · rintro ⟨e, failed, unrefused⟩
      exact ⟨_, ⟨e, failed, rfl⟩, unrefused⟩
  rw [load_eq holds]
  constructor
  · rintro ⟨e, failed, unrefused⟩
    cases document : Yaml.read (Text.unifyBreaks text) with
    | ok v =>
        rw [document] at failed
        cases v with
        | mapping spec => exact .spec document ((building spec).mp ⟨e, failed, unrefused⟩)
        | _ =>
            simp only at failed
            split at failed
            · cases failed
              exact absurd trivial unrefused
            · exact absurd ((building []).mp ⟨e, failed, unrefused⟩) (not_trips_nil rows cols)
    | error y =>
        rw [document] at failed
        cases y with
        | tooDeep => exact .deep document
        | codeTooLarge => exact .escape document
        | malformed =>
            cases failed
            exact absurd trivial unrefused
        | _ =>
            cases failed
            exact absurd ⟨nofun, nofun⟩ unrefused
  · intro trips
    cases trips with
    | deep document =>
        rw [document]
        exact ⟨_, rfl, fun refusal => refusal.1 rfl⟩
    | escape document =>
        rw [document]
        exact ⟨_, rfl, fun refusal => refusal.2 rfl⟩
    | spec document trips =>
        rw [document]
        exact (building _).mpr trips

end Sheet

end SheetCalc
