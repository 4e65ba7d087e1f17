import SheetCalc.Proofs.Journal.Tally
import SheetCalc.Proofs.Journal.Written
import SheetCalc.Proofs.Json.Strict

/-!
# Numbers in events

The result of an evaluation is given as a finite number or by a name (`givenAs_logged`), and nothing
that is done with the context of an event makes other numbers of these. So the line of an event
about an evaluation is strict JSON, whatever the evaluation came to (`strict_line_ofOutcome`).
-/

namespace SheetCalc.Journal

/-! ## Contexts -/

mutual

/-- Trimming leaves floats as they are, or takes them away. -/
theorem isFinite_trim : ∀ v : Value, v.isFinite = true → (trim v).isFinite = true
  | .null, finite | .bool _, finite | .int _, finite | .float _, finite => by
      rw [trim] <;> first | exact finite | nofun
  | .text s, _ => by rw [trim, Value.isFinite] <;> nofun
  | .list items, finite => by
      rw [Value.isFinite] at finite
      rw [trim, Value.isFinite]
      exact areFinite_trimItems keptItems items finite
  | .mapping entries, finite => by
      rw [Value.isFinite] at finite
      rw [trim, Value.isFinite]
      exact areEntriesFinite_trimEntries entries finite

theorem areFinite_trimItems : ∀ (kept : Nat) (vs : List Value), Value.areFinite vs = true →
    Value.areFinite (trimItems kept vs) = true
  | _, [], _ => by rw [trimItems, Value.areFinite]
  | 0, v :: vs, _ => by
      rw [trimItems]
      rfl
  | kept + 1, v :: vs, finite => by
      rw [Value.areFinite, Bool.and_eq_true] at finite
      rw [trimItems, Value.areFinite, isFinite_trim v finite.1,
        areFinite_trimItems kept vs finite.2]
      rfl

theorem areEntriesFinite_trimEntries : ∀ es : List (Key × Value), Value.areEntriesFinite es = true →
    Value.areEntriesFinite (trimEntries es) = true
  | [], _ => by rw [trimEntries, Value.areEntriesFinite]
  | (k, v) :: es, finite => by
      rw [Value.areEntriesFinite, Bool.and_eq_true] at finite
      rw [trimEntries, Value.areEntriesFinite, isFinite_trim v finite.1,
        areEntriesFinite_trimEntries es finite.2]
      rfl

end

namespace Event

theorem isFinite_texts {α : Type} (text : α → Text) (items : List α) :
    (Value.list (items.map fun item => .text (text item))).isFinite = true := by
  rw [Value.isFinite, Value.areFinite_iff]
  intro v there
  obtain ⟨item, _, rfl⟩ := List.mem_map.mp there
  rfl

/-- A context with finite numbers has finite numbers when the event is completed. -/
theorem areEntriesFinite_complete {e : Event} (finite : Value.areEntriesFinite e.context = true) :
    Value.areEntriesFinite (complete e).context = true := by
  have trimmed := areEntriesFinite_trimEntries e.context finite
  unfold complete
  simp only
  split
  · exact trimmed
  · next names _ =>
      rw [Value.areEntriesFinite_iff] at trimmed ⊢
      intro entry there
      rcases Entries.mem_put there with before | ⟨value, _⟩
      · exact trimmed entry before
      · rw [value]
        exact isFinite_texts Text.ofString _

/-! ## Evaluations -/

/-- How the result of an evaluation is given. -/
inductive GivenAs : Formula.Result → Value → Prop
  | blank : GivenAs .blank (.int 0)
  | finite {x : Float} : x.isFinite = true → GivenAs (.number x) (.float x)
  | above {x : Float} : x.isFinite = false → 0 < x → GivenAs (.number x) (.text "inf")
  | below {x : Float} : x.isFinite = false → x < 0 → GivenAs (.number x) (.text "-inf")
  | none {x : Float} : x.isNaN = true → GivenAs (.number x) (.text "nan")

theorem givenAs_logged (result : Formula.Result) : GivenAs result (logged result) := by
  cases result with
  | blank => exact .blank
  | number x =>
      unfold logged
      simp only
      cases finite : x.isFinite with
      | true => exact .finite finite
      | false =>
          rcases Decimal.floatText_infinite finite with ⟨nan, name⟩ | ⟨above, name⟩ | ⟨below, name⟩
          · exact name ▸ .none nan
          · exact name ▸ .above finite above
          · exact name ▸ .below finite below

theorem GivenAs.isFinite {result : Formula.Result} {v : Value} (given : GivenAs result v) :
    v.isFinite = true := by
  cases given with
  | finite finite => exact finite
  | _ => rfl

theorem isFinite_json {e : Event} (finite : Value.areEntriesFinite e.context = true) :
    e.json.isFinite = true := by
  refine Json.isFinite_sortKeys _ ?_
  have code : ((e.code.map Value.text).getD .null).isFinite = true := by
    cases e.code <;> rfl
  unfold toValue toEntries
  rw [Value.isFinite, Value.areEntriesFinite_iff]
  simp only [List.forall_mem_cons, List.not_mem_nil, false_implies, implies_true, and_true]
  exact ⟨rfl, rfl, rfl, rfl, finite, rfl, code⟩

/-- **The line of an event about an evaluation is strict JSON.** -/
theorem strict_line_ofOutcome (time : Text) (tokens : List Text) (result : Formula.Result)
    (error : Text) (label : Option Text) :
    Json.IsStrict (Json.lineText (ofOutcome time tokens result error label).json) := by
  refine Json.strict_write .line (isFinite_json (areEntriesFinite_complete ?_))
  simp only
  rw [Value.areEntriesFinite_iff]
  intro entry there
  rcases List.mem_append.mp there with front | about
  · rcases List.mem_cons.mp front with rfl | last
    · exact isFinite_texts id tokens
    · rw [List.mem_singleton.mp last]
      exact (givenAs_logged result).isFinite
  · cases label with
    | none => cases about
    | some label =>
        rw [List.mem_singleton.mp about]
        rfl

end Event

end SheetCalc.Journal
