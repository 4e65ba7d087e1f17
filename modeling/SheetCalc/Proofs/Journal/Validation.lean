import SheetCalc.Journal.Fields
import SheetCalc.Proofs.Journal.Trimming

/-!
# Events that are made from fields

Making an event trims its context and notes which keys it lacks, and does nothing else to the fields
(`Event.Settles`). An event that has been made has nothing left to be done: the keys that it lacks
are still lacking when they have been noted, and the note is small enough to stay as it is. So an
event that is made again from its own fields is the same event (`ofEntries_settles`).
-/

namespace SheetCalc

/-! ## Putting a text key -/

namespace Key

theorem beq_text (s t : Text) : (Key.text s == Key.text t) = (s == t) := rfl

/-- A key that is found under one text is not found under another one. -/
theorem beq_text_of_ne {k : Key} {s t : Text} (found : (k == Key.text s) = true) (other : s ≠ t) :
    (k == Key.text t) = false := by
  have canonical (u : Text) : (k == Key.text u) = k.canonical.identical (.text u) := rfl
  rw [canonical] at found ⊢
  generalize k.canonical = c at found ⊢
  cases c with
  | text u =>
      have same : u = s := beq_iff_eq.mp found
      rw [same]
      exact beq_false_of_ne other
  | _ => cases found

end Key

namespace Entries

variable {α : Type}

theorem put_put_text (t : Text) (a b : α) (es : Entries Key α) :
    (es.put (.text t) a).put (.text t) b = es.put (.text t) b := by
  have itself : (Key.text t == Key.text t) = true := by
    rw [Key.beq_text]
    exact beq_self_eq_true t
  induction es with
  | nil => simp [put, itself]
  | cons e es ih =>
      obtain ⟨k, a'⟩ := e
      by_cases same : (k == Key.text t) = true
      · simp [put, same]
      · simp [put, same, ih]

theorem get?_put_other {s t : Text} (other : s ≠ t) (a : α) (es : Entries Key α) :
    (es.put (.text s) a).get? (.text t) = es.get? (.text t) := by
  have apart : (Key.text s == Key.text t) = false := by
    rw [Key.beq_text]
    exact beq_false_of_ne other
  induction es with
  | nil => simp [put, get?, apart]
  | cons e es ih =>
      obtain ⟨k, b⟩ := e
      by_cases same : (k == Key.text s) = true
      · have elsewhere := Key.beq_text_of_ne same other
        simp [put, get?, same, elsewhere]
      · simp [put, get?, same, ih]

end Entries

namespace Journal

/-! ## Contexts -/

theorem get?_trimEntries (k : Key) (es : Entries Key Value) :
    Entries.get? k (trimEntries es) = (es.get? k).map trim := by
  induction es with
  | nil => rfl
  | cons e es ih =>
      obtain ⟨k', v⟩ := e
      rw [trimEntries, Entries.get?, Entries.get?]
      split
      · rfl
      · exact ih

theorem trimEntries_put (k : Key) (v : Value) (es : Entries Key Value) :
    trimEntries (es.put k v) = Entries.put k (trim v) (trimEntries es) := by
  induction es with
  | nil => simp only [Entries.put, trimEntries]
  | cons e es ih =>
      obtain ⟨k', v'⟩ := e
      rw [trimEntries, Entries.put, Entries.put]
      split
      · rw [trimEntries]
      · rw [trimEntries, ih]

theorem depthOfEntries_put (k : Key) (v : Value) (es : Entries Key Value) :
    depthOfEntries (es.put k v) ≤ max (depth v) (depthOfEntries es) := by
  induction es with
  | nil => simp [Entries.put, depthOfEntries]
  | cons e es ih =>
      obtain ⟨k', v'⟩ := e
      rw [Entries.put, depthOfEntries]
      split
      · rw [depthOfEntries]
        omega
      · rw [depthOfEntries]
        omega

/-- All keys of a context are texts. -/
def Named (context : Context) : Prop :=
  ∀ e ∈ context, Event.isName e.1 = true

theorem named_trimEntries {context : Context} (named : Named context) :
    Named (trimEntries context) := by
  induction context with
  | nil =>
      rw [trimEntries]
      exact named
  | cons e es ih =>
      obtain ⟨k, v⟩ := e
      rw [trimEntries]
      obtain ⟨first, others⟩ := List.forall_mem_cons.mp named
      exact List.forall_mem_cons.mpr ⟨first, ih others⟩

theorem named_put (t : Text) (v : Value) {context : Context} (named : Named context) :
    Named (Entries.put (.text t) v context) := by
  induction context with
  | nil =>
      intro e there
      rw [List.mem_singleton.mp there]
      rfl
  | cons e es ih =>
      obtain ⟨first, others⟩ := List.forall_mem_cons.mp named
      rw [Entries.put]
      split
      · exact List.forall_mem_cons.mpr ⟨first, others⟩
      · exact List.forall_mem_cons.mpr ⟨first, ih others⟩

namespace Event

/-! ## Keys that are lacking -/

/-- A context with a note of the keys that it lacks, if it lacks any. -/
def note (lacking : List String) (context : Context) : Context :=
  if lacking = [] then context
  else Entries.put missingKey (.list (lacking.map fun name : String => Value.text name)) context

theorem complete_eq (e : Event) :
    complete e = { e with
      level := if missing e.type (trimEntries e.context) = [] then e.level else .warning
      context := note (missing e.type (trimEntries e.context)) (trimEntries e.context) } := by
  unfold complete note
  simp only
  split
  · next none_lacking => rw [none_lacking, if_pos rfl, if_pos rfl]
  · next lacking => rw [if_neg lacking, if_neg lacking]

theorem missing_trimEntries (type : EventType) (context : Context) :
    missing type (trimEntries context) = missing type context := by
  unfold missing Entries.has
  simp only [get?_trimEntries, Option.isSome_map]

/-- No event needs the key of the note itself. -/
theorem missing_note (type : EventType) (lacking : List String) (context : Context) :
    missing type (note lacking context) = missing type context := by
  unfold note
  split
  · rfl
  · refine List.filter_congr fun name needed => ?_
    have other : ("_missing_attribution" : Text) ≠ name := by
      revert needed name
      cases type <;> decide
    unfold Entries.has missingKey
    rw [Entries.get?_put_other other]

/-- The note is small: it has at most as many keys as an event needs, and these are short. -/
theorem admits_note (type : EventType) (context : Context) :
    Caps.kept.admits (.list ((missing type context).map fun name : String => Value.text name)) =
      true := by
  have admitsItems_iff (vs : List Value) :
      Caps.kept.admitsItems vs = true ↔ ∀ v ∈ vs, Caps.kept.admits v = true := by
    induction vs with
    | nil => simp [Caps.admitsItems]
    | cons v vs ih => rw [Caps.admitsItems, Bool.and_eq_true, List.forall_mem_cons, ih]
  have few : (missing type context).length ≤ 64 :=
    Nat.le_trans (List.length_filter_le _ _) (by cases type <;> decide)
  have short : ∀ name ∈ type.required, (Text.ofString name).length ≤ 256 := by
    cases type <;> decide
  rw [Caps.admits, List.length_map, Bool.and_eq_true, decide_eq_true_iff, admitsItems_iff]
  refine ⟨few, ?_⟩
  intro v there
  obtain ⟨name, lacking, rfl⟩ := List.mem_map.mp there
  rw [Caps.admits, decide_eq_true_iff]
  exact short name (List.mem_filter.mp lacking).1

theorem depth_note (lacking : List String) :
    depth (.list (lacking.map fun name : String => Value.text name)) ≤ 3 := by
  have none_deep (kept : Nat) (names : List String) :
      depthOfItems kept (names.map fun name : String => Value.text name) ≤ 1 := by
    induction names generalizing kept with
    | nil => simp only [List.map_nil, depthOfItems, Nat.zero_le]
    | cons name names ih =>
        cases kept with
        | zero => simp only [List.map_cons, depthOfItems, Nat.zero_le]
        | succ kept =>
            simp only [List.map_cons, depthOfItems, depth]
            exact Nat.max_le.mpr ⟨Nat.le_refl 1, ih kept⟩
  rw [depth]
  exact Nat.add_le_add_left (none_deep _ _) 2

/-- A context with its note is trimmed already. -/
theorem trimEntries_note (type : EventType) (context : Context) :
    trimEntries (note (missing type context) (trimEntries context)) =
      note (missing type context) (trimEntries context) := by
  unfold note
  split
  · exact trimEntries_trimEntries context
  · rw [trimEntries_put, trim_of_admits _ (admits_note type context), trimEntries_trimEntries]

theorem note_note (lacking : List String) (context : Context) :
    note lacking (note lacking context) = note lacking context := by
  unfold note
  split
  · rfl
  · exact Entries.put_put_text _ _ _ context

/-- **Completing an event twice is completing it once.** -/
theorem complete_complete (e : Event) : complete (complete e) = complete e := by
  have lacking : missing e.type (trimEntries e.context) = missing e.type e.context :=
    missing_trimEntries e.type e.context
  have again : missing e.type (trimEntries (complete e).context) = missing e.type e.context := by
    rw [missing_trimEntries, complete_eq, missing_note, lacking]
  have type : (complete e).type = e.type := by rw [complete_eq]
  rw [complete_eq (complete e), type, again, complete_eq e, lacking, trimEntries_note, note_note]
  split <;> rfl

theorem depth_complete {e : Event} (shallow : depth (.mapping e.context) ≤ depthLimit) :
    depth (.mapping (complete e).context) ≤ depthLimit := by
  have same := depthOfEntries_trimEntries e.context
  rw [depth] at shallow ⊢
  rw [complete_eq]
  show 3 + depthOfEntries (note _ _) ≤ depthLimit
  unfold note
  split
  · omega
  · have deeper := depthOfEntries_put missingKey
      (.list ((missing e.type (trimEntries e.context)).map fun name : String => Value.text name))
      (trimEntries e.context)
    have note := depth_note (missing e.type (trimEntries e.context))
    have limit : depthLimit = 991 := rfl
    omega

theorem named_complete {e : Event} (named : Named e.context) : Named (complete e).context := by
  rw [complete_eq]
  show Named (note _ _)
  unfold note
  split
  · exact named_trimEntries named
  · exact named_put _ _ (named_trimEntries named)

/-! ## Fields -/

theorem level_ofName (l : Level) : Level.ofName? (l.name : Text) = some l := by
  cases l <;> decide

theorem type_ofName (type : EventType) : EventType.ofName? (type.name : Text) = some type := by
  cases type <;> decide

/-- Reading undoes writing the fields of an event, whatever the time is. -/
theorem read_toEntries (now : Text) {e : Event} (named : Named e.context) :
    read? now e.toEntries = some e := by
  have context : entries? (.mapping e.context) = some e.context :=
    if_pos (List.all_eq_true.mpr named)
  have code : code? ((e.code.map Value.text).getD .null) = some e.code := by
    cases e.code <;> rfl
  have fields :
      field? version? "schema_version" (some 1) e.toEntries = some e.version ∧
      field? text? "ts" (some now) e.toEntries = some e.time ∧
      field? (fun v => (text? v).bind Level.ofName?) "level" none e.toEntries =
        Level.ofName? (e.level.name : Text) ∧
      field? (fun v => (text? v).bind EventType.ofName?) "event_type" none e.toEntries =
        EventType.ofName? (e.type.name : Text) ∧
      field? entries? "context" (some []) e.toEntries = entries? (.mapping e.context) ∧
      field? text? "message" (some {}) e.toEntries = some e.message ∧
      field? code? "error_code" (some none) e.toEntries =
        code? ((e.code.map Value.text).getD .null) := by
    refine ⟨by rfl, by rfl, by rfl, by rfl, by rfl, by rfl, by rfl⟩
  obtain ⟨version, time, level, type, given, message, given_code⟩ := fields
  unfold read?
  rw [version, time, level, level_ofName, type, type_ofName, given, context, message, given_code,
    code]
  rfl

/-- What an event is that is made from fields at a given time: its context is the given one, trimmed
and with a note of the keys that it lacks, and it is a warning if it lacks any. All other fields are
as they are given, or what holds if they are not. -/
structure Settles (now : Text) (fields : Entries Key Value) (e : Event) : Prop where
  version : field? version? "schema_version" (some 1) fields = some e.version
  time : field? text? "ts" (some now) fields = some e.time
  type : field? (fun v => (text? v).bind EventType.ofName?) "event_type" none fields = some e.type
  message : field? text? "message" (some {}) fields = some e.message
  code : field? code? "error_code" (some none) fields = some e.code
  context : ∃ given trimmed, field? entries? "context" (some []) fields = some given ∧
    trimContext? given = some trimmed ∧ e.context = note (missing e.type given) trimmed ∧
    ∃ level, field? (fun v => (text? v).bind Level.ofName?) "level" none fields = some level ∧
      e.level = if missing e.type given = [] then level else .warning

theorem read_ok {now : Text} {fields : Entries Key Value} {e : Event}
    (read : read? now fields = some e) :
    field? version? "schema_version" (some 1) fields = some e.version ∧
      field? text? "ts" (some now) fields = some e.time ∧
      field? (fun v => (text? v).bind Level.ofName?) "level" none fields = some e.level ∧
      field? (fun v => (text? v).bind EventType.ofName?) "event_type" none fields = some e.type ∧
      field? entries? "context" (some []) fields = some e.context ∧
      field? text? "message" (some {}) fields = some e.message ∧
      field? code? "error_code" (some none) fields = some e.code := by
  unfold read? at read
  simp only [Option.bind_eq_bind, Option.bind_eq_some_iff, Option.pure_def, Option.some.injEq]
    at read
  obtain ⟨version, has_version, time, has_time, level, has_level, type, has_type, context,
    has_context, message, has_message, code, has_code, rfl⟩ := read
  exact ⟨has_version, has_time, has_level, has_type, has_context, has_message, has_code⟩

/-- An event that is accepted is a complete one. -/
theorem ofEntries_ok_iff {now : Text} {fields : Entries Key Value} {e : Event} :
    ofEntries now fields = .ok e ↔
      ∃ given, read? now fields = some given ∧ depth (.mapping given.context) ≤ depthLimit ∧
        complete given = e := by
  unfold ofEntries
  cases read? now fields with
  | none => simp
  | some given =>
      by_cases shallow : depth (.mapping given.context) ≤ depthLimit
      · simp [isSome_trimContext.mpr shallow, shallow]
      · simp [mt isSome_trimContext.mp shallow, shallow]

theorem named_of_entries {fields : Entries Key Value} {context : Context}
    (given : field? entries? "context" (some []) fields = some context) : Named context := by
  unfold field? at given
  split at given
  · rw [← Option.some.inj given]
    exact nofun
  · unfold entries? at given
    split at given
    · split at given
      · next all =>
          rw [← Option.some.inj given]
          exact List.all_eq_true.mp all
      · cases given
    · cases given

/-- **An event that is made from fields is settled.** Its context is the given one, trimmed and with
a note of the keys that it lacks, and the other fields are as they are given, but for the level of
an event that lacks keys. Made again from its own fields, at whatever time, it is the same event. -/
theorem ofEntries_settles (now : Text) (fields : Entries Key Value) (e : Event)
    (accepted : ofEntries now fields = .ok e) :
    Settles now fields e ∧ ∀ later, ofEntries later e.toEntries = .ok e := by
  obtain ⟨given, read, shallow, rfl⟩ := ofEntries_ok_iff.mp accepted
  obtain ⟨version, time, level, type, context, message, code⟩ := read_ok read
  have named := named_complete (named_of_entries context)
  constructor
  · rw [complete_eq]
    refine ⟨version, time, type, message, code, given.context, trimEntries given.context, context,
      trimContext_ok_iff.mpr ⟨shallow, rfl⟩, ?_, given.level, level, ?_⟩
    · simp only [missing_trimEntries]
    · simp only [missing_trimEntries]
  · intro later
    exact ofEntries_ok_iff.mpr
      ⟨complete given, read_toEntries later named, depth_complete shallow, complete_complete given⟩

/-- Fields of a cell's event without its label, with a note from elsewhere in the context. -/
def unlabelled : Entries Key Value :=
  [(.text "level", .text "info"), (.text "event_type", .text "cell_evaluated"),
   (.text "context", .mapping [(.text "_missing_attribution", .null), (.text "tokens", .list [])])]

/-- The event is kept as a warning, with a note of its own in the place of the other one. -/
theorem ofEntries_settles_unlabelled :
    let e : Event :=
      { time := "now", level := .warning, type := .cellEvaluated
        context := [(.text "_missing_attribution", .list [.text "label"]),
          (.text "tokens", .list [])] }
    ofEntries "now" unlabelled = .ok e ∧ Settles "now" unlabelled e ∧
      ofEntries "later" e.toEntries = .ok e := by
  intro e
  have accepted : ofEntries "now" unlabelled = .ok e := by rfl
  obtain ⟨settles, again⟩ := ofEntries_settles "now" unlabelled e accepted
  exact ⟨accepted, settles, again "later"⟩

end Event

end Journal

end SheetCalc
