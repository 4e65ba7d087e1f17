import SheetCalc.Proofs.Journal.Damage
import SheetCalc.Proofs.Journal.Tally
import SheetCalc.Proofs.Json.RoundTrip

/-!
# What the log says about evaluations

The events of evaluations and of sheets can be read again (`storable_ofOutcome`,
`storable_sheetLoaded`), since trimming and sorting only take away and move what is in a context. Of
what is read only two fields are looked at when outcomes are counted: an event counts as
`Event.counted?` says (`count_reread`), which is its error as it comes back from JSON. So the tally
of a log is that of the names that its events count as (`tally_of_counts`).
-/

namespace SheetCalc.Journal

open Json (Fits)
open Text.Utf8 (encode)

/-! ## Trimming -/

theorem trimEntries_eq (es : List (Key × Value)) :
    trimEntries es = es.map fun e => (e.1, trim e.2) := by
  induction es with
  | nil => rfl
  | cons e es ih => rw [trimEntries, List.map_cons, ih]

mutual

/-- What fits goes on fitting when it is trimmed. -/
theorem fits_trim : ∀ (v : Value) {depth : Nat}, Fits depth v → Fits depth (trim v)
  | .null, _, fits | .bool _, _, fits | .int _, _, fits | .float _, _, fits => by
      rw [trim] <;> first | exact fits | nofun
  | .text s, depth, _ => by
      rw [trim]
      exact Json.fits_text depth _
  | .list items, depth, fits => by
      rw [trim]
      cases depth with
      | zero => exact absurd fits (Json.not_fits_list items)
      | succ depth =>
          exact Json.fits_list.mpr (fits_trimItems keptItems items (Json.fits_list.mp fits))
  | .mapping entries, depth, fits => by
      rw [trim]
      cases depth with
      | zero => exact absurd fits (Json.not_fits_mapping entries)
      | succ depth =>
          obtain ⟨comparable, within⟩ := Json.fits_mapping.mp fits
          refine Json.fits_mapping.mpr ⟨?_, fits_trimEntries entries within⟩
          rw [trimEntries_eq, List.map_map]
          exact comparable

theorem fits_trimItems : ∀ (kept : Nat) (vs : List Value) {depth : Nat}, (∀ v ∈ vs, Fits depth v) →
    ∀ v ∈ trimItems kept vs, Fits depth v
  | _, [], _, _ => by
      rw [trimItems]
      exact nofun
  | 0, v :: vs, depth, _ => by
      rw [trimItems]
      intro w there
      rw [List.mem_singleton.mp there]
      exact Json.fits_text depth truncated
  | kept + 1, v :: vs, _, fits => by
      rw [trimItems, List.forall_mem_cons]
      obtain ⟨first, others⟩ := List.forall_mem_cons.mp fits
      exact ⟨fits_trim v first, fits_trimItems kept vs others⟩

theorem fits_trimEntries : ∀ (es : List (Key × Value)) {depth : Nat}, Json.EntriesFit depth es →
    Json.EntriesFit depth (trimEntries es)
  | [], _, _ => by
      rw [trimEntries]
      exact nofun
  | (k, v) :: es, _, fits => by
      rw [trimEntries]
      obtain ⟨⟨key, first⟩, others⟩ := List.forall_mem_cons.mp fits
      exact List.forall_mem_cons.mpr ⟨⟨key, fits_trim v first⟩, fits_trimEntries es others⟩

end

/-! ## Events that are written and read again -/

namespace Event

/-- An event with a line, which can be read again. -/
structure Storable (e : Event) : Prop where
  version : Decimal.isWritable e.version = true
  context : ∀ entry ∈ e.context, (∃ t, entry.1 = .text t) ∧ Fits 988 entry.2

theorem complete_type (e : Event) : (complete e).type = e.type := by
  unfold complete
  simp only
  split <;> rfl

theorem complete_code (e : Event) : (complete e).code = e.code := by
  unfold complete
  simp only
  split <;> rfl

/-- Completing an event leaves it storable. -/
theorem Storable.complete {e : Event} (storable : e.Storable) : (complete e).Storable := by
  have trimmed : ∀ entry ∈ trimEntries e.context,
      (∃ t, entry.1 = .text t) ∧ Fits 988 entry.2 := by
    intro entry there
    rw [trimEntries_eq] at there
    obtain ⟨before, inside, rfl⟩ := List.mem_map.mp there
    obtain ⟨named, fits⟩ := storable.context before inside
    exact ⟨named, fits_trim before.2 fits⟩
  unfold Event.complete
  simp only
  split
  · exact ⟨storable.version, trimmed⟩
  · refine ⟨storable.version, fun entry there => ?_⟩
    rcases Entries.mem_put there with before | ⟨value, key⟩
    · exact trimmed entry before
    · rw [value]
      refine ⟨?_, Json.fits_texts 987 Text.ofString _⟩
      rcases key with new | old
      · exact ⟨_, new⟩
      · obtain ⟨other, inside, same⟩ := List.mem_map.mp old
        rw [← same]
        exact (trimmed other inside).1

theorem isWritable_one : Decimal.isWritable 1 = true := by decide +kernel

theorem isWritable_zero : Decimal.isWritable 0 = true := by decide +kernel

theorem fits_logged (depth : Nat) (result : Formula.Result) : Fits depth (logged result) := by
  unfold logged
  cases result with
  | blank => exact Json.fits_int isWritable_zero depth
  | number x =>
      simp only
      split
      · exact Json.fits_float depth x
      · exact Json.fits_text depth _

/-- Events of evaluations are storable. -/
theorem storable_ofOutcome (time : Text) (tokens : List Text) (result : Formula.Result)
    (error : Text) (label : Option Text) : (ofOutcome time tokens result error label).Storable := by
  refine Storable.complete ⟨isWritable_one, ?_⟩
  intro entry there
  rcases List.mem_append.mp there with front | about
  · rcases List.mem_cons.mp front with rfl | last
    · exact ⟨⟨_, rfl⟩, Json.fits_texts 987 id tokens⟩
    · rw [List.mem_singleton.mp last]
      exact ⟨⟨_, rfl⟩, fits_logged 988 result⟩
  · cases label with
    | none => cases about
    | some label =>
        rw [List.mem_singleton.mp about]
        exact ⟨⟨_, rfl⟩, Json.fits_text 988 label⟩

/-- The event of a sheet is storable if the number of its cells can be written. -/
theorem storable_sheetLoaded (time path : Text) {cells : Nat}
    (writable : Decimal.isWritable cells = true) :
    (sheetLoaded time path (some cells)).Storable := by
  unfold sheetLoaded
  refine Storable.complete ⟨isWritable_one, ?_⟩
  intro entry there
  rcases List.mem_cons.mp there with rfl | last
  · exact ⟨⟨_, rfl⟩, Json.fits_text 988 path⟩
  · rw [List.mem_singleton.mp last]
    exact ⟨⟨_, rfl⟩, Json.fits_int writable 988⟩

theorem storable_sheetFailed (time path error : Text) (code : Option Text) :
    (sheetFailed time path error code).Storable := by
  refine Storable.complete ⟨isWritable_one, ?_⟩
  intro entry there
  rw [List.mem_singleton.mp there]
  exact ⟨⟨_, rfl⟩, Json.fits_text 988 path⟩

/-- The fields of a storable event can be written. -/
theorem Storable.fits {e : Event} (storable : e.Storable) : Fits Json.depthLimit e.toValue := by
  have code : Fits 989 ((e.code.map Value.text).getD .null) := by
    cases e.code with
    | none => exact Json.fits_null 989
    | some code => exact Json.fits_text 989 code
  show Fits (989 + 1) (.mapping e.toEntries)
  refine Json.fits_of_named ?_
  unfold toEntries
  simp only [List.forall_mem_cons, List.not_mem_nil, false_implies, implies_true, and_true]
  exact ⟨⟨⟨_, rfl⟩, Json.fits_int storable.version 989⟩, ⟨⟨_, rfl⟩, Json.fits_text 989 _⟩,
    ⟨⟨_, rfl⟩, Json.fits_text 989 _⟩, ⟨⟨_, rfl⟩, Json.fits_text 989 _⟩,
    ⟨⟨_, rfl⟩, Json.fits_of_named storable.context⟩, ⟨⟨_, rfl⟩, Json.fits_text 989 _⟩,
    ⟨⟨_, rfl⟩, code⟩⟩

/-! ## What is read of an event -/

/-- An event as it is read. -/
def reread (e : Event) : Value :=
  Json.reread e.json

/-- What is read of the line of an event that can be written. -/
theorem read_lineText {e : Event} (fits : Fits Json.depthLimit e.toValue) :
    Json.read (Json.lineText e.json) = .ok e.reread :=
  Json.read_write .line (Json.fits_sortKeys _ fits)

/-- The fields that readers look at. -/
theorem fields_reread (e : Event) :
    ∃ es : Entries Key Value, e.reread = .mapping es ∧
      es.get? (.text "event_type") = some (.text e.type.name) ∧
      es.get? (.text "error_code") =
        some ((e.code.map fun code => Value.text code.paired).getD .null) ∧
      es.get? (.text "context") = some (Json.reread (Json.sortKeys (.mapping e.context))) := by
  have code : Json.reread ((e.code.map Value.text).getD .null) =
      (e.code.map fun code => Value.text code.paired).getD .null := by
    cases e.code with
    | none => rfl
    | some code => rw [Option.map_some, Option.getD_some, Json.reread]; rfl
  have whole : e.reread = .mapping (Entries.ofList
      [(.text "context", Json.reread (Json.sortKeys (.mapping e.context))),
       (.text "error_code", (e.code.map fun code => Value.text code.paired).getD .null),
       (.text "event_type", .text e.type.name), (.text "level", .text e.level.name),
       (.text "message", .text e.message.paired), (.text "schema_version", .int e.version),
       (.text "ts", .text e.time.paired)]) := by
    unfold reread
    rw [json_eq, Json.reread]
    simp only [Json.rereadEntries, Json.reread, Key.jsonText, Text.paired_ofString, code]
  exact ⟨_, whole, by rfl, by rfl, by rfl⟩

/-- What an evaluation counts as that ends with an error, or with none. -/
def outcomeName (error : Text) : Text :=
  if error.isEmpty then successName else error.paired

/-- What an event counts as, if it says how an evaluation came out. -/
def counted? (e : Event) : Option Text :=
  if e.type ∈ EventType.outcomes then some (outcomeName (e.code.getD {})) else none

theorem counted_complete (e : Event) : (complete e).counted? = e.counted? := by
  unfold counted?
  rw [complete_type, complete_code]

/-- An evaluation counts as the name of its error. -/
theorem counted_ofOutcome (time : Text) (tokens : List Text) (result : Formula.Result)
    (error : Text) (label : Option Text) :
    (ofOutcome time tokens result error label).counted? = some (outcomeName error) := by
  unfold ofOutcome evaluated
  rw [counted_complete]
  have none_empty : Text.isEmpty {} = true := rfl
  unfold counted? outcomeName
  cases empty : error.isEmpty <;> cases label <;> simp [EventType.outcomes, empty, none_empty]

theorem counted_sheetLoaded (time path : Text) (cells : Option Int) :
    (sheetLoaded time path cells).counted? = none := by
  unfold sheetLoaded
  rw [counted_complete]
  rfl

theorem counted_sheetFailed (time path error : Text) (code : Option Text) :
    (sheetFailed time path error code).counted? = none := by
  unfold sheetFailed
  rw [counted_complete]
  rfl

theorem isOutcome_name (type : EventType) :
    isOutcome (some (.text type.name)) = .ok (decide (type ∈ EventType.outcomes)) := by
  cases type <;> decide

theorem outcomeKey_code (code : Option Text) :
    outcomeKey (some ((code.map fun code => Value.text code.paired).getD .null)) =
      .ok (.text (outcomeName (code.getD {}))) := by
  unfold outcomeKey outcomeName
  cases code with
  | none => rfl
  | some code =>
      show (if (!code.paired.isEmpty) then Except.ok (Key.text code.paired)
        else .ok (.text successName)) = _
      rw [Text.isEmpty_paired, Option.getD_some]
      cases code.isEmpty <;> rfl

/-- **An event that is read is counted under its name**, or it is passed over. -/
theorem count_reread (counts : Entries Text Nat) (e : Event) :
    count (texted counts) e.reread = .ok (texted (e.counted?.elim counts (tick counts))) := by
  obtain ⟨es, same, type, code, _⟩ := e.fields_reread
  rw [same, count_mapping, type, code, isOutcome_name, outcomeKey_code]
  unfold counted?
  by_cases outcome : e.type ∈ EventType.outcomes
  · simp only [outcome, decide_true, if_true, Option.elim_some, ← tick_texted]
    rfl
  · simp only [outcome, decide_false, if_false, Option.elim_none]
    rfl

theorem foldlM_count (events : List Event) :
    (events.map reread).foldlM count [] = .ok (texted (tallyOf (events.filterMap counted?))) := by
  have from_counts (counts : Entries Text Nat) :
      (events.map reread).foldlM count (texted counts) =
        .ok (texted ((events.filterMap counted?).foldl tick counts)) := by
    induction events generalizing counts with
    | nil => rfl
    | cons e events ih =>
        rw [List.map_cons, List.foldlM_cons, count_reread, List.filterMap_cons]
        show List.foldlM count (texted (e.counted?.elim counts (tick counts)))
          (events.map reread) = _
        rw [ih]
        cases e.counted? <;> rfl
  exact from_counts []

end Event

/-! ## The log -/

/-- The log of a project holds the lines of events and nothing else, or there is none yet. -/
def Log.Lists (log : Log) (events : List Event) (fs : Files) : Prop :=
  fs.Holds log.path (bytesOf (events.map .event)) ∨
    (events = [] ∧ fs.read log.path = .error .notFound ∧
      ((FileChange.makeDirs log.dir).run fs).2.read log.path = .error .notFound)

theorem Log.lists_fresh {log : Log} {fs : Files} (fresh : log.Fresh fs) : log.Lists [] fs := by
  rcases fresh with empty | none_there
  · exact .inl (Files.holds_of_read empty)
  · exact .inr ⟨rfl, none_there⟩

theorem Log.Lists.append {log : Log} {events : List Event} {fs after : Files} {e : Event}
    (lists : log.Lists events fs) (ran : (log.append e).run fs = (.ok (), after)) :
    log.Lists (events ++ [e]) after := by
  obtain ⟨ready, made, added⟩ := Log.append_ok ran
  obtain ⟨longer, first⟩ := Files.holds_append added
  have bytes : bytesOf ((events ++ [e]).map .event) =
      bytesOf (events.map .event) ++ encode (Log.line e) := by
    rw [List.map_append, bytesOf_append, List.map_singleton, bytesOf_singleton]
    rfl
  unfold Log.Lists
  rw [bytes]
  rcases lists with holds | ⟨rfl, _, none_there⟩
  · have kept := FileChange.holds_makeDirs log.dir holds
    rw [made] at kept
    exact .inl (longer _ kept)
  · rw [made] at none_there
    exact .inl (first none_there)

/-- The lines of events that can be written are read. -/
theorem reads_events {events : List Event}
    (fit : ∀ e ∈ events, Fits Json.depthLimit e.toValue) :
    Reads (Text.lines (textOf (events.map .event))) (events.map Event.reread) := by
  induction events with
  | nil => exact fun _ _ => rfl
  | cons e events ih =>
      obtain ⟨first, others⟩ := List.forall_mem_cons.mp fit
      have line : Reads [Json.lineText e.json] [e.reread] := by
        intro done rest
        rw [List.singleton_append, Log.readLines, not_blank_event, Event.read_lineText first]
        rfl
      have text : textOf ((e :: events).map .event) =
          Json.lineText e.json ++ '\n' :: textOf (events.map .event) := by
        show (Json.lineText e.json ++ ['\n']) ++ textOf (events.map .event) = _
        rw [List.append_assoc]
        rfl
      rw [text, Text.lines_append_break, lines_of_plain (Json.plain_lineText e.json)]
      exact line.append (ih others)

/-- A log whose events can be read again and count as given names. -/
def Log.Counts (log : Log) (names : List Text) (fs : Files) : Prop :=
  ∃ events, log.Lists events fs ∧ (∀ e ∈ events, e.Storable) ∧
    events.filterMap Event.counted? = names

theorem Log.Counts.append {log : Log} {names : List Text} {fs after : Files} {e : Event}
    (counts : log.Counts names fs) (storable : e.Storable)
    (ran : (log.append e).run fs = (.ok (), after)) :
    log.Counts (names ++ e.counted?.toList) after := by
  obtain ⟨events, lists, others, rfl⟩ := counts
  refine ⟨events ++ [e], lists.append ran, ?_, ?_⟩
  · intro f there
    rcases List.mem_append.mp there with before | last
    · exact others f before
    · rw [List.mem_singleton.mp last]
      exact storable
  · rw [List.filterMap_append]
    cases counted : e.counted? <;> simp [counted]

theorem Log.counts_fresh {log : Log} {fs : Files} (fresh : log.Fresh fs) : log.Counts [] fs :=
  ⟨[], log.lists_fresh fresh, nofun, rfl⟩

/-- **The tally of a log is that of the names that its events count as**, if the whole of it is
read. -/
theorem tally_of_counts {log : Log} {names : List Text} {fs : Files} (counts : log.Counts names fs)
    (short : ∀ bytes, fs.read log.path = .ok bytes → (bytes.length : Int) ≤ log.tail) :
    tally log fs = .ok (texted (tallyOf names)) := by
  obtain ⟨events, lists, storable, rfl⟩ := counts
  have values : log.values fs = .ok (events.map Event.reread) := by
    rcases lists with holds | ⟨rfl, none_there, _⟩
    · have enough := short _ holds.read
      have whole : ((bytesOf (events.map .event)).length - log.tail).toNat = 0 := by omega
      rw [values_of_holds holds (by omega), whole, linesFrom_zero]
      exact (reads_events fun e there => (storable e there).fits).values
    · unfold Log.values
      rw [Files.has_of_notFound none_there]
      rfl
  unfold tally
  rw [values]
  exact Event.foldlM_count events

end SheetCalc.Journal
