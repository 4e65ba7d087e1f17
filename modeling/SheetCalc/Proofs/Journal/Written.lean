import SheetCalc.Journal.Log
import SheetCalc.Proofs.Files
import SheetCalc.Proofs.Json.Fits
import SheetCalc.Proofs.Json.Plain

/-!
# What has been written to a log

A log is a file to which the lines of events have been added, and perhaps other lines that hold no
JSON (`Written`). Its file holds the bytes of these pieces, one behind the other (`holds_written`).
-/

namespace SheetCalc.Journal

open Text (Plain)

/-! ## What a log is made of -/

/-- An event as JSON. -/
def Event.json (e : Event) : Value :=
  Json.sortKeys e.toValue

theorem sort_fields (a b c d e f g : Value) :
    List.mergeSort [(Key.text "schema_version", a), (.text "ts", b), (.text "level", c),
      (.text "event_type", d), (.text "context", e), (.text "message", f),
      (.text "error_code", g)] Json.entryLe =
    [(.text "context", e), (.text "error_code", g), (.text "event_type", d), (.text "level", c),
      (.text "message", f), (.text "schema_version", a), (.text "ts", b)] := by
  have le (s t : Text) (v w : Value) : Json.entryLe (.text s, v) (.text t, w) = s.le t := rfl
  simp [List.mergeSort, List.MergeSort.Internal.splitInTwo, le,
    show Text.le "schema_version" "ts" = true by decide,
    show Text.le "level" "event_type" = false by decide,
    show Text.le "schema_version" "event_type" = false by decide,
    show Text.le "schema_version" "level" = false by decide,
    show Text.le "context" "message" = true by decide,
    show Text.le "context" "error_code" = true by decide,
    show Text.le "message" "error_code" = false by decide,
    show Text.le "event_type" "context" = false by decide,
    show Text.le "event_type" "error_code" = false by decide,
    show Text.le "event_type" "message" = true by decide,
    show Text.le "level" "message" = true by decide,
    show Text.le "schema_version" "message" = false by decide]

/-- The fields of an event stand in the order of their names. -/
theorem json_eq (e : Event) :
    e.json = .mapping
      [(.text "context", Json.sortKeys (.mapping e.context)),
       (.text "error_code", (e.code.map Value.text).getD .null),
       (.text "event_type", .text e.type.name), (.text "level", .text e.level.name),
       (.text "message", .text e.message), (.text "schema_version", .int e.version),
       (.text "ts", .text e.time)] := by
  have code : Json.sortKeys ((e.code.map Value.text).getD .null) =
      (e.code.map Value.text).getD .null := by
    cases e.code <;> simp [Json.sortKeys]
  unfold Event.json Event.toValue Event.toEntries
  rw [Json.sortKeys]
  simp only [Json.sortEntries, code, Json.sortKeys]
  rw [sort_fields]

/-- Reading JSON undoes writing it for an event. -/
def Event.ReadsBack (e : Event) : Prop :=
  Json.read (Json.lineText e.json) = .ok e.json

/-- A line that is passed over: nothing but blanks, or printable ASCII that is no JSON. -/
def IsJunk (line : List Char) : Prop :=
  line.all Text.isBlank = true ∨ (Plain line ∧ Json.read line = .error .malformed)

/-- What a log is made of: the lines of events, and other lines. -/
inductive Piece where
  | event (e : Event)
  | junk (line : List Char)

namespace Piece

/-- The line of a piece. -/
def line : Piece → List Char
  | .event e => Json.lineText e.json
  | .junk line => line

/-- The line of a piece and its end. -/
def text (p : Piece) : List Char :=
  p.line ++ ['\n']

/-- The event that a piece holds. -/
def event? : Piece → Option Event
  | .event e => some e
  | .junk _ => none

/-- A piece is read as what it is: an event comes back from its line, and what is none is passed
over. -/
def Sound : Piece → Prop
  | .event e => e.ReadsBack
  | .junk line => IsJunk line

end Piece

/-- The events among pieces. -/
def eventsOf (ps : List Piece) : List Event :=
  ps.filterMap Piece.event?

/-- The text of pieces. -/
def textOf (ps : List Piece) : List Char :=
  ps.flatMap Piece.text

/-- The bytes of pieces. -/
def bytesOf (ps : List Piece) : List UInt8 :=
  Text.Utf8.encode (textOf ps)

/-- A log that nothing has been written to: its file is empty or not there, and making its directory
does not lead to another one. -/
def Log.Fresh (log : Log) (fs : Files) : Prop :=
  fs.read log.path = .ok [] ∨
    (fs.read log.path = .error .notFound ∧
      ((FileChange.makeDirs log.dir).run fs).2.read log.path = .error .notFound)

/-- A log to which events have been written, and other lines have been added, one after the
other. -/
inductive Written (log : Log) : List Piece → Files → Prop
  | fresh {fs} : log.Fresh fs → Written log [] fs
  | event {ps fs after e} : Written log ps fs → (log.append e).run fs = (.ok (), after) →
      Written log (ps ++ [.event e]) after
  | junk {ps fs after line} : Written log ps fs → IsJunk line →
      fs.append log.path (Text.Utf8.encode (line ++ ['\n'])) = .ok after →
      Written log (ps ++ [.junk line]) after

theorem textOf_append (ps qs : List Piece) : textOf (ps ++ qs) = textOf ps ++ textOf qs := by
  unfold textOf
  rw [List.flatMap_append]

theorem bytesOf_append (ps qs : List Piece) : bytesOf (ps ++ qs) = bytesOf ps ++ bytesOf qs := by
  unfold bytesOf Text.Utf8.encode
  rw [textOf_append, List.flatMap_append]

theorem bytesOf_singleton (p : Piece) : bytesOf [p] = Text.Utf8.encode p.text := by
  unfold bytesOf textOf
  rw [List.flatMap_singleton]

theorem eventsOf_append (ps qs : List Piece) :
    eventsOf (ps ++ qs) = eventsOf ps ++ eventsOf qs := by
  unfold eventsOf
  rw [List.filterMap_append]

/-! ## The file of a log -/

/-- How the line of an event is added: after the directory of the log has been made. -/
theorem Log.run_append (log : Log) (e : Event) (fs : Files) :
    (log.append e).run fs = match (FileChange.makeDirs log.dir).run fs with
      | (.ok (), ready) =>
        match ready.append log.path (Text.Utf8.encode (Log.line e)) with
        | .ok after => (.ok (), after)
        | .error f => (.error f, ready)
      | (.error f, ready) => (.error f, ready) := by
  unfold Log.append
  rw [FileChange.run_bind]
  rcases (FileChange.makeDirs log.dir).run fs with ⟨_ | _, ready⟩
  · rfl
  · exact FileChange.run_step _ ready

theorem Log.append_ok {log : Log} {e : Event} {fs after : Files}
    (ran : (log.append e).run fs = (.ok (), after)) :
    ∃ ready, (FileChange.makeDirs log.dir).run fs = (.ok (), ready) ∧
      ready.append log.path (Text.Utf8.encode (Log.line e)) = .ok after := by
  rw [Log.run_append] at ran
  rcases made : (FileChange.makeDirs log.dir).run fs with ⟨_ | _, ready⟩
  · rw [made] at ran
    cases ran
  · rw [made] at ran
    cases added : ready.append log.path (Text.Utf8.encode (Log.line e)) with
    | error f =>
        simp only [added] at ran
        cases ran
    | ok final =>
        simp only [added] at ran
        cases ran
        exact ⟨ready, rfl, added⟩

/-- When no line is added, the directory of the log may have been made, and nothing else is done. -/
theorem Log.append_error {log : Log} {e : Event} {fs after : Files} {error : FileError}
    (ran : (log.append e).run fs = (.error error, after)) :
    after = ((FileChange.makeDirs log.dir).run fs).2 := by
  rw [Log.run_append] at ran
  rcases made : (FileChange.makeDirs log.dir).run fs with ⟨_ | _, ready⟩
  · rw [made] at ran
    cases ran
    rfl
  · rw [made] at ran
    cases added : ready.append log.path (Text.Utf8.encode (Log.line e)) with
    | error f =>
        simp only [added] at ran
        cases ran
        rfl
    | ok final =>
        simp only [added] at ran
        cases ran

/-- How an event is written: its line is added at the end, if it has one. -/
theorem Log.run_write (log : Log) (e : Event) (fs : Files) :
    (log.write e).run fs =
      if Json.isWritable Json.depthLimit e.toValue then
        ((((log.append e).run fs).1).mapError .file, ((log.append e).run fs).2)
      else (.error .unwritable, fs) := by
  unfold Log.write
  cases Json.isWritable Json.depthLimit e.toValue <;> rfl

/-- An event is written if it can be written and its line is added. -/
theorem Log.write_ok {log : Log} {e : Event} {fs after : Files} :
    (log.write e).run fs = (.ok (), after) ↔
      Json.Fits Json.depthLimit e.toValue ∧ (log.append e).run fs = (.ok (), after) := by
  rw [Log.run_write, ← Json.isWritable_iff]
  cases Json.isWritable Json.depthLimit e.toValue with
  | false => exact iff_of_false nofun fun added => nomatch added.1
  | true =>
      rw [if_pos rfl]
      rcases (log.append e).run fs with ⟨_ | _, _⟩
      · exact iff_of_false nofun fun added => nomatch added.2
      · constructor
        · rintro ⟨⟩
          exact ⟨rfl, rfl⟩
        · rintro ⟨_, ⟨⟩⟩
          rfl

/-- The file of a log holds the bytes of what has been written. Without a file nothing has been. -/
theorem holds_written {log : Log} {ps : List Piece} {fs : Files} (written : Written log ps fs) :
    fs.Holds log.path (bytesOf ps) ∨
      (ps = [] ∧ fs.read log.path = .error .notFound ∧
        ((FileChange.makeDirs log.dir).run fs).2.read log.path = .error .notFound) := by
  induction written with
  | fresh start =>
      rcases start with empty | none_there
      · exact .inl (Files.holds_of_read empty)
      · exact .inr ⟨rfl, none_there⟩
  | @event ps fs after e _ ran ih =>
      refine .inl ?_
      obtain ⟨ready, made, added⟩ := Log.append_ok ran
      obtain ⟨longer, first⟩ := Files.holds_append added
      rw [bytesOf_append, bytesOf_singleton]
      -- Making the directory leaves the file as it is.
      rcases ih with holds | ⟨rfl, _, none_there⟩
      · have kept := FileChange.holds_makeDirs log.dir holds
        rw [made] at kept
        exact longer _ kept
      · rw [made] at none_there
        exact first none_there
  | @junk ps fs after line _ _ added ih =>
      refine .inl ?_
      obtain ⟨longer, first⟩ := Files.holds_append added
      rw [bytesOf_append, bytesOf_singleton]
      -- Where nothing has been written before, the line makes the file.
      rcases ih with holds | ⟨rfl, none_there, _⟩
      · exact longer _ holds
      · exact first none_there

/-- What is no event in a log is junk. -/
theorem sound_written {log : Log} {ps : List Piece} {fs : Files} (written : Written log ps fs)
    (readsBack : ∀ e ∈ eventsOf ps, e.ReadsBack) : ∀ p ∈ ps, p.Sound := by
  induction written with
  | fresh _ =>
      intro p none_there
      cases none_there
  | @event ps fs after e _ _ ih =>
      rw [eventsOf_append] at readsBack
      intro p there
      rcases List.mem_append.mp there with before | last
      · exact ih (fun e' inside => readsBack e' (List.mem_append_left _ inside)) p before
      · rw [List.mem_singleton.mp last]
        exact readsBack e (List.mem_append_right _ (List.mem_singleton_self e))
  | @junk ps fs after line _ junk _ ih =>
      rw [eventsOf_append] at readsBack
      intro p there
      rcases List.mem_append.mp there with before | last
      · exact ih (fun e' inside => readsBack e' (List.mem_append_left _ inside)) p before
      · rw [List.mem_singleton.mp last]
        exact junk

end SheetCalc.Journal
