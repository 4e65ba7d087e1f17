import SheetCalc.Proofs.Journal.Outcomes
import SheetCalc.Proofs.Procedure

/-!
# Looking up what has been written

A log whose lines are those of events that have been written (`Log.Records`), as when they are
written one after the other (`Log.writeAll`), is read from the beginning of its window, which is as
many bytes at its end as are looked at. The line that the window begins in is taken for one that is
cut, so that the events in the log are those that begin behind the beginning of the window, and all
of them if the window is the whole file (`values_records`). An event whose line is all in the window
is among them unless it begins with it (`window_shows`).

Of the events in the log those are selected that a filter accepts, the newest first, as many as
asked for but always one, if there is one (`select_accepted`).
-/

namespace SheetCalc.Journal

open Json (Fits)

/-! ## Logs of events -/

/-- A log that holds the lines of events that can be written, and nothing else. -/
structure Log.Records (log : Log) (events : List Event) (fs : Files) : Prop where
  lists : log.Lists events fs
  fit : ∀ e ∈ events, Fits Json.depthLimit e.toValue

theorem Log.records_fresh {log : Log} {fs : Files} (fresh : log.Fresh fs) : log.Records [] fs :=
  ⟨log.lists_fresh fresh, nofun⟩

/-- Writing an event adds it to those that the log holds. -/
theorem Log.Records.write {log : Log} {events : List Event} {fs after : Files} {e : Event}
    (records : log.Records events fs) (ran : (log.write e).run fs = (.ok (), after)) :
    log.Records (events ++ [e]) after := by
  obtain ⟨fits, added⟩ := Log.write_ok.mp ran
  refine ⟨records.lists.append added, ?_⟩
  intro f there
  rcases List.mem_append.mp there with before | last
  · exact records.fit f before
  · rw [List.mem_singleton.mp last]
    exact fits

/-- Writes events one after the other. -/
def Log.writeAll (log : Log) (events : List Event) : FileChange AppendError Unit :=
  forM events log.write

theorem Log.Records.writeAll {log : Log} {events more : List Event} {fs after : Files}
    (records : log.Records events fs) (ran : (log.writeAll more).run fs = (.ok (), after)) :
    log.Records (events ++ more) after := by
  induction more generalizing events fs with
  | nil =>
      cases ran
      rwa [List.append_nil]
  | cons e more ih =>
      rw [Log.writeAll, List.forM_cons] at ran
      rcases written : (log.write e).run fs with ⟨_ | _, between⟩
      · rw [Procedure.run_bind_error written] at ran
        cases (Prod.mk.inj ran).1
      · rw [Procedure.run_bind_ok written] at ran
        rw [List.append_cons]
        exact ih (records.write written) ran

/-- A log that was not there holds the lines of the events that have been written to it. -/
theorem Log.records_writeAll {log : Log} {events : List Event} {fs after : Files}
    (fresh : log.Fresh fs) (ran : (log.writeAll events).run fs = (.ok (), after)) :
    log.Records events after :=
  (Log.records_fresh fresh).writeAll ran

/-- How many bytes the lines of events have. -/
def extent (events : List Event) : Nat :=
  (bytesOf (events.map .event)).length

theorem extent_append (front rest : List Event) :
    extent (front ++ rest) = extent front + extent rest := by
  unfold extent
  rw [List.map_append, bytesOf_append, List.length_append]

/-- No line is empty. -/
theorem extent_eq_zero {events : List Event} : extent events = 0 ↔ events = [] := by
  constructor
  · intro empty
    cases events with
    | nil => rfl
    | cons e rest =>
        have line : extent [e] ≠ 0 := by
          unfold extent
          rw [List.map_singleton, bytesOf_singleton, Piece.text, Text.Utf8.encode,
            List.flatMap_append, List.length_append]
          exact Nat.ne_of_gt (Nat.lt_of_lt_of_le (by decide) (Nat.le_add_left _ _))
        have whole := extent_append [e] rest
        rw [List.singleton_append] at whole
        omega
  · rintro rfl
    rfl

/-! ## The window -/

/-- Whether a line is seen that has those of given events in front of it, in a log of a given size:
it begins in the window, and not with it unless the window is the whole file. -/
def Log.Shows (log : Log) (size : Nat) (front : List Event) : Prop :=
  (size : Int) ≤ extent front + log.tail ∧ ((size : Int) = extent front + log.tail → front = [])

/-- **What is in a log of events.** It is read without a failure, and there are the events in it
whose lines are seen, in the order in which they have been written. -/
theorem values_records {log : Log} {events : List Event} {fs : Files}
    (records : log.Records events fs) (some_tail : 0 ≤ log.tail) :
    ∃ lost shown, events = lost ++ shown ∧ log.values fs = .ok (shown.map Event.reread) ∧
      ∀ front e rest, events = front ++ e :: rest →
        (lost <+: front ↔ log.Shows (extent events) front) := by
  obtain ⟨lists, fit⟩ := records
  rcases lists with holds | ⟨rfl, none_there, _⟩
  · have read : log.values fs = Log.readLines [] (Log.linesFrom
        ((extent events : Int) - log.tail).toNat (bytesOf (events.map .event))) :=
      values_of_holds holds some_tail
    by_cases cut : ((extent events : Int) - log.tail).toNat = 0
    · refine ⟨[], events, rfl, ?_, ?_⟩
      · rw [read, cut, linesFrom_zero]
        exact (reads_events fit).values
      · intro front e rest same
        refine iff_of_true List.nil_prefix ⟨by omega, fun with_it => extent_eq_zero.mp (by omega)⟩
    · have tidy : ∀ p ∈ events.map Piece.event, p.Tidy := by
        intro p there
        obtain ⟨e, _, rfl⟩ := List.mem_map.mp there
        exact .inr (Json.plain_lineText e.json)
      obtain ⟨before, after, torn, parts, seen, passed, behind⟩ := linesFrom_bytesOf tidy cut
      obtain ⟨lost, shown, rfl, rfl, rfl⟩ := List.map_eq_append_iff.mp parts
      refine ⟨lost, shown, rfl, ?_, ?_⟩
      · rw [read, seen]
        refine (passed.append (reads_events fun e there => ?_)).values
        exact fit e (List.mem_append_right _ there)
      · intro front e rest same
        have begins := behind (front.map .event) (.event e) (rest.map .event) (by rw [same]; simp)
        rw [List.prefix_map_iff_of_injective fun _ _ => Piece.event.inj] at begins
        rw [begins]
        show _ < extent front ↔ _
        constructor
        · intro beyond
          exact ⟨by omega, fun with_it => by omega⟩
        · rintro ⟨inside, not_with⟩
          by_contra short
          have none_before := extent_eq_zero.mpr (not_with (by omega))
          omega
  · refine ⟨[], [], rfl, ?_, by simp⟩
    unfold Log.values
    rw [Files.has_of_notFound none_there]
    rfl

/-! ## Selecting -/

/-- The fields of an event are what readers take them for. -/
theorem proper_reread (e : Event) : ∃ es, e.reread = .mapping es ∧ Proper es := by
  obtain ⟨es, same, type, code, context⟩ := e.fields_reread
  refine ⟨es, same, ?_, ?_, ?_⟩
  · intro v there
    rw [type] at there
    cases there
    rfl
  · intro v there
    rw [context, Json.sortKeys, Json.reread] at there
    exact ⟨_, (Option.some.inj there).symm⟩
  · intro _ v there _
    rw [code] at there
    cases there
    cases e.code <;> rfl

/-- Of events that have been read those are selected that a filter accepts. -/
theorem select_reread {log : Log} {fs : Files} {shown : List Event}
    (read : log.values fs = .ok (shown.map Event.reread)) (f : Filter) (limit : Int) :
    select log fs f limit = .ok (((shown.map Event.reread).reverse.filter f.accepts).take
      (max 1 (min limit selectionLimit)).toNat) := by
  have asked : ∀ v ∈ (shown.map Event.reread).reverse, f.fits v = .ok (f.accepts v) := by
    intro v there
    obtain ⟨e, _, rfl⟩ := List.mem_map.mp (List.mem_reverse.mp there)
    obtain ⟨es, same, proper⟩ := proper_reread e
    rw [same]
    exact proper.fits_eq f
  have selected := selectFrom_eq asked (min limit selectionLimit) []
  rw [List.length_nil, Int.natCast_zero, Int.sub_zero] at selected
  unfold select
  rw [read]
  exact selected

/-- **The newest events are selected that a filter accepts.** Of the events in a log, which are the
last ones that have been written, those that a filter accepts are selected in the reverse order, as
many as asked for and no more than `selectionLimit`. Even if none is asked for, one is selected. -/
theorem select_accepted {log : Log} {events : List Event} {fs : Files}
    (records : log.Records events fs) (some_tail : 0 ≤ log.tail) :
    ∃ loaded, log.values fs = .ok loaded ∧ loaded <:+ events.map Event.reread ∧
      ∀ (f : Filter) (limit : Int), select log fs f limit =
        .ok ((loaded.reverse.filter f.accepts).take (max 1 (min limit selectionLimit)).toNat) := by
  obtain ⟨lost, shown, rfl, read, _⟩ := values_records records some_tail
  refine ⟨_, read, ?_, select_reread read⟩
  rw [List.map_append]
  exact List.suffix_append _ _

/-- **An event is shown whose line is in the window.** Without a filter, and if enough of them are
asked for, the events are selected whose line is all in the last bytes that are looked at. An event
whose line begins just where these bytes begin is not among them, unless they are the whole log. -/
theorem window_shows {log : Log} {events : List Event} {fs : Files} {limit : Int}
    (records : log.Records events fs) (some_tail : 0 ≤ log.tail)
    (enough : (events.length : Int) ≤ limit) (allowed : limit ≤ selectionLimit) :
    ∃ lost shown, events = lost ++ shown ∧
      select log fs {} limit = .ok (shown.map Event.reread).reverse ∧
      ∀ front e rest, events = front ++ e :: rest →
        (lost <+: front ↔ (extent events : Int) ≤ extent front + log.tail ∧
          ((extent events : Int) = extent front + log.tail → front = [])) := by
  obtain ⟨lost, shown, rfl, read, shows⟩ := values_records records some_tail
  refine ⟨lost, shown, rfl, ?_, shows⟩
  have all : (shown.map Event.reread).reverse.filter (Filter.accepts {}) =
      (shown.map Event.reread).reverse := List.filter_eq_self.mpr fun _ _ => rfl
  rw [List.length_append] at enough
  rw [select_reread read, all, List.take_of_length_le]
  rw [List.length_reverse, List.length_map]
  omega

/-! ### Two lines of one length -/

/-- The event that a sheet is not there. -/
def gone : Event :=
  .sheetFailed "t" "a.yaml" "gone" none

theorem fits_gone : Fits Json.depthLimit gone.toValue :=
  (Event.storable_sheetFailed _ _ _ _).fits

theorem extent_gone : extent [gone] = 162 := by
  have context : Json.sortKeys (.mapping gone.context) =
      .mapping [(.text "sheet_path", .text "a.yaml")] := by
    have one_entry : gone.context = [(.text "sheet_path", .text "a.yaml")] := rfl
    simp [one_entry, Json.sortKeys, Json.sortEntries]
  have line : (Text.Utf8.encode (Log.line gone)).length = 162 := by
    show (Text.Utf8.encode (Json.lineText gone.json ++ ['\n'])).length = 162
    rw [json_eq, context]
    decide +kernel
  rw [← line]
  exact congrArg List.length (bytesOf_singleton (.event gone))

theorem extent_goneTwice : extent [gone, gone] = 324 := by
  have size : extent [gone, gone] = extent [gone] + extent [gone] := extent_append [gone] [gone]
  rw [size, extent_gone]

/-- Files with a log in which this event is twice. -/
def goneTwice : Files :=
  { nodes := [(["logs"], .dir),
      (["logs", "events.ndjson"], .file (bytesOf ([gone, gone].map .event)))] }

theorem records_goneTwice (tail : Int) :
    Log.Records { project := .ofText ".", tail } [gone, gone] goneTwice := by
  refine ⟨.inl ⟨["logs", "events.ndjson"], by rfl, by rfl⟩, ?_⟩
  intro e there
  rcases List.mem_cons.mp there with rfl | last
  · exact fits_gone
  · rw [List.mem_singleton.mp last]
    exact fits_gone

/-- The line of an event is not shown that is all in the window, but begins with it. -/
theorem line_with_window_lost :
    let log : Log := { project := .ofText ".", tail := 162 }
    log.Records [gone, gone] goneTwice ∧
      (extent [gone, gone] : Int) ≤ extent [gone] + log.tail ∧
      select log goneTwice {} 200 = .ok [] := by
  intro log
  have records := records_goneTwice 162
  refine ⟨records, by rw [extent_gone, extent_goneTwice]; decide, ?_⟩
  obtain ⟨lost, shown, parts, read, shows⟩ := values_records records (by decide)
  have not_shown : ¬ lost <+: [gone] := by
    rw [shows [gone] gone [] rfl]
    rintro ⟨_, only_first⟩
    rw [extent_gone, extent_goneTwice] at only_first
    exact absurd (only_first rfl) (List.cons_ne_nil _ _)
  have none_shown : shown = [] := by
    rcases List.prefix_concat_iff.mp (show lost <+: [gone] ++ [gone] from ⟨shown, parts.symm⟩) with
      all | fewer
    · rw [all] at parts
      exact List.append_right_eq_self.mp parts.symm
    · exact absurd fewer not_shown
  rw [select_reread read, none_shown]
  rfl

/-- It is shown if the window begins one byte before it. -/
theorem window_shows_gone :
    let log : Log := { project := .ofText ".", tail := 163 }
    log.Records [gone, gone] goneTwice ∧ 0 ≤ log.tail ∧
      (([gone, gone] : List Event).length : Int) ≤ 200 ∧ 200 ≤ selectionLimit ∧
      select log goneTwice {} 200 = .ok [gone.reread] := by
  intro log
  have records := records_goneTwice 163
  refine ⟨records, by decide, by decide, by decide, ?_⟩
  obtain ⟨lost, shown, parts, selected, shows⟩ :=
    window_shows records (by decide) (show _ ≤ 200 by decide) (by decide)
  have second : lost <+: [gone] := by
    rw [shows [gone] gone [] rfl, extent_gone, extent_goneTwice]
    exact ⟨by decide, nofun⟩
  have first : ¬ lost <+: [] := by
    rw [shows [] gone [gone] rfl, extent_goneTwice]
    rintro ⟨inside, _⟩
    exact absurd inside (by decide)
  have one_lost : lost = [gone] := by
    rcases List.prefix_concat_iff.mp (show lost <+: [] ++ [gone] from second) with all | none_lost
    · exact all
    · exact absurd none_lost first
  rw [one_lost] at parts
  obtain rfl : [gone] = shown := (List.cons.inj parts).2
  exact selected

/-! ### One event too many -/

theorem values_goneTwice :
    Log.values { project := .ofText "." } goneTwice = .ok ([gone, gone].map Event.reread) := by
  obtain ⟨lost, shown, parts, read, shows⟩ :=
    values_records (records_goneTwice defaultTail) (by decide)
  have all : lost <+: [] := by
    rw [shows [] gone [gone] rfl, extent_goneTwice]
    exact ⟨by decide, fun _ => rfl⟩
  rw [List.prefix_nil.mp all, List.nil_append] at parts
  rw [← parts] at read
  exact read

/-- If no event is asked for, the newest one is selected. -/
theorem one_selected_of_none_asked :
    let log : Log := { project := .ofText "." }
    log.Records [gone, gone] goneTwice ∧ select log goneTwice {} 0 = .ok [gone.reread] ∧
      ∃ loaded, log.values goneTwice = .ok loaded ∧
        (loaded.reverse.filter (Filter.accepts {})).take (min 0 selectionLimit).toNat = [] := by
  intro log
  refine ⟨records_goneTwice defaultTail, ?_, _, values_goneTwice, rfl⟩
  rw [select_reread values_goneTwice]
  rfl

/-- Of two events of a type one is selected if one is asked for. -/
theorem select_accepted_gone :
    let log : Log := { project := .ofText "." }
    log.Records [gone, gone] goneTwice ∧ 0 ≤ log.tail ∧
      select log goneTwice { type := "sheet_load_failed" } 1 = .ok [gone.reread] := by
  intro log
  have records := records_goneTwice defaultTail
  refine ⟨records, by decide, ?_⟩
  obtain ⟨loaded, read, _, selects⟩ := select_accepted records (by decide)
  obtain rfl : [gone, gone].map Event.reread = loaded :=
    Except.ok.inj (values_goneTwice.symm.trans read)
  have accepted : Filter.accepts { type := "sheet_load_failed" } gone.reread = true := by
    obtain ⟨es, same, type, _⟩ := gone.fields_reread
    have named : isText "sheet_load_failed" (some (.text gone.type.name)) = true := by decide
    have not_asked : Text.isEmpty {} = true := rfl
    rw [same]
    simp [Filter.accepts, Filter.accepts.has, field?, type, named, not_asked]
  rw [selects]
  simp [accepted]

end SheetCalc.Journal
