import SheetCalc.Proofs.Command.Session
import SheetCalc.Proofs.Journal.Appended
import SheetCalc.Proofs.Sheet.Loading

/-!
# Sheet files that are refused

A command that evaluates something on the sheet of a file refuses a file that holds no sheet: it
adds one event to the log, says what is wrong, and ends (`Refuses`). If the text of the file trips,
the command breaks off before it has done or said anything.

Up to the sheet both commands do the same (`run_evaluates`), so the two outcomes are those of
loading the sheet.
-/

namespace SheetCalc.Command

open Procedure (run_bind run_bind_ok run_bind_error)
open Journal (Log Emits AddsLine)

variable {α : Type}

/-! ## Loading a sheet -/

/-- The event of a sheet file that is refused. -/
def invalidSheet (time file : Text) (e : LoadError) : Journal.Event :=
  .sheetFailed time file e.message (some Journal.Event.sheetInvalid)

/-- A console on which it has been said what is wrong. -/
def Console.told (c : Console) (message : Text) : Console :=
  { c with
    err := c.err ++ c.held ++ ("Error: " ++ message : Text).withoutControls.escapingHalves ++ "\n"
    held := "" }

section

variable {c : Console} {file : Text} {rows cols : Int} {e : LoadError}
  (loaded : Sheet.load c.files (.ofText file) rows cols = .error e)

include loaded

theorem run_loadSheet_refused (refusal : e.IsRefusal) :
    (loadSheet file rows cols).run c = (.error (.reported e.message),
      ((emit fun time => invalidSheet time file e).run c).2.told e.message) := by
  rw [run_loadSheet_eq, loaded]
  simp only
  split
  · exact refusal.elim
  · exact refusal.elim
  · exact absurd rfl refusal.1
  · exact absurd rfl refusal.2
  · exact absurd rfl refusal
  · exact absurd rfl refusal.1
  · exact absurd rfl (refusal.2 _)
  · rw [sheetFailure_eq (LoadError.message_isEmpty _)]
    rfl

theorem run_loadSheet_tripped (unrefused : ¬ e.IsRefusal) (there : ∀ path, e ≠ .notFound path) :
    (loadSheet file rows cols).run c = (.error (.broken (.sheet e)), c) := by
  rw [run_loadSheet_eq, loaded]
  simp only
  split
  · exact absurd rfl (there _)
  · rfl
  · rfl
  · rfl
  · rfl
  · rfl
  · rfl
  · next found readable flat small bounded finite countable =>
      refine absurd ?_ unrefused
      cases e with
      | notFound path => exact absurd rfl (found path)
      | unreadable e => exact absurd rfl (readable e)
      | badDocument path => trivial
      | notMapping path => trivial
      | badScalar e =>
          exact ⟨fun same => flat (congrArg _ same), fun same => small (congrArg _ same)⟩
      | badSpec e =>
          cases e with
          | badCount e =>
              exact ⟨fun same => finite (same ▸ rfl), fun kind same => countable kind (same ▸ rfl)⟩
          | valueTooLarge => exact absurd rfl bounded
          | _ => exact nofun

end

/-! ## Commands that work on a sheet -/

/-- A command line is run that evaluates something on the sheet of a file, in a project that sends
its events to a log. The sizes are those that its configuration has for sheets without a size of
their own. -/
structure Evaluates (args : List Text) (file : Text) (log : Log) (rows cols : Int) (c : Console) :
    Prop where
  asks : ∃ line command project, Line.read? args = some line ∧
    Line.command c.files line = .ok command ∧ sheet? command = some file ∧
    project? command = some project ∧ Path.ofText project = log.project
  configured : ∃ config, Config.load c.files log.project = .ok config ∧
    Journal.isEnabled config = true ∧ Journal.tailOf config = .ok log.tail ∧
    sizeOf config = .ok (rows, cols)

/-- The event, the message and the exit code of a command that refuses a sheet file. A line is added
to the log if that can be done; else the event is lost with a warning. -/
structure Refuses (c : Console) (file : Text) (log : Log) (e : LoadError) (o : Outcome) : Prop where
  stop : o.stop = some (.reported e.message)
  exit : o.exitCode = 1
  out : o.console.out = c.out
  tells : ∃ warnings, o.stderr = c.err ++ warnings ++
    ("Error: " ++ e.message : Text).withoutControls.escapingHalves ++ "\n"
  emits : Emits (some log) (invalidSheet c.time file e) c.files o.console.files
  logs : (∃ any, ((log.append any).run c.files).1 = .ok ()) →
    AddsLine log (invalidSheet c.time file e) c.files o.console.files

/-- A command breaks off and has done nothing. -/
structure BreaksOff (c : Console) (e : LoadError) (o : Outcome) : Prop where
  stop : o.stop = some (.broken (.sheet e))
  exit : o.exitCode = 1
  out : o.console.out = c.out
  err : o.console.err = c.err
  files : o.console.files = c.files

section

variable {args : List Text} {c : Console} {file : Text} {log : Log} {rows cols : Int}

/-- A command loads the sheet first, when it knows where its events go. -/
theorem run_evaluates (evaluates : Evaluates args file log rows cols c) :
    ∃ rest : Sheet → Action Unit,
      runLine args c = .ofRun ((loadSheet file rows cols >>= rest).run (c.sending log)) := by
  obtain ⟨line, command, project, read, asked, sheet, named, same⟩ := evaluates.asks
  obtain ⟨config, loaded, enabled, tail, size⟩ := evaluates.configured
  rw [← same] at loaded
  have opened := run_openProject loaded tail
  rw [enabled, if_pos rfl, same] at opened
  have opens (rest : Sheet → Action Unit) :
      (openSheet (some file) config >>= rest).run (c.sending log) =
        (loadSheet file rows cols >>= rest).run (c.sending log) := by
    rw [run_bind, run_bind, run_openSheet size]
  rw [runLine_eq read asked]
  cases command with
  | eval tokens sheet project' json =>
      cases sheet
      cases named
      unfold run runEval
      rw [run_bind_ok opened]
      exact ⟨_, congrArg Outcome.ofRun (opens _)⟩
  | cell label sheet project' json =>
      cases sheet
      cases named
      unfold run runCell
      rw [run_bind_ok opened]
      exact ⟨_, congrArg Outcome.ofRun (opens _)⟩
  | _ => cases sheet

/-- An event that is emitted is added to the log if that can be done. -/
theorem emits_emit (event : Text → Journal.Event) (sends : c.emitter.log = some log)
    (storable : (event c.time).Storable) :
    Emits (some log) (event c.time) c.files ((emit event).run c).2.files ∧
      ((∃ any, ((log.append any).run c.files).1 = .ok ()) →
        AddsLine log (event c.time) c.files ((emit event).run c).2.files) := by
  have emits := c.emitter.emits c.files (event c.time)
  rw [sends] at emits
  refine ⟨emits, ?_⟩
  rintro ⟨any, added⟩
  cases emits with
  | added _ line => exact line
  | failed ran _ =>
      have appended := (Journal.append_alike log any (event c.time) c.files).mp added
      rw [Log.run_write, Json.isWritable_iff.mpr storable.fits, if_pos rfl, appended] at ran
      cases ran

/-- A command refuses what is refused when the sheet is loaded. -/
theorem refuses_of_refusal {e : LoadError} (evaluates : Evaluates args file log rows cols c)
    (loaded : Sheet.load c.files (.ofText file) rows cols = .error e) (refusal : e.IsRefusal) :
    Refuses c file log e (runLine args c) := by
  obtain ⟨rest, ran⟩ := run_evaluates evaluates
  have sending : (c.sending log).emitter.log = some log := rfl
  have refused := run_loadSheet_refused (c := c.sending log) loaded refusal
  have emitted := emits_emit (fun time => invalidSheet time file e) sending
    (Journal.Event.storable_sheetFailed _ _ _ _)
  obtain ⟨d, said, out, err⟩ := emit_ok (fun time => invalidSheet time file e) (c.sending log)
  rw [said] at refused emitted
  rw [ran, run_bind_error refused]
  refine ⟨rfl, rfl, out, ⟨d.held, ?_⟩, emitted.1, emitted.2⟩
  have before : d.err = c.err := err
  simp only [Outcome.stderr, Outcome.ofRun, Console.told, Option.map_some, Option.getD_some,
    Program.remark, String.append_empty, before]

/-- A command breaks off where the sheet is neither loaded nor refused. -/
theorem breaksOff_of_trips {e : LoadError} {text : List Char}
    (evaluates : Evaluates args file log rows cols c)
    (holds : c.files.Holds (.ofText file) (Text.Utf8.encode text))
    (loaded : Sheet.load c.files (.ofText file) rows cols = .error e) (unrefused : ¬ e.IsRefusal) :
    BreaksOff c e (runLine args c) := by
  obtain ⟨rest, ran⟩ := run_evaluates evaluates
  have broken := run_loadSheet_tripped (c := c.sending log) loaded unrefused
    (Sheet.load_ne_notFound holds loaded)
  rw [run_bind_error broken] at ran
  rw [ran]
  exact ⟨rfl, rfl, rfl, rfl, rfl⟩

end

/-- **Sheet files are refused, but for the texts that trip.** From a file that can be read, and with
whatever sizes beside it, a sheet is loaded or refused exactly if the text does not trip. A command
that evaluates something on a sheet file which is refused adds one event to the log that says so,
prints what is wrong, and ends with the exit code one. Over a text that trips it breaks off: no
event is added and nothing is printed. -/
theorem sheet_refused_or_trips {fs : Files} {path : Path} {text : List Char}
    (holds : fs.Holds path (Text.Utf8.encode text)) (rows cols : Int) :
    (((∃ s, Sheet.load fs path rows cols = .ok s) ∨
        ∃ e, Sheet.load fs path rows cols = .error e ∧ e.IsRefusal) ↔ ¬ Trips text rows cols) ∧
    ∀ (args : List Text) (c : Console) (file : Text) (log : Log) (e : LoadError),
      c.files = fs → .ofText file = path → Evaluates args file log rows cols c →
      Sheet.load fs path rows cols = .error e →
      (¬ Trips text rows cols → Refuses c file log e (runLine args c)) ∧
        (Trips text rows cols → BreaksOff c e (runLine args c)) := by
  have trips_iff := Sheet.load_trips_iff holds rows cols
  constructor
  · rw [← trips_iff]
    cases Sheet.load fs path rows cols <;> simp
  · rintro args c file log e rfl rfl evaluates loaded
    constructor
    · intro whole
      refine refuses_of_refusal evaluates loaded ?_
      by_contra unrefused
      exact whole (trips_iff.mp ⟨e, loaded, unrefused⟩)
    · intro trips
      obtain ⟨e', failed, unrefused⟩ := trips_iff.mpr trips
      cases loaded.symm.trans failed
      exact breaksOff_of_trips evaluates holds loaded unrefused

/-! ## Two files -/

/-- A number without a mapping around it. -/
def bareNumber : List Char := "5\n".toList

theorem read_bareNumber : Yaml.read (Text.unifyBreaks bareNumber) = .ok (.int 5) := by
  have parsed : Yaml.Node.ofText? (Text.unifyBreaks (Text.unifyBreaks bareNumber)) =
      .ok (some (.plain "5".toList)) := by
    decide +kernel
  exact Yaml.read_of_node parsed (by decide +kernel) rfl

/-- A count of rows for which nothing is given. -/
def noCount : List Char := "n_rows: null\n".toList

theorem read_noCount :
    Yaml.read (Text.unifyBreaks noCount) = .ok (.mapping [(.text "n_rows", .null)]) := by
  have parsed : Yaml.Node.ofText? (Text.unifyBreaks (Text.unifyBreaks noCount)) =
      .ok (some (.mapping [(.plain "n_rows".toList, .plain "null".toList)])) := by
    decide +kernel
  exact Yaml.read_of_node parsed (by decide +kernel) rfl

theorem trips_noCount : Trips noCount 100 26 :=
  .spec read_noCount (.rows rfl trivial)

theorem evaluates_shelf (text : List Char) (label time : Text) :
    Evaluates (evalLine [label] "sheet.yaml" none false) "sheet.yaml"
      { project := .ofText ".", tail := 2097152 } 100 26 { files := shelf text, time } := by
  have found : Found (shelf text) "sheet.yaml" none := ⟨by rfl, fun _ absurd => nomatch absurd⟩
  exact ⟨⟨_, _, defaultProject, read_evalLine [label] "sheet.yaml" none false,
    command_eval false found [label], rfl, rfl, rfl⟩,
    Config.default, by rfl, by rfl, by rfl, by rfl⟩

theorem load_bareNumber : Sheet.load (shelf bareNumber) (.ofText "sheet.yaml") 100 26 =
    .error (.notMapping (.ofText "sheet.yaml")) := by
  rw [Sheet.load_eq (holds_shelf bareNumber), read_bareNumber]
  rfl

theorem load_noCount : Sheet.load (shelf noCount) (.ofText "sheet.yaml") 100 26 =
    .error (.badSpec (.badCount (.wrongKind "NoneType"))) := by
  rw [Sheet.load_eq (holds_shelf noCount), read_noCount]
  rfl

/-- A number is refused as a sheet, for which a line is added to the log. Over a count of rows for
which nothing is given a command breaks off. -/
theorem sheet_refused_or_trips_shelf :
    let time : Text := "2024-01-02T03:04:05.000006Z"
    let log : Log := { project := .ofText ".", tail := 2097152 }
    let refused : Console := { files := shelf bareNumber, time }
    let tripped : Console := { files := shelf noCount, time }
    let line := evalLine ["A1"] "sheet.yaml" none false
    (∃ e, Sheet.load refused.files (.ofText "sheet.yaml") 100 26 = .error e ∧
      Refuses refused "sheet.yaml" log e (runLine line refused) ∧
      AddsLine log (invalidSheet time "sheet.yaml" e) refused.files
        (runLine line refused).console.files) ∧
    ∃ e, Sheet.load tripped.files (.ofText "sheet.yaml") 100 26 = .error e ∧
      BreaksOff tripped e (runLine line tripped) := by
  intro time log refused tripped line
  obtain ⟨meets_iff, over_number⟩ := sheet_refused_or_trips (holds_shelf bareNumber) 100 26
  obtain ⟨_, over_count⟩ := sheet_refused_or_trips (holds_shelf noCount) 100 26
  have whole : ¬ Trips bareNumber 100 26 := meets_iff.mp (.inr ⟨_, load_bareNumber, trivial⟩)
  have refuses := (over_number line refused "sheet.yaml" log _ rfl rfl (evaluates_shelf _ _ _)
    load_bareNumber).1 whole
  have breaks := (over_count line tripped "sheet.yaml" log _ rfl rfl (evaluates_shelf _ _ _)
    load_noCount).2 trips_noCount
  refine ⟨⟨_, load_bareNumber, refuses, refuses.logs ?_⟩, _, load_noCount, breaks⟩
  exact ⟨invalidSheet time "sheet.yaml" (.notMapping (.ofText "sheet.yaml")), by rfl⟩

/-- A sheet file that gives nothing for its count of rows is not loaded and not refused, and the
command that evaluates something on it adds no event. -/
theorem null_count_breaks_off :
    let c : Console := { files := shelf noCount, time := "2024-01-02T03:04:05.000006Z" }
    let done := runLine (evalLine ["A1"] "sheet.yaml" none false) c
    ∃ e, Sheet.load c.files (.ofText "sheet.yaml") 100 26 = .error e ∧ ¬ e.IsRefusal ∧
      done.stop = some (.broken (.sheet e)) ∧ done.console.files = c.files := by
  intro c done
  have unrefused : ¬ (LoadError.badSpec (.badCount (.wrongKind "NoneType"))).IsRefusal :=
    fun refusal => refusal.2 _ rfl
  have breaks : BreaksOff c _ done :=
    breaksOff_of_trips (evaluates_shelf noCount "A1" _) (holds_shelf _) load_noCount unrefused
  exact ⟨_, load_noCount, unrefused, breaks.stop, breaks.files⟩

end SheetCalc.Command
