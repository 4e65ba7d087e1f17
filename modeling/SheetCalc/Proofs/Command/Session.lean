import SheetCalc.Proofs.Command.Logging

/-!
# Sessions

A session in a project is a row of command lines that evaluate something or show the events, one
behind the other (`Session`). What comes to an evaluation is in the log afterwards, and nothing else
is that counts (`Run.counts` for one of them, `counts_session` for all).
-/

namespace SheetCalc.Command

open Procedure (run_bind run_bind_ok run_bind_error)
open Journal (Log)
open Journal.Event (outcomeName)

/-! ## What a command comes to -/

/-- The project that a command evaluates in, or shows the events of. -/
def project? : Command → Option Text
  | .eval _ _ project _ | .cell _ _ project _ | .events project _ _ _ _ => some project
  | .version | .init _ => none

/-- The file of the sheet that a command works on. -/
def sheet? : Command → Option Text
  | .eval _ sheet _ _ => sheet
  | .cell _ sheet _ _ => some sheet
  | _ => none

/-- The evaluation that a command comes to. It comes to none if the sheet is not loaded or the label
names no cell of it. -/
def evaluation? (fs : Files) (config : Config) : Command → Option Formula.Evaluator
  | .eval tokens sheet _ _ =>
    (sheetOf? fs config sheet).bind fun s =>
      some (Formula.evaluate Sheet.resolver tokens s).evaluator
  | .cell label sheet _ _ =>
    (sheetOf? fs config (some sheet)).bind fun s =>
      (s.evaluateCell label {}).toOption.map (·.1)
  | _ => none

/-- What a command leaves that comes to an evaluation or to none: the log counts it, and the command
ends as its error says. -/
structure Finishes (log : Log) (ev? : Option Formula.Evaluator) (c : Console)
    (done : Except Stop Unit × Console) : Prop where
  logs : Logs log (ev?.toList.map fun ev => outcomeName ev.error) c done.2
  ending : ∀ ev, ev? = some ev →
    done.1 = if ev.error.isEmpty then .ok () else .error .failed

theorem Quiet.finishes {a : Action Unit} (quiet : Quiet a) (log : Log) (c : Console) :
    Finishes log none c (a.run c) :=
  ⟨quiet.logs log c, nofun⟩

section

variable {log : Log} {c : Console} {config : Config}

/-- What is done with the sheet of a command comes to what it comes to with the sheet that is
loaded. -/
theorem finishes_openSheet (sends : c.emitter.log = some log) (formed : WellFormed config)
    (path : Option Text)
    (countable : ∀ file s, path = some file → sheetOf? c.files config path = some s →
      Decimal.isWritable s.labels.length = true)
    {f : Sheet → Action Unit} {g : Sheet → Option Formula.Evaluator}
    (goes_on : ∀ s d, d.emitter.log = some log → Finishes log (g s) d ((f s).run d)) :
    Finishes log ((sheetOf? c.files config path).bind g) c
      ((openSheet path config >>= f).run c) := by
  obtain ⟨opened, logs⟩ := logs_openSheet sends formed.size path countable
  rw [run_bind, ← opened]
  generalize (openSheet path config).run c = first at logs ⊢
  obtain ⟨_ | s, d⟩ := first
  · exact ⟨logs, nofun⟩
  · obtain ⟨more, ending⟩ := goes_on s d (logs.emitter.trans sends)
    exact ⟨logs.trans more, ending⟩

theorem finishes_showOutcome (sends : c.emitter.log = some log) (formed : WellFormed config)
    (tokens : List Text) (ev : Formula.Evaluator) (json : Bool) (label : Option Text) :
    Finishes log (some ev) c ((showOutcome tokens ev config json label).run c) := by
  obtain ⟨ending, logs⟩ := logs_showOutcome sends formed tokens ev json label
  refine ⟨logs, ?_⟩
  intro _ same
  rw [← Option.some.inj same]
  exact ending

/-- What is done with a sheet to evaluate a cell of it. -/
theorem finishes_cell (sends : c.emitter.log = some log) (formed : WellFormed config) (s : Sheet)
    (label : Text) (json : Bool) :
    Finishes log ((s.evaluateCell label {}).toOption.map (·.1)) c
      ((showCell s label config json).run c) := by
  unfold showCell
  cases s.evaluateCell label {} with
  | error e => exact (quiet_report e.message).finishes log c
  | ok evaluated => exact finishes_showOutcome sends formed _ _ json (some label)

end

/-! ## Runs -/

/-- A console from which events go to a log. -/
def Console.sending (c : Console) (log : Log) : Console :=
  { c with emitter := { c.emitter with log := some log } }

/-- A command line is run that asks for an evaluation in a project or for its events, where the
configuration is well-formed and the numbers in the events can be written. -/
structure Run (directory : Path) (config : Config) (args : List Text) (command : Command)
    (c : Console) : Prop where
  line : ∃ line, Line.read? args = some line ∧ Line.command c.files line = .ok command
  project : ∃ project, project? command = some project ∧ Path.ofText project = directory
  calm : c.emitter.warned = false
  configured : Config.load c.files directory = .ok config
  formed : WellFormed config
  countable : ∀ file s, sheet? command = some file →
    sheetOf? c.files config (sheet? command) = some s → Decimal.isWritable s.labels.length = true

section

variable {directory : Path} {config : Config} {args : List Text} {command : Command} {c : Console}

theorem Run.runLine_eq (r : Run directory config args command c) :
    runLine args c = .ofRun ((run command).run c) := by
  obtain ⟨line, read, asked⟩ := r.line
  exact Command.runLine_eq read asked

/-- Where the events of a run go. -/
theorem Run.opens (r : Run directory config args command c) :
    ∃ tail, Journal.tailOf config = .ok tail ∧ ∀ project, project? command = some project →
      (openProject project).run c = (.ok config, c.sending { project := directory, tail }) := by
  obtain ⟨project, asked, same⟩ := r.project
  obtain ⟨tail, sound⟩ := r.formed.tail
  refine ⟨tail, sound, ?_⟩
  intro other named
  obtain rfl : other = project := Option.some.inj (named.symm.trans asked)
  have loaded : Config.load c.files (.ofText other) = .ok config := same ▸ r.configured
  have opened := run_openProject loaded sound
  rw [r.formed.enabled, if_pos rfl, same] at opened
  exact opened

/-- **What a run does to the log**, and how it ends. -/
theorem Run.finishes (r : Run directory config args command c) :
    ∃ tail, Journal.tailOf config = .ok tail ∧
      Finishes { project := directory, tail } (evaluation? c.files config command)
        (c.sending { project := directory, tail }) ((run command).run c) := by
  obtain ⟨tail, sound, opens⟩ := r.opens
  refine ⟨tail, sound, ?_⟩
  have countable := r.countable
  cases command with
  | eval tokens sheet project json =>
      unfold run runEval
      rw [run_bind_ok (opens project rfl)]
      exact finishes_openSheet (c := c.sending _) rfl r.formed sheet countable fun s d sends =>
        finishes_showOutcome sends r.formed tokens _ json none
  | cell label sheet project json =>
      simp only [run]
      rw [runCell_eq, run_bind_ok (opens project rfl)]
      exact finishes_openSheet (c := c.sending _) rfl r.formed (some sheet) countable
        fun s d sends =>
        finishes_cell sends r.formed s label json
  | events project filter limit summary json =>
      unfold run runEvents
      rw [run_bind_ok (opens project rfl)]
      refine Quiet.finishes ?_ _ _
      refine (quiet_orFault _ _).bind fun tail => quiet_get.bind fun d => ?_
      split
      · exact (quiet_orFault _ _).bind fun counts => quiet_ofShowing.showTally counts json
      · exact (quiet_orFault _ _).bind fun events => quiet_ofShowing.showEvents events json
  | version =>
      obtain ⟨_, none_named, _⟩ := r.project
      cases none_named
  | init directory =>
      obtain ⟨_, none_named, _⟩ := r.project
      cases none_named

/-- A run that goes well adds the name of its error to what the log counts, if it comes to an
evaluation. -/
theorem Run.counts (r : Run directory config args command c)
    (calm : (runLine args c).console.emitter.warned = false) {names : List Text}
    (before : Log.Counts { project := directory } names c.files) :
    Log.Counts { project := directory }
      (names ++ (evaluation? c.files config command).toList.map fun ev => outcomeName ev.error)
      (runLine args c).console.files := by
  obtain ⟨tail, _, finishes⟩ := r.finishes
  rw [r.runLine_eq] at calm ⊢
  -- How much of a log is read makes no difference to what is in it.
  exact finishes.logs.counts calm names before

/-- A run that comes to an evaluation succeeds exactly if there is no error. -/
theorem Run.exitCode (r : Run directory config args command c) {ev : Formula.Evaluator}
    (evaluates : evaluation? c.files config command = some ev) :
    (runLine args c).exitCode = 0 ↔ ev.error.isEmpty = true := by
  obtain ⟨tail, _, finishes⟩ := r.finishes
  have ending := finishes.ending ev evaluates
  rw [r.runLine_eq]
  unfold Outcome.ofRun Outcome.exitCode
  simp only [ending]
  cases ev.error.isEmpty <;> simp

end

/-! ## Sessions -/

/-- The log of a project is left alone: it reads the same, also when its directory has been made. -/
structure Spares (log : Log) (fs after : Files) : Prop where
  read : after.read log.path = fs.read log.path
  ready : ((FileChange.makeDirs log.dir).run after).2.read log.path =
    ((FileChange.makeDirs log.dir).run fs).2.read log.path

/-- A command line that is refused before anything is done, as it asks for no command. -/
def Refused (args : List Text) (fs : Files) : Prop :=
  ∀ line command, Line.read? args = some line → Line.command fs line ≠ .ok command

theorem runLine_refused {args : List Text} {c : Console} (refused : Refused args c.files) :
    (runLine args c).console = c := by
  unfold runLine
  cases read : Line.read? args with
  | none => rfl
  | some line =>
      rw [Option.elim_some]
      cases asked : Line.command c.files line with
      | ok command => exact absurd asked (refused line command read)
      | error e => cases e <;> rfl

/-- A session in a project that had no log: runs by which all events are written, command lines that
are refused, and between them changes of other files. The errors are those of the evaluations that
the runs came to. -/
inductive Session (directory : Path) : List Text → Files → Prop
  | fresh {fs} : Log.Fresh { project := directory } fs → Session directory [] fs
  | elsewhere {errors fs after} : Session directory errors fs →
      Spares { project := directory } fs after → Session directory errors after
  | refused {errors args c} : Session directory errors c.files → Refused args c.files →
      Session directory errors (runLine args c).console.files
  | run {errors config args command c} : Session directory errors c.files →
      Run directory config args command c →
      (runLine args c).console.emitter.warned = false →
      Session directory
        (errors ++ (evaluation? c.files config command).toList.map (·.error))
        (runLine args c).console.files

theorem Spares.counts {log : Log} {fs after : Files} (spares : Spares log fs after)
    {names : List Text} (counts : log.Counts names fs) : log.Counts names after := by
  obtain ⟨events, lists, storable, same⟩ := counts
  refine ⟨events, ?_, storable, same⟩
  rcases lists with holds | ⟨rfl, none_there, none_made⟩
  · exact .inl (Files.holds_of_read (spares.read.trans holds.read))
  · exact .inr ⟨rfl, spares.read.trans none_there, spares.ready.trans none_made⟩

/-- **After a session the log counts as the names of its errors.** -/
theorem counts_session {directory : Path} {errors : List Text} {fs : Files}
    (session : Session directory errors fs) :
    Log.Counts { project := directory } (errors.map outcomeName) fs := by
  induction session with
  | fresh fresh => exact Log.counts_fresh fresh
  | elsewhere _ spares ih => exact spares.counts ih
  | refused _ refused ih =>
      rw [runLine_refused refused]
      exact ih
  | run _ r calm ih =>
      have counts := r.counts calm ih
      rw [List.map_append, List.map_map]
      exact counts

end SheetCalc.Command
