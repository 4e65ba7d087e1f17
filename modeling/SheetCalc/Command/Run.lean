import SheetCalc.Command.Console
import SheetCalc.Command.Line
import SheetCalc.Value.Order

/-!
# Running commands

`Command.run` runs a command on a console, and `Outcome.exitCode` says how it ended. An evaluation
is emitted as an event before it is shown; a sheet that is loaded, or is not, is an event too.
-/

namespace SheetCalc.Command

/-- What the program calls itself, and its version. -/
def versionText : Text := "calc123, version 0.1.0"

/-! ## Projects and sheets -/

/-- Loads the configuration of a project and sends events to its journal. -/
def openProject (directory : Text) : Action Config := do
  let c ← get
  let project := Path.ofText directory
  match Config.load c.files project with
  | .error e =>
    match e with
    | .unreadable _ | .badDocument .malformed | .badDocument .tooDeep
    | .badDocument .codeTooLarge =>
      stop (.broken (.config e))
    | _ => report e.message
  | .ok config =>
    let emitter ← orFault .setting (c.emitter.attach project config)
    modify fun c => { c with emitter }
    return config

/-- A setting that has to be an integer. -/
def intSetting (config : Config) (name : String) : Action Int :=
  orFault .setting ((config.setting? name).getD .null).toInt

/-- Emits that a sheet was not loaded, and reports it. -/
def sheetFailure {α : Type} (path message code : Text) : Action α := do
  emit fun time => Journal.Event.ofSheet time path none message (some code)
  report message

/-- Loads a sheet from a file. -/
def loadSheet (path : Text) (rows cols : Int) : Action Sheet := do
  match Sheet.load (← get).files (Path.ofText path) rows cols with
  | .ok sheet =>
    emit fun time => Journal.Event.ofSheet time path (some sheet.labels.length) {} none
    return sheet
  | .error e =>
    match e with
    | .notFound _ => sheetFailure path e.message Journal.Event.sheetNotFound
    | .unreadable _ | .badScalar .tooDeep | .badScalar .codeTooLarge | .badSpec .valueTooLarge
    | .badSpec (.badCount .infinite) | .badSpec (.badCount (.wrongKind _)) =>
      stop (.broken (.sheet e))
    | _ => sheetFailure path e.message Journal.Event.sheetInvalid

/-- The sheet that a command works on: from a file, or one without cells. -/
def openSheet (path : Option Text) (config : Config) : Action Sheet := do
  let rows ← intSetting config "sheet_rows"
  let cols ← intSetting config "sheet_cols"
  match path with
  | some path => loadSheet path rows cols
  | none => orFault .size (Sheet.ofSize rows cols)

/-! ## Evaluations -/

/-- An evaluation as a mapping. -/
def outcomeValue (tokens : List Text) (ev : Formula.Evaluator) (label : Option Text) : Value :=
  let about : Entries Key Value := match label with
    | none => []
    | some label => [(.text "label", .text label)]
  .mapping
    ([(.text "tokens", .list (tokens.map .text)), (.text "result", Journal.Event.logged ev.result),
      (.text "error", .text ev.error)] ++ about)

/-- Shows the result of an evaluation that has no error. -/
def showResult (config : Config) (result : Formula.Result) : Action Unit := do
  let precision ← intSetting config "display_precision"
  print (← orFault .precision (displayText result.toValue {} precision))

/-- Emits and shows how an evaluation came out, and ends the command if it has an error. -/
def showOutcome (tokens : List Text) (ev : Formula.Evaluator) (config : Config) (json : Bool)
    (label : Option Text) : Action Unit := do
  emit fun time => Journal.Event.ofOutcome time tokens ev.result ev.error label
  if json then print (.ofChars (Json.indentedText (outcomeValue tokens ev label)))
  else if !ev.error.isEmpty then printError ("Error: " ++ ev.error)
  else showResult config ev.result
  if !ev.error.isEmpty then stop .failed

/-- Evaluates a formula. -/
def runEval (tokens : List Text) (sheet : Option Text) (project : Text) (json : Bool) :
    Action Unit := do
  let config ← openProject project
  let sheet ← openSheet sheet config
  let done := Formula.evaluate Sheet.resolver tokens sheet
  showOutcome tokens done.evaluator config json none

/-- Evaluates a cell. -/
def runCell (label sheet project : Text) (json : Bool) : Action Unit := do
  let config ← openProject project
  let sheet ← openSheet (some sheet) config
  match sheet.cell label with
  | .error e => report e.message
  | .ok (found, sheet) =>
    match sheet.evaluateCell label {} with
    | .error e => report e.message
    | .ok (ev, _) => showOutcome found.formula ev config json (some label)

/-! ## Configurations -/

/-- Writes a new configuration. -/
def runInit (directory : Text) : Action Unit := do
  let (written, files) := (Config.writeDefault (Path.ofText directory)).run (← get).files
  modify fun c => { c with files }
  match written with
  | .ok path => print ("Created " ++ path.text)
  | .error e =>
    match e with
    | .alreadyThere _ | .unwritable (.alreadyThere _) => report e.message
    | e => stop (.broken (.write e))

/-! ## Events -/

/-- A text filled up with spaces behind it. -/
def padded (width : Nat) (t : Text) : Text :=
  t ++ .ofChars (List.replicate (width - t.length) ' ')

/-- A number filled up with spaces in front of it. -/
def aligned (width : Nat) (n : Nat) : Text :=
  let t : Text := Decimal.natText n
  .ofChars (List.replicate (width - t.length) ' ') ++ t

/-- A text in a column of a given width. -/
def column (width : Nat) : Value → Action Text
  | .text s => pure (padded width s)
  | v => stop (.broken (.notText v))

/-- The field of an event, empty if it is not there. -/
def eventField (name : String) (e : Value) : Action Value := do
  return (← orFault .log (Journal.fieldOf name e)).getD (.text {})

/-- Shows an event on a line. -/
def showEvent (e : Value) : Action Unit := do
  let time := (← eventField "ts" e).asText
  let level ← column 7 (← eventField "level" e)
  let type ← column 18 (← eventField "event_type" e)
  let message := (← eventField "message" e).asText
  print (time ++ "  " ++ level ++ " " ++ type ++ " " ++ message)

/-- Shows how often evaluations came out in which way. -/
def showTally (counts : Entries Key Nat) (json : Bool) : Action Unit := do
  if json then
    match Key.sorted? counts with
    | none => stop (.broken .mixedCodes)
    | some counts =>
      print (.ofChars (Json.indentedText (.mapping (counts.map fun (k, n) => (k, .int n)))))
  else if counts.isEmpty then print "No evaluations."
  else
    for (code, n) in counts.mergeSort fun a b => b.2 ≤ a.2 do
      print (aligned 6 n ++ "  " ++ code.asText)

/-- Shows events. -/
def showEvents (events : List Value) (json : Bool) : Action Unit := do
  if json then print (.ofChars (Json.indentedText (.list events)))
  else if events.isEmpty then print "No events."
  else
    for e in events do
      showEvent e

/-- Shows the events in the journal of a project, or counts them. -/
def runEvents (project : Text) (filter : Journal.Filter) (limit : Int) (summary json : Bool) :
    Action Unit := do
  let config ← openProject project
  let tail ← orFault .setting (Journal.tailOf config)
  let log : Journal.Log := { project := Path.ofText project, tail }
  let files := (← get).files
  if summary then showTally (← orFault .log (Journal.tally log files)) json
  else showEvents (← orFault .log (Journal.select log files filter limit)) json

/-! ## Command lines -/

/-- Runs a command. -/
def run : Command → Action Unit
  | .version => print versionText
  | .eval tokens sheet project json => runEval tokens sheet project json
  | .cell label sheet project json => runCell label sheet project json
  | .init directory => runInit directory
  | .events project filter limit summary json => runEvents project filter limit summary json

/-- How a command ended, and the console after it. -/
structure Outcome where
  stop : Option Stop
  console : Console

/-- Runs a command line. -/
def runLine (args : List Text) (c : Console) : Outcome :=
  match (Line.read? args).elim (.error .usage) (Line.command c.files) with
  | .error .usage => ⟨some .usage, c⟩
  | .error (.noPath e) => ⟨some (.broken (.path e)), c⟩
  | .ok command =>
    match (run command).run c with
    | (.ok (), c) => ⟨none, c⟩
    | (.error s, c) => ⟨some s, c⟩

/-- The exit code of a command: two if it was not used as it should be, one if it ended early for
any other reason. -/
def Outcome.exitCode (o : Outcome) : UInt32 :=
  match o.stop with
  | none => 0
  | some .usage => 2
  | some _ => 1

end SheetCalc.Command
