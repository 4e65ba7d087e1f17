import SheetCalc.Cell
import SheetCalc.Journal.Emitter
import SheetCalc.Sheet.File
import SheetCalc.Text.Control

/-!
# The console

A command works on files, emits events and prints. It ends early if it is not used as it should be,
if it has reported what is wrong, or if something is wrong that it does not report (`Fault`).
-/

namespace SheetCalc.Command

/-- What is wrong when a command breaks off without a report. -/
inductive Fault where
  | path (e : FileError)
  | config (e : ConfigError)
  | setting (e : ConversionError)
  | size (e : SizeError)
  | sheet (e : LoadError)
  | precision (e : PrecisionError)
  | log (e : Journal.LogError)
  | write (e : WriteError)
  /-- A value stands in a column of texts. -/
  | notText (v : Value)
  /-- The codes of errors are not all texts or all numbers. -/
  | mixedCodes
  /-- A text that is printed holds half of a pair. -/
  | unprintable
  deriving Inhabited

/-- What is said when a command breaks off. -/
def Fault.message : Fault → Text
  | .path _ => "there is no such path"
  | .config e => e.message
  | .setting e => e.message
  | .size e => e.message
  | .sheet e => e.message
  | .precision e => "no value is shown with " ++ Decimal.intText e.precision ++ " digits"
  | .log _ => "the journal cannot be read"
  | .write e => e.message
  | .notText v => "an event has the value " ++ v.quoted ++ " where a text is wanted"
  | .mixedCodes => "the codes of errors have no order"
  | .unprintable => "half of a pair cannot be printed"

/-- Why a command ends early. -/
inductive Stop where
  | usage
  | reported (message : Text)
  /-- The evaluation has an error, which is shown. -/
  | failed
  | broken (f : Fault)
  deriving Inhabited

/-- What a command works on: the files, the emitter and the time, and what it has printed. A warning
is held back until something is wrong. -/
structure Console where
  files : Files
  emitter : Journal.Emitter := {}
  time : Text
  out : String := ""
  err : String := ""
  held : String := ""
  deriving Inhabited

/-- A part of a command. -/
abbrev Action := ExceptT Stop (StateM Console)

/-- Ends a command early. -/
def stop {α : Type} (s : Stop) : Action α :=
  throw s

/-- Goes on with a result, or breaks off. -/
def orFault {ε α : Type} (fault : ε → Fault) : Except ε α → Action α
  | .ok a => pure a
  | .error e => stop (.broken (fault e))

/-- Prints a line. It has to be made up of characters. -/
def print (t : Text) : Action Unit := do
  match t.withoutControls.toString? with
  | some s => modify fun c => { c with out := c.out ++ s ++ "\n" }
  | none => stop (.broken .unprintable)

/-- Prints a line about what is wrong, behind the warnings that are held back. -/
def printError (t : Text) : Action Unit :=
  modify fun c =>
    { c with err := c.err ++ c.held ++ t.withoutControls.escapingHalves ++ "\n", held := "" }

/-- Reports what is wrong and ends the command. -/
def report {α : Type} (message : Text) : Action α := do
  printError ("Error: " ++ message)
  stop (.reported message)

/-- The warning that events are lost. -/
def lostEvents : String := "[calc123] event logging failed:"

/-- Emits an event. -/
def emit (e : Text → Journal.Event) : Action Unit := do
  let c ← get
  let done := c.emitter.emit c.files (e c.time)
  let held := if done.warns then c.held ++ lostEvents ++ "\n" else c.held
  set { c with files := done.files, emitter := done.emitter, held }

end SheetCalc.Command
