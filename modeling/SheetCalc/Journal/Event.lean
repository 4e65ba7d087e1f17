import SheetCalc.Entries
import SheetCalc.Formula.Evaluation
import SheetCalc.Journal.Trim
import SheetCalc.Value.Text

/-!
# Events

The journal holds an event for each evaluation and each loading of a sheet. Its context says what
the event is about: it is trimmed when the event is made (`Event.complete`), and if a key is missing
that events of this type need, the event is kept as a warning that names it.
-/

namespace SheetCalc.Journal

/-- How grave an event is. -/
inductive Level where
  | info
  | warning
  | error
  deriving DecidableEq, Repr, Inhabited

/-- What an event is about. -/
inductive EventType where
  | formulaEvaluated
  | formulaFailed
  | cellEvaluated
  | cellFailed
  | sheetLoaded
  | sheetLoadFailed
  deriving DecidableEq, Repr, Inhabited

/-- The name of a level. -/
def Level.name : Level → String
  | .info => "info"
  | .warning => "warning"
  | .error => "error"

/-- The level with a given name. -/
def Level.ofName? (t : Text) : Option Level :=
  [info, warning, error].find? fun l => t == l.name

namespace EventType

/-- The name of a type of events. -/
def name : EventType → String
  | .formulaEvaluated => "formula_evaluated"
  | .formulaFailed => "formula_failed"
  | .cellEvaluated => "cell_evaluated"
  | .cellFailed => "cell_failed"
  | .sheetLoaded => "sheet_loaded"
  | .sheetLoadFailed => "sheet_load_failed"

/-- The types of events that say how an evaluation came out. -/
def outcomes : List EventType :=
  [.formulaEvaluated, .formulaFailed, .cellEvaluated, .cellFailed]

/-- All types of events. -/
def all : List EventType :=
  outcomes ++ [EventType.sheetLoaded, EventType.sheetLoadFailed]

/-- The type of events with a given name. -/
def ofName? (t : Text) : Option EventType :=
  all.find? fun e => t == e.name

/-- The keys that the context of an event needs. -/
def required : EventType → List String
  | .formulaEvaluated | .formulaFailed => ["tokens"]
  | .cellEvaluated | .cellFailed => ["label", "tokens"]
  | .sheetLoaded | .sheetLoadFailed => ["sheet_path"]

end EventType

/-- What an event is about, under names. -/
abbrev Context := Entries Key Value

/-- An event. -/
structure Event where
  version : Int := 1
  time : Text
  level : Level
  type : EventType
  context : Context := []
  message : Text := {}
  code : Option Text := none
  deriving Inhabited

namespace Event

/-- The key under which a context names the keys that it lacks. -/
def missingKey : Key := .text "_missing_attribution"

/-- The keys that a context lacks for events of a type. -/
def missing (type : EventType) (context : Context) : List String :=
  type.required.filter fun name => !context.has (.text name)

/-- The event with its context trimmed. An event that lacks a key is a warning. -/
def complete (e : Event) : Event :=
  let context := trimEntries e.context
  match missing e.type context with
  | [] => { e with context }
  | names =>
    let items := names.map fun name : String => Value.text name
    { e with level := .warning, context := Entries.put missingKey (.list items) context }

/-! ## Evaluations -/

/-- The result of an evaluation as events hold it: one that is not finite is given by its name. -/
def logged : Formula.Result → Value
  | .blank => .int 0
  | .number x => if x.isFinite then .float x else .text (Decimal.floatText x)

/-- The event that says how an evaluation came out, of a cell if there is a label. The result is
given as it is and as events hold it. -/
def evaluated (time : Text) (tokens : List Text) (result logged : Value) (error : Text)
    (label : Option Text) : Event :=
  let failed := !error.isEmpty
  let subject : Text := match label with
    | none => "formula"
    | some label => "cell " ++ label
  let about : Context := match label with
    | none => []
    | some label => [(.text "label", .text label)]
  complete
    { time
      level := if failed then .error else .info
      type := match label with
        | none => if failed then .formulaFailed else .formulaEvaluated
        | some _ => if failed then .cellFailed else .cellEvaluated
      context :=
        [(.text "tokens", .list (tokens.map .text)), (.text "result", logged)] ++ about
      message := if failed then subject ++ " failed: " ++ error
        else subject ++ " = " ++ result.asText
      code := if failed then some error else none }

/-- The event that says how an evaluation came out, of a cell if there is a label. -/
def ofOutcome (time : Text) (tokens : List Text) (result : Formula.Result) (error : Text)
    (label : Option Text) : Event :=
  evaluated time tokens result.toValue (logged result) error label

/-- A number of any kind as events hold it. -/
def loggedValue : Value → Except ConversionError Value
  | .bool b => .ok (.bool b)
  | .int n => (floatOfInt n).map fun _ => .int n
  | .float x => .ok (logged (.number x))
  | v => .error (.wrongKind v.kindName)

/-- The event that says how an evaluation came out whose result is given as a value. -/
def ofValue (time : Text) (tokens : List Text) (result : Value) (error : Text)
    (label : Option Text) : Except ConversionError Event :=
  (loggedValue result).map fun logged => evaluated time tokens result logged error label

/-! ## Sheets -/

/-- The code of a sheet that is not there. -/
def sheetNotFound : Text := "sheet_not_found"

/-- The code of a sheet that cannot be used. -/
def sheetInvalid : Text := "sheet_invalid"

/-- The event that says that a sheet was loaded, and with how many cells. -/
def sheetLoaded (time path : Text) (cells : Option Int) : Event :=
  let count : Value := (cells.map Value.int).getD .null
  complete
    { time
      level := .info
      type := .sheetLoaded
      context := [(.text "sheet_path", .text path), (.text "cells", count)]
      message := "Loaded sheet " ++ path ++ " (" ++ count.asText ++ " cells)" }

/-- The event that says why a sheet was not loaded. -/
def sheetFailed (time path error : Text) (code : Option Text) : Event :=
  complete
    { time
      level := .error
      type := .sheetLoadFailed
      context := [(.text "sheet_path", .text path)]
      message := error
      code }

/-- The event that says how the loading of a sheet came out. It has failed if there is an error. -/
def ofSheet (time path : Text) (cells : Option Int) (error : Text) (code : Option Text) : Event :=
  if error.isEmpty then sheetLoaded time path cells else sheetFailed time path error code

theorem ofSheet_failed {error : Text} (some_text : error.isEmpty = false) (time path : Text)
    (cells : Option Int) (code : Option Text) :
    ofSheet time path cells error code = sheetFailed time path error code :=
  if_neg (Bool.eq_false_iff.mp some_text)

end Event

end SheetCalc.Journal
