import SheetCalc.Command.Arguments
import SheetCalc.Journal.Log
import SheetCalc.Project
import SheetCalc.Value.Number

/-!
# Command lines

What a command line can ask for: to evaluate a formula, to evaluate a cell of a sheet, to write a
new configuration, or to show the events in the journal. `Line.read?` reads the arguments by their
form alone, and `Line.paths` says which paths they name; `Line.command` looks at what is given, also
at what stands at the paths, and makes a command of it.
-/

namespace SheetCalc

/-- A command. -/
inductive Command where
  | version
  | eval (tokens : List Text) (sheet : Option Text) (project : Text) (json : Bool)
  | cell (label : Text) (sheet : Text) (project : Text) (json : Bool)
  | init (directory : Text)
  | events (project : Text) (filter : Journal.Filter) (limit : Int) (summary json : Bool)
  deriving Inhabited

namespace Command

/-- The project that a command works on if it is not told another one. -/
def defaultProject : Text := "."

/-- How many events are shown if nothing else is said. -/
def defaultLimit : Int := 20

/-- How the program is used. -/
def usage : String :=
  "Usage: calc123 eval [--sheet FILE] [--project DIR] [--json] [--] TOKENS...\n"
    ++ "       calc123 cell --sheet FILE [--project DIR] [--json] LABEL\n"
    ++ "       calc123 init DIRECTORY\n"
    ++ "       calc123 events [--project DIR] [--level LEVEL] [--type TYPE] [--error-code CODE]\n"
    ++ "                      [--limit N] [--summary] [--json]\n"
    ++ "       calc123 --version\n"

/-! ## Lines -/

/-- The names of commands. -/
inductive Verb where
  | eval
  | cell
  | init
  | events
  deriving DecidableEq, Repr, Inhabited

namespace Verb

/-- The name of a command. -/
def name : Verb → String
  | .eval => "eval"
  | .cell => "cell"
  | .init => "init"
  | .events => "events"

/-- The command with a given name. -/
def ofName? (t : Text) : Option Verb :=
  [eval, cell, init, events].find? fun v => t == v.name

/-- The options of a command. -/
def options : Verb → Options
  | .eval | .cell => ⟨["--json"], ["--sheet", "--project"]⟩
  | .init => {}
  | .events =>
    ⟨["--summary", "--json"], ["--project", "--level", "--type", "--error-code", "--limit"]⟩

end Verb

/-- A command line: one that asks for the version, or the name of a command and its arguments. -/
inductive Line where
  | version
  | verb (v : Verb) (a : Arguments)
  deriving Inhabited

/-- Why a command line asks for nothing. -/
inductive LineError where
  /-- The program is not used as it should be. -/
  | usage
  | noPath (e : FileError)
  deriving DecidableEq, Repr, Inhabited

namespace Line

/-- Reads the name of a command and its arguments. -/
def readVerb? : List Text → Option Line
  | [] => none
  | name :: args => do
    let v ← Verb.ofName? name
    return .verb v (← Arguments.read? v.options args)

/-- Reads a command line whose options in front of the command's name may have asked for the
version. -/
def readFrom? (version : Bool) : List Text → Option Line
  | [] => if version then some .version else none
  | arg :: args =>
    if arg = "--version" then readFrom? true args
    else if arg ≠ endOfOptions ∧ isOption arg then none
    else if version then some .version
    else readVerb? (if arg = endOfOptions then args else arg :: args)

/-- Reads the arguments of a command line. -/
def read? (args : List Text) : Option Line :=
  readFrom? false args

/-! ## Paths -/

/-- The project that is given. -/
def project (a : Arguments) : Text :=
  (a.value? "--project").getD defaultProject

/-- The texts that name paths in the arguments of a command. -/
def named : Verb → Arguments → List Text
  | .init, a => a.others
  | _, a => (a.value? "--sheet").toList ++ [project a]

/-- The texts by which the files are named that a command line is about: those in its arguments, and
in a project the configuration and the journal. -/
def paths : Line → List Text
  | .version => []
  | .verb v a =>
    (named v a).flatMap fun t =>
      let p := Path.ofText t
      [t, p.text, (Config.path p).text, ({ project := p : Journal.Log }).path.text]

/-! ## What is given -/

/-- Looks at a path, at which there may be nothing. -/
def checkPath (fs : Files) (t : Text) : Except LineError Unit :=
  match fs.find t with
  | .error .zeroInPath => .error (.noPath .zeroInPath)
  | .error .notEncodable => .error (.noPath .notEncodable)
  | _ => .ok ()

/-- Looks at the path of a project, which has to be there. -/
def checkProject (fs : Files) (t : Text) : Except LineError Unit := do
  checkPath fs t
  unless (fs.find t).toOption.isSome do throw .usage

/-- The number of events that is asked for, which has to be an integer. -/
def limit? (t : Text) : Option Int :=
  (Value.text t).toInt.toOption

/-- Looks at the value of an option. -/
def checkOption (fs : Files) (a : Arguments) (name : String) : Except LineError Unit :=
  match name, a.value? name with
  | "--sheet", some t => checkPath fs t
  | "--project", some t => checkProject fs t
  | "--level", some t => unless (Journal.Level.ofName? t).isSome do throw .usage
  | "--limit", some t => unless (limit? t).isSome do throw .usage
  | _, _ => return ()

/-- What has to be given. -/
def needed {α : Type} : Option α → Except LineError α
  | some a => .ok a
  | none => .error .usage

/-- There is nothing more to be given. -/
def nothingMore : List Text → Except LineError Unit
  | [] => .ok ()
  | _ => .error .usage

/-- What the events are asked for that are shown. -/
def filter (a : Arguments) : Journal.Filter where
  level := (a.value? "--level").getD {}
  type := (a.value? "--type").getD {}
  code := (a.value? "--error-code").getD {}

/-- The command that is asked for. What is given is looked at in the order in which it is given, the
options first; then it is seen whether anything is missing, and then whether there is too much. -/
def command (fs : Files) : Line → Except LineError Command
  | .version => .ok .version
  | .verb v a => do
    a.given.forM (checkOption fs a)
    match v with
    | .eval => return .eval a.others (a.value? "--sheet") (project a) (a.has "--json")
    | .cell =>
      let label ← needed a.others.head?
      let sheet ← needed (a.value? "--sheet")
      nothingMore a.others.tail
      return .cell label sheet (project a) (a.has "--json")
    | .init =>
      let directory ← needed a.others.head?
      checkPath fs directory
      nothingMore a.others.tail
      return .init directory
    | .events =>
      nothingMore a.others
      let limit ← needed (((a.value? "--limit").map limit?).getD (some defaultLimit))
      return .events (project a) (filter a) limit (a.has "--summary") (a.has "--json")

end Line

end Command

end SheetCalc
