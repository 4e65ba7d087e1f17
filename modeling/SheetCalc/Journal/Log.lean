import SheetCalc.Files
import SheetCalc.Journal.Fields
import SheetCalc.Json.Reader
import SheetCalc.Json.Writer
import SheetCalc.Text.Blank

/-!
# The log of events

Events are kept in a file of the project, each as JSON on a line of its own. Writing adds a line at
the end. Reading looks at no more than a number of bytes at the end of the file and passes over what
is no JSON; `select` picks the events that fit a filter, the newest first, and `tally` counts how
evaluations came out.
-/

namespace SheetCalc.Journal

/-- How many bytes are read if nothing else is said. -/
def defaultTail : Int := 2 * 1024 * 1024

/-- The log of a project, of which a number of bytes at the end is read. -/
structure Log where
  project : Path
  tail : Int := defaultTail
  deriving DecidableEq, Repr, Inhabited

/-- Why an event is not written. -/
inductive AppendError where
  /-- There is no JSON for it. -/
  | unwritable
  | file (e : FileError)
  deriving DecidableEq, Repr, Inhabited

/-- Why the log is not read. -/
inductive LogError where
  | unreadable (e : FileError)
  | badTail
  /-- The number of bytes to read is far beyond all sizes of files. -/
  | tailOutOfRange
  /-- A line holds an integer of too many digits. -/
  | numberTooLong (count : Nat)
  /-- A line holds brackets inside too many others. -/
  | tooDeep
  | notMapping
  | notScalar
  deriving DecidableEq, Repr, Inhabited

namespace Log

/-- The directory of the log. -/
def dir (log : Log) : Path :=
  log.project.child "logs"

/-- The file of the log. -/
def path (log : Log) : Path :=
  log.dir.child "events.ndjson"

/-! ## Writing -/

/-- The line of an event. -/
def line (e : Event) : List Char :=
  Json.lineText (Json.sortKeys e.toValue) ++ ['\n']

/-- Adds the line of an event at the end of the log, the directory of which is made if there is
none. -/
def append (log : Log) (e : Event) : FileChange FileError Unit := do
  FileChange.makeDirs log.dir
  FileChange.step (·.append log.path (Text.Utf8.encode (line e)))

/-- Writes an event. Before anything is done with files, there has to be a line. -/
def write (log : Log) (e : Event) : FileChange AppendError Unit := do
  unless Json.isWritable Json.depthLimit e.toValue do throw .unwritable
  ExceptT.adapt .file (log.append e)

/-! ## Reading -/

/-- The values on the lines of a log, the first one first. Blank lines and lines that are no JSON
are passed over. -/
def readLines (done : List Value) : List (List Char) → Except LogError (List Value)
  | [] => .ok done.reverse
  | line :: rest =>
    if line.all Text.isBlank then readLines done rest
    else
      match Json.read line with
      | .ok v => readLines (v :: done) rest
      | .error .malformed => readLines done rest
      | .error (.tooLong count) => .error (.numberTooLong count)
      | .error .tooDeep => .error .tooDeep

/-- The lines in the bytes from a place on. A line that begins before that place is left out. -/
def linesFrom (start : Nat) (bytes : List UInt8) : List (List Char) :=
  let lines := Text.lines (Text.Utf8.decode (bytes.drop start))
  if start = 0 then lines else lines.tail

/-- The largest place in a file. -/
def largestOffset : Nat := Nat.pow 2 63 - 1

/-- The values in the log, the oldest first. Without a file there are none. -/
def values (log : Log) (fs : Files) : Except LogError (List Value) := do
  unless ← (fs.has log.path).mapError .unreadable do return []
  let node ← (fs.find log.path.text).mapError .unreadable
  let start := (node.size - log.tail).toNat
  if log.tail < 0 then
    throw (if largestOffset < start then .tailOutOfRange else .badTail)
  readLines [] (linesFrom start (← (fs.read log.path).mapError .unreadable))

end Log

/-! ## Selecting -/

/-- What is asked of events: names that their fields have to have. An empty name asks nothing. -/
structure Filter where
  level : Text := {}
  type : Text := {}
  label : Text := {}
  code : Text := {}
  deriving DecidableEq, Repr, Inhabited

/-- No more events than this are selected. -/
def selectionLimit : Int := 2000

/-- The field of a value that has to be a mapping. -/
def fieldOf (name : String) : Value → Except LogError (Option Value)
  | .mapping es => .ok (Entries.get? (.text name) es)
  | _ => .error .notMapping

/-- Whether a field is there and is a text. -/
def isText (t : Text) : Option Value → Bool
  | some (.text u) => u == t
  | _ => false

/-- Whether a field has the name that is asked for. -/
def fieldFits (name : String) (wanted : Text) (v : Value) : Except LogError Bool :=
  if wanted.isEmpty then .ok true else (fieldOf name v).map (isText wanted)

/-- Whether the context has the label that is asked for. -/
def labelFits (wanted : Text) (v : Value) : Except LogError Bool :=
  if wanted.isEmpty then .ok true
  else do
    match ← fieldOf "context" v with
    | some context => fieldFits "label" wanted context
    | none => return false

namespace Filter

/-- Whether an event has all that is asked for. -/
def fits (f : Filter) (v : Value) : Except LogError Bool := do
  if !(← fieldFits "level" f.level v) then return false
  if !(← fieldFits "event_type" f.type v) then return false
  if !(← labelFits f.label v) then return false
  fieldFits "error_code" f.code v

end Filter

/-- Goes on selecting behind the events that are selected, the last one first, until there are as
many as wanted. They are counted after each one that is added. -/
def selectFrom (f : Filter) (wanted : Int) (done : List Value) :
    List Value → Except LogError (List Value)
  | [] => .ok done.reverse
  | v :: rest => do
    if ← f.fits v then
      let done := v :: done
      if wanted ≤ done.length then return done.reverse else selectFrom f wanted done rest
    else selectFrom f wanted done rest

/-- The events in the log that a filter lets through, the newest first. -/
def select (log : Log) (fs : Files) (f : Filter) (limit : Int) : Except LogError (List Value) := do
  selectFrom f (min limit selectionLimit) [] (← log.values fs).reverse

/-! ## Counting -/

/-- What an evaluation without an error counts as. -/
def successName : String := "ok"

/-- Whether a value is the name of a type of events that say how an evaluation came out. -/
def isOutcome : Option Value → Except LogError Bool
  | none => .ok false
  | some v =>
    match v.toKey? with
    | some (.text s) => .ok (EventType.outcomes.any fun e => s == e.name)
    | some _ => .ok false
    | none => .error .notScalar

/-- What an event counts as: its code, if that counts as true. -/
def outcomeKey : Option Value → Except LogError Key
  | none => .ok (.text successName)
  | some v =>
    if v.truthy then
      match v.toKey? with
      | some k => .ok k
      | none => .error .notScalar
    else .ok (.text successName)

/-- Counts an event, if it says how an evaluation came out. -/
def count (counts : Entries Key Nat) (v : Value) : Except LogError (Entries Key Nat) := do
  if ← isOutcome (← fieldOf "event_type" v) then
    let k ← outcomeKey (← fieldOf "error_code" v)
    return counts.put k ((counts.get? k).getD 0 + 1)
  else return counts

/-- How often evaluations came out in which way, by the codes of their errors. -/
def tally (log : Log) (fs : Files) : Except LogError (Entries Key Nat) := do
  (← log.values fs).foldlM count []

end SheetCalc.Journal
