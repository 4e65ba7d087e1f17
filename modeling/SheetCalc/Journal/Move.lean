import SheetCalc.Journal.Emitter

/-!
# Emitting under conditions

A program sends events to the log of a project or nowhere, and emits events (`Move`). Whether an
event is kept is not a matter of the files alone: the system may not let the program make the
directory of the log or open its file, there may be room for the beginning of a line only, and the
error output may not take a warning (`Conditions`). Files and conditions may become other ones
between two moves.

Each move is a row of steps, and what has been done when one of them goes wrong stays done. That
only the beginning of a line has been added is not noticed. The warning is printed after an event
has been given up, so a program that emits an event is told if the warning cannot be printed.
-/

namespace SheetCalc.Journal

/-- What the system lets a program do. -/
structure Conditions where
  /-- Directories can be made. -/
  makes : Bool := true
  /-- Files can be opened for writing, also those that are made for it. -/
  opens : Bool := true
  /-- For how many bytes more there is room, if there is an end to it. -/
  room : Option Nat := none
  /-- The error output takes what is printed. -/
  prints : Bool := true
  deriving DecidableEq, Repr, Inhabited

namespace Conditions

/-- How many of a number of bytes there is room for. -/
def fitting (c : Conditions) (count : Nat) : Nat :=
  (c.room.map (min count)).getD count

/-- The conditions when a number of bytes has been written. -/
def filled (c : Conditions) (count : Nat) : Conditions :=
  { c with room := c.room.map (· - count) }

end Conditions

/-- What a program does with the emitter, and what may happen meanwhile. -/
inductive Move where
  /-- Events are sent to a project, with a given configuration or with the one that is in it. -/
  | attach (project : Path) (given? : Option Config)
  | detach
  | emit (e : Event)
  /-- Files and conditions become other ones. -/
  | disturb (files : Files) (conditions : Conditions)

/-- What there is between two moves. -/
structure Scene where
  files : Files
  conditions : Conditions := {}
  emitter : Emitter := {}
  /-- How many warnings have been printed. -/
  warnings : Nat := 0

/-- What goes wrong in a move. -/
inductive Mishap where
  | attach (e : AttachError)
  | append (e : AppendError)
  /-- The system does not let a directory be made or a file be opened. -/
  | denied
  /-- There is no room for a single byte. -/
  | full
  /-- A warning cannot be printed. -/
  | unprinted

/-- A part of a move. What it has done when something goes wrong stays done. -/
abbrev Work := ExceptT Mishap (StateM Scene)

/-! ## Where events go -/

/-- Finds the configuration of a project, unless it is given. -/
def findConfig (project : Path) : Option Config → Work Config
  | some config => return config
  | none => do
    MonadExcept.ofExcept ((Config.load (← get).files project).mapError (.attach ∘ .badConfig))

/-- Sends events to a log, or nowhere. -/
def sendTo (log? : Option Log) : Work Unit :=
  modify fun w => { w with emitter.log := log? }

/-- Sends events to the log of a project with a known configuration, or nowhere if it says so. -/
def attachWith (project : Path) (config : Config) : Work Unit := do
  if isEnabled config then
    let tail ← MonadExcept.ofExcept ((tailOf config).mapError (.attach ∘ .badTail))
    sendTo (some { project, tail })
  else sendTo none

/-! ## Writing -/

/-- Changes the files. What a change that fails has done to them stays done. -/
def onFiles (change : FileChange FileError Unit) : Work Unit := do
  let (done, files) := change.run (← get).files
  modify fun w => { w with files }
  MonadExcept.ofExcept (done.mapError (.append ∘ .file))

/-- Makes the directory of a log, unless it is there. -/
def readyDir (log : Log) : Work Unit := do
  let w ← get
  if w.conditions.makes then onFiles (FileChange.makeDirs log.dir)
  else
    match w.files.find log.dir.text with
    | .ok .dir => return
    | _ => throw .denied

/-- Adds as many bytes at the end of the file of a log as there is room for. The file is made if
there is none, also when there is no room. -/
def addBytes (log : Log) (bytes : List UInt8) : Work Unit := do
  let conditions := (← get).conditions
  unless conditions.opens do throw .denied
  let count := conditions.fitting bytes.length
  onFiles (FileChange.step (·.append log.path (bytes.take count)))
  if count = 0 then throw .full
  modify fun w => { w with conditions := conditions.filled count }

/-- Writes an event. Before anything is done with files, there has to be a line. -/
def writeEvent (log : Log) (e : Event) : Work Unit := do
  unless Json.isWritable Json.depthLimit e.toValue do throw (.append .unwritable)
  readyDir log
  addBytes log (Text.Utf8.encode (Log.line e))

/-- Warns that an event is lost, unless there has been a warning. That there has been one is noted
before it is printed. -/
def warn : Work Unit := do
  unless (← get).emitter.warned do
    modify fun w => { w with emitter.warned := true }
    unless (← get).conditions.prints do throw .unprinted
    modify fun w => { w with warnings := w.warnings + 1 }

/-- The steps of a move. An event that is not written is given up. -/
def Move.steps : Move → Work Unit
  | .attach project given? => do
    let config ← findConfig project given?
    attachWith project config
  | .detach => sendTo none
  | .emit e => do
    match (← get).emitter.log with
    | none => return
    | some log => tryCatch (writeEvent log e) fun _ => warn
  | .disturb files conditions => modify fun w => { w with files, conditions }

end SheetCalc.Journal
