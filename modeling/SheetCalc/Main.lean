import SheetCalc.Command.Run
import SheetCalc.Journal.Clock
import Std.Time.DateTime.Timestamp

/-!
# The program

The command line runs on the files that the command names: they are read before it and written back
after it, if it has changed them.
-/

namespace SheetCalc.Program

/-- A place on the disk. -/
def diskPath? (place : Place) : Option String :=
  (Path.separator ++ Text.joined Path.separator place).toString?

/-- What stands at a place on the disk. -/
def look (place : Place) : IO (Option FileNode) := do
  match diskPath? place with
  | none => return none
  | some path =>
    try
      let bytes ← IO.FS.readBinFile path
      return some (.file bytes.toList)
    catch _ =>
      try
        let _ ← IO.FS.realPath path
        return some .dir
      catch _ => return none

/-- The files that texts lead to, and the directories on the way to them. -/
def load (paths : List Text) : IO Files := do
  let here : Text := toString (← IO.currentDir)
  let mut fs : Files := { here := (Path.ofText here).names }
  for t in paths do
    for place in Files.stations (fs.startOf t) (Path.parts t) do
      if (fs.at? place).isNone then
        match ← look place with
        | some node => fs := { fs with nodes := fs.nodes.put place node }
        | none => pure ()
  return fs

/-- Adds bytes at the end of a file, or writes the file anew. -/
def store (path : String) (before : Option FileNode) (bytes : List UInt8) : IO Unit :=
  match before with
  | some (.file old) =>
    if old.isPrefixOf bytes then do
      let h ← IO.FS.Handle.mk path .append
      h.write (bytes.drop old.length).toByteArray
    else IO.FS.writeBinFile path bytes.toByteArray
  | _ => IO.FS.writeBinFile path bytes.toByteArray

/-- Writes the files back that have changed. -/
def save (before after : Files) : IO Unit := do
  for (place, node) in after.nodes do
    if let some path := diskPath? place then
      match node, before.at? place with
      | .dir, none => IO.FS.createDirAll path
      | .dir, some _ => pure ()
      | .file bytes, old =>
        match old with
        | some (.file same) => unless same == bytes do store path old bytes
        | _ => store path old bytes

/-- The present time as a time stamp. -/
def now : IO String := do
  let t ← Std.Time.Timestamp.now
  let micros := t.toNanosecondsSinceUnixEpoch.val.fdiv 1000
  return Journal.timeStamp (micros.fdiv 1000000) (micros.fmod 1000000).toNat

/-- What is printed about a command that ended early, beside what it has printed itself. -/
def remark : Command.Stop → String
  | .usage => Command.usage
  | .broken f => "Error: " ++ f.message.escapingHalves ++ "\n"
  | .reported _ | .failed => ""

/-- Runs a command line. -/
def run (args : List Text) : IO UInt32 := do
  let files ← load (((Command.Line.read? args).map Command.Line.paths).getD [])
  let done := Command.runLine args { files, time := ← now }
  save files done.console.files
  IO.print done.console.out
  IO.eprint (done.console.err ++ done.console.held ++ (done.stop.map remark).getD "")
  return done.exitCode

end SheetCalc.Program

/-- Runs the command line of the program. -/
def main (args : List String) : IO UInt32 :=
  SheetCalc.Program.run (args.map SheetCalc.Text.ofString)
