import SheetCalc.Files
import SheetCalc.Yaml.Document

/-!
# Projects

A project is a directory. A file in it holds its configuration, a mapping that is laid over the
default one; settings that the default one does not know are kept.
-/

namespace SheetCalc

/-- The settings of a project. -/
abbrev Config := Entries Key Value

/-- Why the configuration of a project is not loaded. -/
inductive ConfigError where
  | unreadable (e : FileError)
  | badDocument (e : Yaml.Error)
  | notMapping (path : Path)
  deriving DecidableEq, Repr, Inhabited

/-- Why no configuration is written. -/
inductive WriteError where
  | alreadyThere (path : Path)
  | unwritable (e : FileError)
  deriving DecidableEq, Repr, Inhabited

/-- The message for a configuration that is not loaded. -/
def ConfigError.message : ConfigError → Text
  | .unreadable _ => "The configuration cannot be read"
  | .badDocument e => e.message
  | .notMapping path => path.text ++ " must contain a mapping"

/-- The message for a configuration that is not written. -/
def WriteError.message : WriteError → Text
  | .alreadyThere path => path.text ++ " already exists"
  | .unwritable (.alreadyThere path) => "[Errno 17] File exists: " ++ path.text.quoted
  | .unwritable _ => "The configuration cannot be written"

namespace Config

/-- The setting with a given name. -/
def setting? (name : String) (config : Config) : Option Value :=
  config.get? (.text name)

/-- What holds where a project says nothing else. -/
def default : Config :=
  [(.text "logging_enabled", .bool true),
   (.text "logging_tail_bytes", .int 2097152),
   (.text "display_precision", .int 10),
   (.text "sheet_rows", .int 100),
   (.text "sheet_cols", .int 26)]

/-- The text of a new configuration. -/
def defaultText : String :=
  "# calc123 project configuration\n"
    ++ "logging_enabled: true\n"
    ++ "# logging_tail_bytes: 2097152\n"
    ++ "display_precision: 10\n"
    ++ "sheet_rows: 100\n"
    ++ "sheet_cols: 26\n"

/-- The file that holds the configuration of a project. -/
def path (project : Path) : Path :=
  project.child "calc123.yaml"

/-- Loads the configuration of a project. -/
def load (fs : Files) (project : Path) : Except ConfigError Config := do
  let path := path project
  unless ← (fs.has path).mapError .unreadable do return default
  let text ← (fs.readText path).mapError .unreadable
  match ← (Yaml.read text).mapError .badDocument with
  | .mapping settings => return default.update settings
  | v => if v.truthy then throw (.notMapping path) else return default

/-- Writes a new configuration into a project, the directory of which is made if there is none. -/
def writeDefault (project : Path) : FileChange WriteError Path := do
  ExceptT.adapt .unwritable (FileChange.makeDirs project)
  let path := path project
  if ← FileChange.ask fun fs => (fs.has path).mapError .unwritable then throw (.alreadyThere path)
  ExceptT.adapt .unwritable (FileChange.step (·.writeText path defaultText.toList))
  return path

end Config

end SheetCalc
