import SheetCalc.Files
import SheetCalc.Sheet.Spec
import SheetCalc.Yaml.Document

/-!
# Sheet files

A sheet can be kept in a file, as a YAML document that describes it.
-/

namespace SheetCalc

/-- Why a sheet is not loaded from a file. -/
inductive LoadError where
  | notFound (path : Path)
  | unreadable (e : FileError)
  | badDocument (path : Path)
  /-- A scalar of the document is no value. -/
  | badScalar (e : Yaml.Error)
  | notMapping (path : Path)
  | badSpec (e : SpecError)
  deriving Inhabited

namespace LoadError

/-- The message for a sheet that is not loaded. What is wrong with a document is not said. -/
def message : LoadError → Text
  | .notFound path => "Sheet file not found: " ++ path.text
  | .unreadable _ => "Sheet file cannot be read"
  | .badDocument path => "Invalid YAML in " ++ path.text
  | .badScalar e => e.message
  | .notMapping path => "Sheet file " ++ path.text ++ " must contain a mapping"
  | .badSpec e => e.message

end LoadError

namespace Sheet

/-- Loads a sheet from a file. The sizes given hold where the file has none. -/
def load (fs : Files) (path : Path) (rows cols : Int) : Except LoadError Sheet := do
  unless ← (fs.has path).mapError .unreadable do throw (.notFound path)
  let text ← (fs.readText path).mapError .unreadable
  let document ← match Yaml.read text with
    | .ok v => pure v
    | .error .malformed => throw (.badDocument path)
    | .error e => throw (.badScalar e)
  match document with
  | .mapping spec => (ofSpec spec rows cols).mapError .badSpec
  | v => if v.truthy then throw (.notMapping path) else (ofSpec [] rows cols).mapError .badSpec

end Sheet

end SheetCalc
