import SheetCalc.Journal.Log
import SheetCalc.Project

/-!
# Emitting events

Programs emit events without regard to whether they are kept. The emitter knows the log that they go
to, if there is one, and warns the first time that an event cannot be written.
-/

namespace SheetCalc.Journal

/-- Where events go, and whether there has been a warning. -/
structure Emitter where
  log : Option Log := none
  warned : Bool := false
  deriving DecidableEq, Repr, Inhabited

/-- Why events are not sent to a project. -/
inductive AttachError where
  | badConfig (e : ConfigError)
  | badTail (e : ConversionError)
  deriving Inhabited

/-- The number of bytes that are read of a log with a configuration. -/
def tailOf (config : Config) : Except ConversionError Int :=
  match config.setting? "logging_tail_bytes" with
  | none | some .null => .ok defaultTail
  | some v => v.toInt

/-- Whether events are kept with a configuration. -/
def isEnabled (config : Config) : Bool :=
  ((config.setting? "logging_enabled").map Value.truthy).getD true

namespace Emitter

/-- Sends events to the log of a project with a given configuration, or to none if it says so. -/
def attach (em : Emitter) (project : Path) (config : Config) : Except ConversionError Emitter :=
  if isEnabled config then
    (tailOf config).map fun tail => { em with log := some { project, tail } }
  else .ok { em with log := none }

/-- What comes of an emitted event: the files, the emitter, and whether a warning is due. -/
structure Emitted where
  files : Files
  emitter : Emitter
  warns : Bool

/-- Emits an event. A warning is due the first time that an event cannot be written. -/
def emit (em : Emitter) (fs : Files) (e : Event) : Emitted :=
  match em.log with
  | none => ⟨fs, em, false⟩
  | some log =>
    match (log.write e).run fs with
    | (.ok (), fs) => ⟨fs, em, false⟩
    | (.error _, fs) => ⟨fs, { em with warned := true }, !em.warned⟩

end Emitter

end SheetCalc.Journal
