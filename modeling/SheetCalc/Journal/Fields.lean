import SheetCalc.Decimal.Whole
import SheetCalc.Journal.Event
import SheetCalc.Value.Number

/-!
# Events as mappings

An event is written as a mapping (`Event.toEntries`), and one is made from a mapping
(`Event.ofEntries`) if the fields have the kinds of values that they need. Fields that no event has
are left out of account.
-/

namespace SheetCalc.Journal.Event

/-- The fields of an event under their names. -/
def toEntries (e : Event) : Entries Key Value :=
  [(.text "schema_version", .int e.version),
   (.text "ts", .text e.time),
   (.text "level", .text e.level.name),
   (.text "event_type", .text e.type.name),
   (.text "context", .mapping e.context),
   (.text "message", .text e.message),
   (.text "error_code", (e.code.map Value.text).getD .null)]

/-- An event as a value. -/
def toValue (e : Event) : Value :=
  .mapping e.toEntries

/-! ## Reading -/

/-- Why no event is made of fields. -/
inductive FieldError where
  /-- A field is missing or has a value of the wrong kind. -/
  | invalid
  /-- The collections in the context stand inside too many others. -/
  | tooDeep
  deriving DecidableEq, Repr, Inhabited

/-- The integer that a value stands for in the field of the version. -/
def version? : Value → Option Int
  | .bool b => some (if b then 1 else 0)
  | .int n => some n
  | .float x => (Decimal.toInt? x).filter fun n => n.natAbs < Nat.pow 2 63
  | .text s => s.chars?.bind Decimal.readWhole?
  | _ => none

/-- The text of a field. -/
def text? : Value → Option Text
  | .text s => some s
  | _ => none

/-- The text of a field that can be left empty. -/
def code? : Value → Option (Option Text)
  | .null => some none
  | v => (text? v).map some

/-- Whether a key is a text. -/
def isName : Key → Bool
  | .text _ => true
  | _ => false

/-- The entries of a field. Their keys are texts. -/
def entries? : Value → Option (Entries Key Value)
  | .mapping es => if es.all fun e => isName e.1 then some es else none
  | _ => none

/-- A field with a given name, or what holds if there is none. -/
def field? {α : Type} (read : Value → Option α) (name : String) (default : Option α)
    (fields : Entries Key Value) : Option α :=
  match fields.get? (.text name) with
  | none => default
  | some v => read v

/-- The fields of an event that is not complete, at a given time if there is none among them. -/
def read? (now : Text) (fields : Entries Key Value) : Option Event := do
  let version ← field? version? "schema_version" (some 1) fields
  let time ← field? text? "ts" (some now) fields
  let level ← field? (fun v => (text? v).bind Level.ofName?) "level" none fields
  let type ← field? (fun v => (text? v).bind EventType.ofName?) "event_type" none fields
  let context ← field? entries? "context" (some []) fields
  let message ← field? text? "message" (some {}) fields
  let code ← field? code? "error_code" (some none) fields
  return { version, time, level, type, context, message, code }

/-- The event with given fields, at a given time if there is none among them. -/
def ofEntries (now : Text) (fields : Entries Key Value) : Except FieldError Event :=
  match read? now fields with
  | none => .error .invalid
  | some e => if (trimContext? e.context).isSome then .ok (complete e) else .error .tooDeep

end SheetCalc.Journal.Event
