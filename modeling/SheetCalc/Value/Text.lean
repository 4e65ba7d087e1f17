import SheetCalc.Decimal.Layout
import SheetCalc.Decimal.Numeral
import SheetCalc.Text.Quoted
import SheetCalc.Value

/-!
# Values as text

A value is written in two ways. `quoted` shows what it is, with texts between quotation marks;
`asText` is the same except that a value which is a text stands for itself. An integer of more than
`Decimal.digitLimit` digits is not written; `isWritable` says that a value holds none.
-/

namespace SheetCalc

/-- Joins texts with a comma between them. -/
def commaSeparated (parts : List String) : String :=
  String.intercalate ", " parts

/-- The text of a truth value. -/
def boolText (b : Bool) : String :=
  if b then "True" else "False"

namespace Key

/-- A key as it is shown. -/
def quoted : Key → String
  | .null => "None"
  | .bool b => boolText b
  | .int n => Decimal.intText n
  | .float x => Decimal.floatText x
  | .text s => Text.quoted s

/-- A key as text. -/
def asText : Key → Text
  | .text s => s
  | k => k.quoted

/-- Whether a key can be written. -/
def isWritable : Key → Bool
  | .int n => Decimal.isWritable n
  | _ => true

end Key

namespace Value

mutual

/-- A value as it is shown. -/
def quoted : Value → String
  | .null => "None"
  | .bool b => boolText b
  | .int n => Decimal.intText n
  | .float x => Decimal.floatText x
  | .text s => Text.quoted s
  | .list items => "[" ++ commaSeparated (quotedItems items) ++ "]"
  | .mapping entries => "\x7b" ++ commaSeparated (quotedEntries entries) ++ "\x7d"

/-- The items of a list as they are shown. -/
def quotedItems : List Value → List String
  | [] => []
  | v :: vs => quoted v :: quotedItems vs

/-- The entries of a mapping as they are shown. -/
def quotedEntries : List (Key × Value) → List String
  | [] => []
  | (k, v) :: es => (k.quoted ++ ": " ++ quoted v) :: quotedEntries es

end

/-- A value as text. -/
def asText : Value → Text
  | .text s => s
  | v => v.quoted

mutual

/-- Whether a value holds no integer that is too long to be written. -/
def isWritable : Value → Bool
  | .int n => Decimal.isWritable n
  | .list items => areWritable items
  | .mapping entries => areEntriesWritable entries
  | _ => true

/-- Whether all items of a list can be written. -/
def areWritable : List Value → Bool
  | [] => true
  | v :: vs => isWritable v && areWritable vs

/-- Whether all entries of a mapping can be written. -/
def areEntriesWritable : List (Key × Value) → Bool
  | [] => true
  | (k, v) :: es => k.isWritable && isWritable v && areEntriesWritable es

end

/-- Values as texts, unless one of them cannot be written. -/
def texts? (vs : List Value) : Option (List Text) :=
  if areWritable vs then some (vs.map asText) else none

theorem texts?_of_writable {vs : List Value} (writable : areWritable vs = true) :
    texts? vs = some (vs.map asText) :=
  if_pos writable

theorem texts?_of_not_writable {vs : List Value} (unwritable : areWritable vs = false) :
    texts? vs = none :=
  if_neg (Bool.eq_false_iff.mp unwritable)

end Value

end SheetCalc
