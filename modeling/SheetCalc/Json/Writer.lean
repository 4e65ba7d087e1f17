import SheetCalc.Decimal.Layout
import SheetCalc.Json.Quoted
import SheetCalc.Value.Order
import SheetCalc.Value.Text

/-!
# Values as JSON

A value is written on one line, or with an item on each line and two spaces for each level. A float
that is not finite is written by its name. `sortKeys` puts the entries of all mappings in the order
of their keys, and `isWritable` says whether a value can be written so.
-/

namespace SheetCalc

/-- The key of an entry as text. -/
def Key.jsonText : Key → Text
  | .null => ("null" : String)
  | .bool b => (if b then "true" else "false" : String)
  | .int n => Decimal.intText n
  | .float x => Decimal.jsonFloatText x
  | .text t => t

namespace Json

/-- Where line breaks are put. -/
inductive Style where
  | line
  | indented
  deriving DecidableEq, Repr, Inhabited

namespace Style

/-- The beginning of a new line on a level. -/
def newLine (level : Nat) : List Char :=
  '\n' :: List.replicate (2 * level) ' '

/-- What stands between a bracket and what it encloses, before or behind, where the next line is on
a given level. -/
def inside (style : Style) (level : Nat) : List Char :=
  match style with
  | .line => []
  | .indented => newLine level

/-- What separates two items. -/
def between (style : Style) (level : Nat) : List Char :=
  match style with
  | .line => [',', ' ']
  | .indented => ',' :: newLine level

end Style

mutual

/-- A value on a level. -/
def write (style : Style) (level : Nat) : Value → List Char
  | .null => ['n', 'u', 'l', 'l']
  | .bool true => ['t', 'r', 'u', 'e']
  | .bool false => ['f', 'a', 'l', 's', 'e']
  | .int n => (Decimal.intText n).toList
  | .float x => (Decimal.jsonFloatText x).toList
  | .text s => quoted s
  | .list [] => ['[', ']']
  | .list items =>
    '[' :: style.inside (level + 1) ++ writeItems style (level + 1) items
      ++ style.inside level ++ [']']
  | .mapping [] => ['\x7b', '\x7d']
  | .mapping entries =>
    '\x7b' :: style.inside (level + 1) ++ writeEntries style (level + 1) entries
      ++ style.inside level ++ ['\x7d']

/-- The items of a list. -/
def writeItems (style : Style) (level : Nat) : List Value → List Char
  | [] => []
  | [v] => write style level v
  | v :: vs => write style level v ++ style.between level ++ writeItems style level vs

/-- The entries of a mapping. -/
def writeEntries (style : Style) (level : Nat) : List (Key × Value) → List Char
  | [] => []
  | [(k, v)] => quoted k.jsonText ++ [':', ' '] ++ write style level v
  | (k, v) :: es =>
    quoted k.jsonText ++ [':', ' '] ++ write style level v ++ style.between level
      ++ writeEntries style level es

end

/-- A value on one line. -/
def lineText (v : Value) : List Char :=
  write .line 0 v

/-- A value with an item on each line. -/
def indentedText (v : Value) : List Char :=
  write .indented 0 v

/-! ## The order of keys -/

/-- Whether an entry comes before another by the text of its key. -/
def entryLe (a b : Key × Value) : Bool :=
  a.1.jsonText.le b.1.jsonText

mutual

/-- A value with all mappings in it in the order of their keys. -/
def sortKeys : Value → Value
  | .list items => .list (sortItems items)
  | .mapping entries => .mapping ((sortEntries entries).mergeSort entryLe)
  | v => v

/-- The items of a list, each with its mappings in order. -/
def sortItems : List Value → List Value
  | [] => []
  | v :: vs => sortKeys v :: sortItems vs

/-- The entries of a mapping, each with the mappings in its value in order. -/
def sortEntries : List (Key × Value) → List (Key × Value)
  | [] => []
  | (k, v) :: es => (k, sortKeys v) :: sortEntries es

end

/-! ## What can be written -/

mutual

/-- How many brackets stand inside each other in a value. -/
def nesting : Value → Nat
  | .list items => nestingItems items + 1
  | .mapping entries => nestingEntries entries + 1
  | _ => 0

/-- How many brackets stand inside each other in the items of a list. -/
def nestingItems : List Value → Nat
  | [] => 0
  | v :: vs => max (nesting v) (nestingItems vs)

/-- How many brackets stand inside each other in the entries of a mapping. -/
def nestingEntries : List (Key × Value) → Nat
  | [] => 0
  | (_, v) :: es => max (nesting v) (nestingEntries es)

end

mutual

/-- Whether there is an order of the keys in each mapping in a value. -/
def hasOrder : Value → Bool
  | .list items => itemsHaveOrder items
  | .mapping entries => (Key.sorted? entries).isSome && entriesHaveOrder entries
  | _ => true

/-- Whether there is an order of the keys in each mapping in the items of a list. -/
def itemsHaveOrder : List Value → Bool
  | [] => true
  | v :: vs => hasOrder v && itemsHaveOrder vs

/-- Whether there is an order of the keys in each mapping in the entries of a mapping. -/
def entriesHaveOrder : List (Key × Value) → Bool
  | [] => true
  | (_, v) :: es => hasOrder v && entriesHaveOrder es

end

/-- Whether a value can be written with the keys of its mappings in order and as many brackets
inside each other as are given: an integer in it may be too long, and its keys may have no order. -/
def isWritable (depth : Nat) (v : Value) : Bool :=
  v.isWritable && decide (nesting v ≤ depth) && hasOrder v

end Json

end SheetCalc
