import SheetCalc.Value

/-!
# Trimming

What goes into the journal is kept small: of a list the first items are kept, of a text the first
characters, and a mark says that something is missing. Mappings keep all of their keys.

A context whose collections stand inside too many others is not trimmed at all (`trimContext?`).
What limits it is the stack: `depth` counts the calls that are open at the same time, and
`depthLimit` is what is left of the stack where a context is trimmed close to its bottom. Where more
of the stack is in use already, less is left.
-/

namespace SheetCalc.Journal

/-- What stands for the part that is left out. -/
def truncated : Text := "...[truncated]"

/-- How many items are kept of a list. -/
def keptItems : Nat := 64

/-- How many code points are kept of a text. -/
def keptLength : Nat := 256

/-- Trims a text. -/
def trimText (t : Text) : Text :=
  if keptLength < t.length then t.take keptLength ++ truncated else t

mutual

/-- Trims a value. -/
def trim : Value → Value
  | .text s => .text (trimText s)
  | .list items => .list (trimItems keptItems items)
  | .mapping entries => .mapping (trimEntries entries)
  | v => v

/-- Trims the items of a list, of which a number is kept. -/
def trimItems : Nat → List Value → List Value
  | _, [] => []
  | 0, _ :: _ => [.text truncated]
  | n + 1, v :: vs => trim v :: trimItems n vs

/-- Trims the values of a mapping. -/
def trimEntries : List (Key × Value) → List (Key × Value)
  | [] => []
  | (k, v) :: es => (k, trim v) :: trimEntries es

end

/-! ## Depth -/

mutual

/-- How many calls are open at the same time while a value is trimmed: three for a mapping and two
for a list, besides those for what is in it, and one for anything else. -/
def depth : Value → Nat
  | .list items => 2 + depthOfItems keptItems items
  | .mapping entries => 3 + depthOfEntries entries
  | _ => 1

/-- The same for the items of a list, of which a number is kept. -/
def depthOfItems : Nat → List Value → Nat
  | _, [] => 0
  | 0, _ :: _ => 0
  | n + 1, v :: vs => max (depth v) (depthOfItems n vs)

/-- The same for the values of a mapping. -/
def depthOfEntries : List (Key × Value) → Nat
  | [] => 0
  | (_, v) :: es => max (depth v) (depthOfEntries es)

end

/-- No more calls than this are open at the same time. -/
def depthLimit : Nat := 991

/-- Trims a context, if it is not too deep. -/
def trimContext? (entries : List (Key × Value)) : Option (List (Key × Value)) :=
  if depth (.mapping entries) ≤ depthLimit then some (trimEntries entries) else none

end SheetCalc.Journal
