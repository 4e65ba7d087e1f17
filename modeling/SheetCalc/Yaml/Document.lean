import SheetCalc.Entries
import SheetCalc.Text.Lines
import SheetCalc.Value.Number
import SheetCalc.Yaml.Node
import SheetCalc.Yaml.Plain

/-!
# YAML documents

`Yaml.read` reads the one document that a text holds as a value: a sequence becomes a list, and a
mapping becomes one in which the last entry with a key counts. A text without a document is nothing.
The scalars of all collections on one level are looked at before those on the next, which decides
what is reported of a document with more than one bad scalar (`Located`).
-/

namespace SheetCalc.Yaml

/-- What is reported of an error that concerns a single scalar. -/
def Error.message : Error → String
  | .malformed => "malformed document"
  | .noDigits base =>
    "invalid literal for int() with base " ++ Decimal.natText base ++ ": " ++ "''"
  | .tooLong count => (ConversionError.tooLong count).message
  | .noCodePoint => "chr() arg not in range(0x110000)"
  | .codeTooLarge => "the number of an escape is too large"
  | .tooDeep => "collections inside too many others"

/-- An error, and on which level of collections below the present one it is found. -/
structure Located where
  level : Nat
  error : Error
  deriving DecidableEq, Repr, Inhabited

namespace Located

/-- An error on the present level. -/
def here (e : Error) : Located := ⟨0, e⟩

/-- An error one level further down. -/
def below (l : Located) : Located := { l with level := l.level + 1 }

/-- Two results together. Of two errors the one on the upper level counts, and on the same level the
first one. -/
def both {α β : Type} (a : Except Located α) (b : Except Located β) : Except Located (α × β) :=
  match a, b with
  | .ok a, .ok b => .ok (a, b)
  | .error e, .ok _ => .error e
  | .ok _, .error f => .error f
  | .error e, .error f => .error (if f.level < e.level then f else e)

/-- The results for all members of a list together. -/
def all {α β : Type} (f : α → Except Located β) : List α → Except Located (List β)
  | [] => .ok []
  | x :: xs => (both (f x) (all f xs)).map fun (y, ys) => y :: ys

end Located

namespace Node

/-- Whether a node is the sign of a merge. -/
def isMerge : Node → Bool
  | .plain text => text == mergeSign.toList
  | _ => false

mutual

/-- The entries that come in by merges, and all others. -/
def separate : List (Node × Node) → Except Error (List (Node × Node) × List (Node × Node))
  | [] => .ok ([], [])
  | (k, v) :: es => do
    if k.isMerge then
      let more ← mergedBy v
      let (merged, own) ← separate es
      return (more ++ merged, own)
    else
      let (merged, own) ← separate es
      return (merged, (k, v) :: own)

/-- The entries that come in by a merge with a mapping, or with the mappings of a sequence, of which
the first has precedence. -/
def mergedBy : Node → Except Error (List (Node × Node))
  | .mapping es => do
    let (merged, own) ← separate es
    return merged ++ own
  | .sequence items => mergedByAll items
  | _ => .error .malformed

/-- The entries that come in by a merge with all mappings of a sequence. -/
def mergedByAll : List Node → Except Error (List (Node × Node))
  | [] => .ok []
  | .mapping es :: items => do
    let (merged, own) ← separate es
    let others ← mergedByAll items
    return others ++ (merged ++ own)
  | _ :: _ => .error .malformed

end

/-- The entries of a mapping, in front of them those that come in by merges. -/
def flatten (entries : List (Node × Node)) : Except Error (List (Node × Node)) := do
  let (merged, own) ← separate entries
  return merged ++ own

/-- The key that a node is. Only a scalar can be one. -/
def toKey : Node → Except Error Key
  | .quoted text => .ok (.text text)
  | .plain text =>
    if text == valueSign.toList then .ok (.text valueSign)
    else
      match plainValue text with
      | .error e => .error e
      | .ok v =>
        match v.toKey? with
        | some k => .ok k
        | none => .error .malformed
  | _ => .error .malformed

/-- Whether a node is a collection. -/
def isCollection : Node → Bool
  | .sequence _ | .mapping _ => true
  | _ => false

/-- What a node in a collection says, seen from the collection. -/
def within {α : Type} (x : Node) (r : Except Located α) : Except Located α :=
  if x.isCollection then r.mapError Located.below else r

/-- The value that a node is. The steps that are left are as many as there are levels of
collections. -/
def toValue : Nat → Node → Except Located Value
  | _, .plain text => (plainValue text).mapError .here
  | _, .quoted text => .ok (.text text)
  | n + 1, .sequence items =>
    (Located.all (fun x => x.within (toValue n x)) items).map .list
  | n + 1, .mapping entries => do
    let entries ← (flatten entries).mapError .here
    let pairs ← Located.all
      (fun (k, v) => Located.both ((toKey k).mapError .here) (v.within (toValue n v))) entries
    return .mapping (Entries.ofList pairs)
  | 0, _ => .error (.here .tooDeep)
termination_by structural n => n

end Node

/-- Reads a text as a document. -/
def read (cs : List Char) : Except Error Value := do
  let cs := Text.unifyBreaks cs
  unless cs.all isAllowed do throw .malformed
  match ← Node.ofText? cs with
  | some node => (node.toValue (Node.depthLimit + 1)).mapError (·.error)
  | none => return .null

end SheetCalc.Yaml
