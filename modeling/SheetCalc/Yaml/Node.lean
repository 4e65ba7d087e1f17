import SheetCalc.Yaml.Token

/-!
# The structure of a YAML document

Tokens make up nodes: scalars, sequences and mappings. What is left out, a value behind a colon or
an item behind a dash, is an empty plain scalar. Tokens are taken one by one, each when it is
needed, so that the first thing that is wrong in a text is what is found. Two numbers go with the
reading functions: the steps that are left, of which each takes a token or is followed by one that
does, and the collections that the place is in.

How many collections may be around a place (`depthLimit`) depends on what is left of the stack. The
limit is about that of a sheet that is loaded close to the bottom of the stack; a command stands
deeper in it, and reads a few collections less.
-/

namespace SheetCalc.Yaml

/-- A node of a document. -/
inductive Node where
  | plain (text : List Char)
  | quoted (text : Text)
  | sequence (items : List Node)
  | mapping (entries : List (Node × Node))
  deriving Inhabited

namespace Node

mutual

/-- Whether two nodes are equal. -/
def same : Node → Node → Bool
  | .plain s, .plain t => s == t
  | .quoted s, .quoted t => s == t
  | .sequence xs, .sequence ys => sameItems xs ys
  | .mapping es, .mapping fs => sameEntries es fs
  | _, _ => false

/-- Whether two sequences have equal items. -/
def sameItems : List Node → List Node → Bool
  | [], [] => true
  | x :: xs, y :: ys => same x y && sameItems xs ys
  | _, _ => false

/-- Whether two mappings have equal entries. -/
def sameEntries : List (Node × Node) → List (Node × Node) → Bool
  | [], [] => true
  | (k, v) :: es, (l, w) :: fs => same k l && same v w && sameEntries es fs
  | _, _ => false

end

mutual

theorem same_iff : ∀ x y : Node, same x y = true ↔ x = y
  | .plain s, y => by cases y <;> simp [same]
  | .quoted s, y => by cases y <;> simp [same]
  | .sequence xs, y => by cases y <;> simp [same, sameItems_iff]
  | .mapping es, y => by cases y <;> simp [same, sameEntries_iff]

theorem sameItems_iff : ∀ xs ys : List Node, sameItems xs ys = true ↔ xs = ys
  | [], ys => by cases ys <;> simp [sameItems]
  | x :: xs, ys => by cases ys <;> simp [sameItems, same_iff x, sameItems_iff xs]

theorem sameEntries_iff : ∀ es fs : List (Node × Node), sameEntries es fs = true ↔ es = fs
  | [], fs => by cases fs <;> simp [sameEntries]
  | (k, v) :: es, fs => by
      cases fs <;> simp [sameEntries, same_iff k, same_iff v, sameEntries_iff es, Prod.ext_iff]

end

instance : DecidableEq Node :=
  fun x y => decidable_of_iff _ (same_iff x y)

end Node

/-- Reading tokens from the front of a text. -/
abbrev Reader := StateT Token.Scan (Except Error)

namespace Reader

/-- The next token. -/
def peek : Reader Token :=
  fun s => s.peek

/-- Takes the next token. -/
def take : Reader Unit :=
  modify Token.Scan.take

/-- Takes the next token if it is the one that has to come next. -/
def expect (t : Token) : Reader Unit := do
  unless (← peek) == t do throw .malformed
  take

end Reader

namespace Node

open Reader

/-- What stands where nothing is written. -/
def empty : Node :=
  .plain []

/-- About how many collections can stand inside each other. -/
def depthLimit : Nat := 490

mutual

/-- The node that comes next. A sequence may stand at the indentation of the mapping around it,
where it has no token of its own; collections that are shown by their layout do not stand between
brackets. -/
def read : Nat → Nat → Bool → Bool → Reader Node
  | 0, _, _, _ => throw .malformed
  | n + 1, depth, block, indentless => do
    let next ← peek
    if depthLimit < depth then throw .tooDeep
    match next with
    | .plain text => take; return .plain text
    | .quoted text => take; return .quoted text
    | .flowSequence => take; return .sequence (← flowItems n (depth + 1) true)
    | .flowMapping => take; return .mapping (← flowEntries n (depth + 1) true)
    | .blockEntry =>
      unless indentless do throw .malformed
      return .sequence (← indentlessItems n (depth + 1))
    | .blockSequence =>
      unless block do throw .malformed
      take
      return .sequence (← blockItems n (depth + 1))
    | .blockMapping =>
      unless block do throw .malformed
      take
      return .mapping (← blockEntries n (depth + 1))
    | _ => throw .malformed
termination_by structural n => n

/-- The node that comes next, or an empty one if one of a few tokens does. -/
def readUnless : Nat → Nat → List Token → Bool → Bool → Reader Node
  | 0, _, _, _, _ => throw .malformed
  | n + 1, depth, stops, block, indentless => do
    if stops.contains (← peek) then return empty else read n depth block indentless
termination_by structural n => n

/-- The items of a sequence that is shown by its layout. -/
def blockItems : Nat → Nat → Reader (List Node)
  | 0, _ => throw .malformed
  | n + 1, depth => do
    match ← peek with
    | .blockEntry =>
      take
      let x ← readUnless n depth [.blockEntry, .blockEnd] true false
      return x :: (← blockItems n depth)
    | _ => expect .blockEnd; return []
termination_by structural n => n

/-- The items of a sequence at the indentation of the mapping around it. -/
def indentlessItems : Nat → Nat → Reader (List Node)
  | 0, _ => throw .malformed
  | n + 1, depth => do
    match ← peek with
    | .blockEntry =>
      take
      let x ← readUnless n depth [.blockEntry, .key, .value, .blockEnd] true false
      return x :: (← indentlessItems n depth)
    | _ => return []
termination_by structural n => n

/-- The entries of a mapping that is shown by its layout. -/
def blockEntries : Nat → Nat → Reader (List (Node × Node))
  | 0, _ => throw .malformed
  | n + 1, depth => do
    match ← peek with
    | .key =>
      take
      let k ← readUnless n depth [.key, .value, .blockEnd] true true
      let v ← valueAfter n depth [.key, .value, .blockEnd] true
      return (k, v) :: (← blockEntries n depth)
    | _ => expect .blockEnd; return []
termination_by structural n => n

/-- The value behind a colon; without a colon it is empty. -/
def valueAfter : Nat → Nat → List Token → Bool → Reader Node
  | 0, _, _, _ => throw .malformed
  | n + 1, depth, stops, block => do
    match ← peek with
    | .value => take; readUnless n depth stops block block
    | _ => return empty
termination_by structural n => n

/-- The items of a sequence between brackets. A key among them makes a mapping of one entry. -/
def flowItems : Nat → Nat → Bool → Reader (List Node)
  | 0, _, _ => throw .malformed
  | n + 1, depth, first => do
    if (← peek) == .flowSequenceEnd then take; return []
    unless first do expect .flowEntry
    match ← peek with
    | .flowSequenceEnd => take; return []
    | .key =>
      take
      let k ← readUnless n (depth + 1) [.value, .flowEntry, .flowSequenceEnd] false false
      let v ← valueAfter n (depth + 1) [.flowEntry, .flowSequenceEnd] false
      return .mapping [(k, v)] :: (← flowItems n depth false)
    | _ =>
      let x ← read n depth false false
      return x :: (← flowItems n depth false)
termination_by structural n => n

/-- The entries of a mapping between brackets. A key without a colon has an empty value. -/
def flowEntries : Nat → Nat → Bool → Reader (List (Node × Node))
  | 0, _, _ => throw .malformed
  | n + 1, depth, first => do
    if (← peek) == .flowMappingEnd then take; return []
    unless first do expect .flowEntry
    match ← peek with
    | .flowMappingEnd => take; return []
    | .key =>
      take
      let k ← readUnless n depth [.value, .flowEntry, .flowMappingEnd] false false
      let v ← valueAfter n depth [.flowEntry, .flowMappingEnd] false
      return (k, v) :: (← flowEntries n depth false)
    | _ =>
      let k ← read n depth false false
      return (k, empty) :: (← flowEntries n depth false)
termination_by structural n => n

end

/-! ## Documents -/

/-- Takes the marks of an end that come next. -/
def skipEnds : Nat → Reader Unit
  | 0 => throw .malformed
  | n + 1 => do
    if (← peek) == .documentEnd then
      take
      skipEnds n

/-- The node of the one document that is there, if there is one. It begins with a mark or without
one, and nothing may follow it but marks of its end. -/
def readDocument (n : Nat) : Reader (Option Node) := do
  match ← peek with
  | .textEnd => return none
  | .documentStart =>
    take
    let node ← readUnless n 0 [.documentStart, .documentEnd, .textEnd] true false
    finish node
  | _ => finish (← read n 0 true false)
where
  /-- Makes sure that nothing follows. -/
  finish (node : Node) : Reader (Option Node) := do
    skipEnds n
    expect .textEnd
    return some node

/-- The node of the one document in a text, if there is one. A character gives four tokens at most,
and three steps are enough for a token. -/
def ofText? (cs : List Char) : Except Error (Option Node) :=
  (readDocument (12 * cs.length + 12)).run' (.start cs)

end Node

end SheetCalc.Yaml
