import SheetCalc.Yaml.Scalar

/-!
# Tokens of a YAML text

A text is cut into tokens. Indentation is made explicit: a collection that is shown by its layout
alone gets a token where it begins and one where it ends. A key is recognized by the colon behind
it, so what may turn out to be a key is remembered (`Candidate`), and its token is put in before it
afterwards. `Scan.peek` cuts no further than it takes to know the next token: what is wrong behind a
place does not show before that place has been reached.

Only a part of the language is read. A text with an anchor, a tag, a directive, or a scalar in a
block (behind `|` or `>`) is refused as malformed, and so is every alias, since there is nothing it
could stand for. What a plain scalar stands for is read from it afterwards, and there a date, a time
and an integer in base sixty are texts.
-/

namespace SheetCalc.Yaml

/-- A token. -/
inductive Token where
  | plain (text : List Char)
  | quoted (text : Text)
  | star
  | documentStart
  | documentEnd
  | blockSequence
  | blockMapping
  | blockEnd
  | blockEntry
  | flowSequence
  | flowSequenceEnd
  | flowMapping
  | flowMappingEnd
  | flowEntry
  | key
  | value
  | textEnd
  deriving DecidableEq, Repr, Inhabited

namespace Token

/-- What may turn out to be a key: where it begins, how many tokens come before it, and whether it
has to be one. -/
structure Candidate where
  index : Nat
  line : Nat
  column : Nat
  before : Nat
  required : Bool
  deriving Inhabited

/-- How far a text has been cut up. There is a place for a candidate on each level of brackets, the
innermost first; the columns of the open layouts are kept in the same order. -/
structure Scan where
  cursor : Cursor
  /-- The tokens that are cut off and not yet taken. -/
  ready : List Token := []
  taken : Nat := 0
  ended : Bool := false
  /-- The column of the innermost layout. -/
  indent : Int := -1
  /-- The columns of the layouts around it. -/
  outer : List Int := []
  /-- Whether a key may begin here. -/
  keyAllowed : Bool := true
  /-- The candidate outside all brackets, or on the innermost level of them. -/
  candidate : Option Candidate := none
  /-- The candidates on the levels around it. -/
  candidates : List (Option Candidate) := []
  deriving Inhabited

namespace Scan

/-- Whether the place is between brackets. -/
def inFlow (s : Scan) : Bool :=
  !s.candidates.isEmpty

/-- Adds a token. -/
def push (t : Token) (s : Scan) : Scan :=
  { s with ready := s.ready ++ [t] }

/-- Goes on by a number of characters. -/
def advance (n : Nat) (s : Scan) : Scan :=
  { s with cursor := s.cursor.advance n }

/-! ## Space and comments -/

/-- The length of the spaces, comments and breaks that a text begins with, and whether there is a
break among them. -/
def blankRun (comment : Bool) : List Char → Nat × Bool
  | [] => (0, false)
  | c :: rest =>
    if isBreak c then ((blankRun false rest).1 + 1, true)
    else if comment || c == ' ' || c == '#' then
      let (n, crossed) := blankRun (comment || c == '#') rest
      (n + 1, crossed)
    else (0, false)

/-- Goes on to the next token. Outside brackets, a key may begin on a new line. -/
def skipBlanks (s : Scan) : Scan :=
  let (n, crossed) := blankRun false s.cursor.rest
  let s := s.advance n
  if crossed && !s.inFlow then { s with keyAllowed := true } else s

/-! ## Candidates for keys -/

/-- A key and its colon stand on one line, not farther apart than this. -/
def keyReach : Nat := 1024

/-- A candidate that the place can still be the colon of. -/
def fresh (c : Cursor) : Option Candidate → Except Error (Option Candidate)
  | none => .ok none
  | some k =>
    if k.line == c.line && c.index - k.index ≤ keyReach then .ok (some k)
    else if k.required then .error .malformed
    else .ok none

/-- Gives up the candidates that are too far away. -/
def dropStale (s : Scan) : Except Error Scan := do
  let candidate ← fresh s.cursor s.candidate
  let candidates ← s.candidates.mapM (fresh s.cursor)
  return { s with candidate, candidates }

/-- Gives up the innermost candidate. -/
def dropCandidate (s : Scan) : Except Error Scan :=
  match s.candidate with
  | some k => if k.required then .error .malformed else .ok { s with candidate := none }
  | none => .ok s

/-- Remembers what comes next as a candidate, if a key may begin here. At the column of the layout
nothing but a key can stand. -/
def saveCandidate (s : Scan) : Except Error Scan := do
  if !s.keyAllowed then return s
  let s ← s.dropCandidate
  let c := s.cursor
  return { s with
    candidate := some
      { index := c.index, line := c.line, column := c.column
        before := s.taken + s.ready.length
        required := !s.inFlow && s.indent == c.column } }

/-! ## Layout -/

/-- Ends the layouts that are indented more than a column, and counts them. -/
def unwindFrom (column : Int) : List Int → Int → Nat → Int × List Int × Nat
  | outer, indent, count =>
    if column < indent then
      match outer with
      | [] => (-1, [], count + 1)
      | i :: outer => unwindFrom column outer i (count + 1)
    else (indent, outer, count)
termination_by structural outer => outer

/-- Ends the layouts that are indented more than a column. Between brackets layout has no meaning.
-/
def unwind (column : Int) (s : Scan) : Scan :=
  if s.inFlow then s
  else
    let (indent, outer, count) := unwindFrom column s.outer s.indent 0
    { s with indent, outer, ready := s.ready ++ List.replicate count .blockEnd }

/-- Whether a layout begins at a column. -/
def indents (column : Nat) (s : Scan) : Bool :=
  s.indent < column

/-- Begins a layout at a column. -/
def indentTo (column : Nat) (s : Scan) : Scan :=
  { s with indent := column, outer := s.indent :: s.outer }

/-- Begins a layout with a token if one begins here. -/
def beginLayout (t : Token) (s : Scan) : Scan :=
  let column := s.cursor.column
  if s.indents column then (s.indentTo column).push t else s

/-! ## The tokens -/

/-- A mark of a document ends all layouts. -/
def marker (t : Token) (s : Scan) : Except Error Scan := do
  let s ← (s.unwind (-1)).dropCandidate
  return ({ s with keyAllowed := false }.push t).advance 3

/-- An opening bracket. -/
def openFlow (t : Token) (s : Scan) : Except Error Scan := do
  let s ← s.saveCandidate
  let s := { s with
    candidate := none, candidates := s.candidate :: s.candidates, keyAllowed := true }
  return (s.push t).advance 1

/-- A closing bracket. -/
def closeFlow (t : Token) (s : Scan) : Except Error Scan := do
  let s ← s.dropCandidate
  match s.candidates with
  | [] => throw .malformed
  | candidate :: candidates =>
    return ({ s with candidate, candidates, keyAllowed := false }.push t).advance 1

/-- A comma between brackets. -/
def flowEntry (s : Scan) : Except Error Scan := do
  let s ← { s with keyAllowed := true }.dropCandidate
  return (s.push .flowEntry).advance 1

/-- A dash before an item. -/
def blockEntry (s : Scan) : Except Error Scan := do
  if !s.inFlow && !s.keyAllowed then throw .malformed
  let s := if s.inFlow then s else s.beginLayout .blockSequence
  let s ← { s with keyAllowed := true }.dropCandidate
  return (s.push .blockEntry).advance 1

/-- A question mark before a key. -/
def explicitKey (s : Scan) : Except Error Scan := do
  if !s.inFlow && !s.keyAllowed then throw .malformed
  let s := if s.inFlow then s else s.beginLayout .blockMapping
  let s ← { s with keyAllowed := !s.inFlow }.dropCandidate
  return (s.push .key).advance 1

/-- Puts tokens behind the first `before` tokens of the text. -/
def insert (more : List Token) (before : Nat) (s : Scan) : Scan :=
  let place := before - s.taken
  { s with ready := s.ready.take place ++ more ++ s.ready.drop place }

/-- A colon behind a key. It makes the candidate a key; if there is none, the key was marked as one
or there is no key. -/
def colon (s : Scan) : Except Error Scan := do
  let s ← match s.candidate with
    | some k =>
      let s := { s with candidate := none, keyAllowed := false }
      if !s.inFlow && s.indents k.column then
        pure ((s.indentTo k.column).insert [.blockMapping, .key] k.before)
      else pure (s.insert [.key] k.before)
    | none => do
      if !s.inFlow && !s.keyAllowed then throw .malformed
      let s := if s.inFlow then s else s.beginLayout .blockMapping
      { s with keyAllowed := !s.inFlow }.dropCandidate
  return (s.push .value).advance 1

/-- A scalar between quotes. -/
def quoted (quote : Char) (s : Scan) : Except Error Scan := do
  let s ← s.saveCandidate
  let (text, cursor) ← quotedScalar quote s.cursor
  return { s with keyAllowed := false, cursor }.push (.quoted text)

/-- A plain scalar. After it, a key may begin if it was followed by the end of a line. -/
def plain (s : Scan) : Except Error Scan := do
  let s ← s.saveCandidate
  let scalar := plainScalar s.inFlow (s.indent + 1) s.cursor
  return { s with keyAllowed := scalar.crossed, cursor := scalar.cursor }.push (.plain scalar.text)

/-- Whether a character may stand in a name. -/
def isNameChar (c : Char) : Bool :=
  c.isAlphanum || c == '-' || c == '_'

/-- Whether a name may end before a text. -/
def endsName : List Char → Bool
  | [] => true
  | c :: _ => isSpace c || isBreak c || ['?', ':', ',', ']', '\x7d', '%', '@', '\x60'].contains c

/-- A star and the name of another node. -/
def star (s : Scan) : Except Error Scan := do
  let s ← s.saveCandidate
  let (name, behind) := s.cursor.rest.tail.span isNameChar
  if name.isEmpty || !endsName behind then throw .malformed
  return ({ s with keyAllowed := false }.push .star).advance (name.length + 1)

/-- The signs that no plain scalar begins with. -/
def signs : List Char :=
  ['-', '?', ':', ',', '[', ']', '\x7b', '\x7d', '#', '&', '*', '!', '|', '>', '\x27', '\x22', '%',
   '@', '\x60']

/-- Whether a plain scalar begins with a character before a text. A dash is the beginning of one if
no space follows, and so are a question mark and a colon outside brackets. -/
def beginsPlain (inFlow : Bool) (c : Char) (rest : List Char) : Bool :=
  !(isSpace c || isBreak c || signs.contains c)
    || (!endsWord rest && (c == '-' || (!inFlow && (c == '?' || c == ':'))))

/-- Cuts off the next token, which begins with a character before a text. Anchors, tags, directives
and scalars in blocks are refused. -/
def cut (c : Char) (rest : List Char) (s : Scan) : Except Error Scan :=
  if s.cursor.column == 0 && isMarker '-' (c :: rest) then s.marker .documentStart
  else if s.cursor.column == 0 && isMarker '.' (c :: rest) then s.marker .documentEnd
  else if c == '[' then s.openFlow .flowSequence
  else if c == '\x7b' then s.openFlow .flowMapping
  else if c == ']' then s.closeFlow .flowSequenceEnd
  else if c == '\x7d' then s.closeFlow .flowMappingEnd
  else if c == ',' then s.flowEntry
  else if c == '-' && endsWord rest then s.blockEntry
  else if c == '?' && (s.inFlow || endsWord rest) then s.explicitKey
  else if c == ':' && (s.inFlow || endsWord rest) then s.colon
  else if c == '*' then s.star
  else if c == '\x27' || c == '\x22' then s.quoted c
  else if beginsPlain s.inFlow c rest then s.plain
  else .error .malformed

/-- The end of the text ends all layouts. -/
def finish (s : Scan) : Except Error Scan := do
  let s ← (s.unwind (-1)).dropCandidate
  return { s with candidates := [], ended := true }.push .textEnd

/-- Cuts off the next token, or more if layouts end before it. -/
def fetch (s : Scan) : Except Error Scan := do
  let s ← s.skipBlanks.dropStale
  let s := s.unwind s.cursor.column
  match s.cursor.rest with
  | [] => s.finish
  | c :: rest => s.cut c rest

/-! ## Taking tokens -/

/-- How many tokens come before the first candidate. -/
def firstCandidate? (s : Scan) : Option Nat :=
  (s.candidate :: s.candidates).filterMap (·.map (·.before)) |>.min?

/-- Cuts on until the next token is known: there is one, and it is no candidate for a key. -/
def fill : Nat → Scan → Except Error Scan
  | 0, s => .ok s
  | fuel + 1, s => do
    if s.ended then return s
    if s.ready.isEmpty then fill fuel (← s.fetch)
    else
      let s ← s.dropStale
      if s.firstCandidate? == some s.taken then fill fuel (← s.fetch) else return s

/-- The next token, and the text cut up as far as it takes to know it. -/
def peek (s : Scan) : Except Error (Token × Scan) := do
  let s ← s.fill (s.cursor.left + 2)
  return (s.ready.head?.getD .textEnd, s)

/-- Takes the next token. -/
def take (s : Scan) : Scan :=
  match s.ready with
  | [] => s
  | _ :: ready => { s with ready, taken := s.taken + 1 }

/-- The beginning of a text. A byte order mark may stand in front of it. -/
def start (cs : List Char) : Scan :=
  let cursor := Cursor.start cs
  { cursor := if cs.head? == some '\ufeff' then cursor.next else cursor }

end Scan

end Token

end SheetCalc.Yaml
