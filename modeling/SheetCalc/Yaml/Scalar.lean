import SheetCalc.Text
import SheetCalc.Text.Hex
import SheetCalc.Yaml.Cursor

/-!
# Scalars in a YAML text

Scalars are written plain, between single quotes or between double quotes. `plainScalar` and
`quotedScalar` read one from a cursor and give its text with line breaks folded.
-/

namespace SheetCalc.Yaml

/-! ## Plain scalars -/

/-- The characters that structure a collection written in brackets. -/
def isFlowSign (c : Char) : Bool :=
  c == ',' || c == '[' || c == ']' || c == '\x7b' || c == '\x7d'

/-- Whether a colon before this text separates a key from a value. -/
def endsKey (inFlow : Bool) (rest : List Char) : Bool :=
  endsWord rest || (inFlow && rest.head?.any isFlowSign)

/-- The length of the word of a plain scalar that a text begins with. -/
def wordLength (inFlow : Bool) : List Char → Nat
  | [] => 0
  | c :: rest =>
    if isSpace c || isBreak c || (c == ':' && endsKey inFlow rest)
        || (inFlow && (c == '?' || isFlowSign c)) then 0
    else wordLength inFlow rest + 1

/-- What stands between two words of a plain scalar. -/
structure Gap where
  /-- What it counts for in the text of the scalar. -/
  text : List Char
  length : Nat
  /-- Whether it goes over the end of a line. -/
  crossed : Bool
  /-- Whether a mark of a document comes after it. -/
  marked : Bool
  deriving Inhabited

/-- The breaks that follow the first one, the spaces between them left out. -/
def moreBreaks : List Char → Gap
  | [] => ⟨[], 0, true, false⟩
  | c :: rest =>
    if c == ' ' then
      let gap := moreBreaks rest
      { gap with length := gap.length + 1 }
    else if isBreak c then
      if startsMarker rest then ⟨[], 1, true, true⟩
      else
        let gap := moreBreaks rest
        { gap with text := unifiedBreak c :: gap.text, length := gap.length + 1 }
    else ⟨[], 0, true, false⟩

/-- The gap that a text begins with. -/
def gapOf (cs : List Char) : Gap :=
  let spaces := cs.takeWhile (· == ' ')
  match cs.drop spaces.length with
  | c :: rest =>
    if isBreak c then
      if startsMarker rest then ⟨[], spaces.length + 1, true, true⟩
      else
        let gap := moreBreaks rest
        { gap with text := folded c gap.text, length := spaces.length + 1 + gap.length }
    else ⟨spaces, spaces.length, false, false⟩
  | [] => ⟨spaces, spaces.length, false, false⟩

/-- A plain scalar that has been read: its text, whether the end of a line was passed after it, and
the place behind it. -/
structure Scanned where
  text : List Char
  crossed : Bool
  cursor : Cursor
  deriving Inhabited

/-- Goes on with a plain scalar whose text so far and whose last gap are given. Outside brackets, it
ends where a line is indented less than it has to be. -/
def plainFrom (inFlow : Bool) (indent : Int) : Nat → Scanned → List Char → Scanned
  | 0, s, _ => s
  | fuel + 1, s, before =>
    let length := wordLength inFlow s.cursor.rest
    if s.cursor.rest.head? == some '#' || length == 0 then s
    else
      let text := s.text ++ before ++ s.cursor.rest.take length
      let behind := s.cursor.advance length
      let gap := gapOf behind.rest
      let s : Scanned := ⟨text, gap.crossed, behind.advance gap.length⟩
      if gap.marked || gap.text.isEmpty || s.cursor.rest.head? == some '#'
          || (!inFlow && s.cursor.column < indent) then s
      else plainFrom inFlow indent fuel s gap.text

/-- The plain scalar at a cursor, which has to be indented by so much on the lines after the first.
-/
def plainScalar (inFlow : Bool) (indent : Int) (c : Cursor) : Scanned :=
  plainFrom inFlow indent c.left ⟨[], false, c⟩ []

/-! ## Quoted scalars -/

/-- The characters that an escape of one letter stands for. -/
def escapes : List (Char × Char) :=
  [('0', '\x00'), ('a', '\x07'), ('b', '\x08'), ('t', '\t'), ('\t', '\t'), ('n', '\n'),
   ('v', '\x0b'), ('f', '\x0c'), ('r', '\r'), ('e', '\x1b'), (' ', ' '), ('\x22', '\x22'),
   ('\\', '\\'), ('/', '/'), ('N', '\u0085'), ('_', '\u00a0'), ('L', '\u2028'), ('P', '\u2029')]

/-- How many digits of base sixteen follow the letter of an escape. -/
def escapeWidth? (c : Char) : Option Nat :=
  if c == 'x' then some 2 else if c == 'u' then some 4 else if c == 'U' then some 8 else none

/-- What an escape with a given number stands for: any code point, half of a pair too. -/
def ofCode (n : Nat) : Except Error CodePoint :=
  match CodePoint.ofNat? n with
  | some p => .ok p
  | none => .error (if n < 0x80000000 then .noCodePoint else .codeTooLarge)

/-- The breaks inside a quoted scalar with the spaces around them left out, and the length of all
that. No mark of a document may come in between. -/
def quotedBreaks (lineStart : Bool) : List Char → Except Error (List Char × Nat)
  | [] => .ok ([], 0)
  | c :: rest =>
    if lineStart && startsMarker (c :: rest) then .error .malformed
    else if isSpace c then (quotedBreaks false rest).map fun (text, n) => (text, n + 1)
    else if isBreak c then
      (quotedBreaks true rest).map fun (text, n) => (unifiedBreak c :: text, n + 1)
    else .ok ([], 0)

/-- What the escape after a backslash stands for, and its length. -/
def escapeOf : List Char → Except Error (Text × Nat)
  | [] => .error .malformed
  | c :: rest =>
    match escapes.lookup c, escapeWidth? c with
    | some e, _ => .ok (.ofChars [e], 1)
    | none, some width =>
      match Text.hexNumber? width 0 rest with
      | some n => (ofCode n).map fun p => (⟨[p]⟩, 1 + width)
      | none => .error .malformed
    | none, none =>
      if isBreak c then (quotedBreaks true rest).map fun (text, n) => (.ofChars text, n + 1)
      else .error .malformed

/-- What the spaces and breaks that a text begins with stand for inside a quoted scalar, and their
length. -/
def quotedGap (cs : List Char) : Except Error (List Char × Nat) :=
  let spaces := cs.takeWhile isSpace
  match cs.drop spaces.length with
  | [] => .error .malformed
  | c :: rest =>
    if isBreak c then
      (quotedBreaks true rest).map fun (text, n) => (folded c text, spaces.length + 1 + n)
    else .ok (spaces, spaces.length)

/-- Goes on with a quoted scalar whose code points so far are given backwards. -/
def quotedFrom (quote : Char) : Nat → List CodePoint → Cursor → Except Error (Text × Cursor)
  | 0, _, _ => .error .malformed
  | fuel + 1, done, c =>
    let goOn (part : Text) (length : Nat) : Except Error (Text × Cursor) :=
      quotedFrom quote fuel (part.points.reverse ++ done) (c.advance length)
    match c.rest with
    | [] => .error .malformed
    | ch :: rest =>
      if ch == quote then
        if quote == '\x27' && rest.head? == some '\x27' then goOn (.ofChars [ch]) 2
        else .ok (⟨done.reverse⟩, c.next)
      else if quote == '\x22' && ch == '\\' then do
        let (part, length) ← escapeOf rest
        goOn part (length + 1)
      else if isSpace ch || isBreak ch then do
        let (part, length) ← quotedGap c.rest
        goOn (.ofChars part) length
      else goOn (.ofChars [ch]) 1

/-- The text of the quoted scalar at a cursor that stands at its first quote, and the place behind
it. -/
def quotedScalar (quote : Char) (c : Cursor) : Except Error (Text × Cursor) :=
  quotedFrom quote c.left [] c.next

end SheetCalc.Yaml
