import SheetCalc.Decimal.Numeral

/-!
# Places in a YAML text

A cursor is a place in a text: what is still to come and how much that is, and on which line and in
which column it stands, since the layout of a document carries meaning. The end of the text counts
as the end of a line and of a word.
-/

namespace SheetCalc.Yaml

/-- Why a document is not read. -/
inductive Error where
  | malformed
  /-- An integer in a given base has no digit. -/
  | noDigits (base : Nat)
  | tooLong (count : Nat)
  /-- An escape names no code point. -/
  | noCodePoint
  /-- An escape has a number of more than 31 bits. -/
  | codeTooLarge
  /-- Collections stand inside too many others. -/
  | tooDeep
  deriving DecidableEq, Repr, Inhabited

/-- The characters that a document may be written in. -/
def isAllowed (c : Char) : Bool :=
  let n := c.toNat
  n == 0x09 || n == 0x0a || n == 0x0d || (0x20 ≤ n && n ≤ 0x7e) || n == 0x85
    || (0xa0 ≤ n && n ≤ 0xd7ff) || (0xe000 ≤ n && n ≤ 0xfffd) || 0x10000 ≤ n

/-- The characters that end a line. -/
def isBreak (c : Char) : Bool :=
  c == '\n' || c == '\r' || c == '\u0085' || c == '\u2028' || c == '\u2029'

/-- The break that stands in a folded text for one that was written. -/
def unifiedBreak (c : Char) : Char :=
  if c == '\u2028' || c == '\u2029' then c else '\n'

/-- Space and tab. -/
def isSpace (c : Char) : Bool :=
  c == ' ' || c == '\t'

/-- Whether a word ends before what comes next. -/
def endsWord : List Char → Bool
  | [] => true
  | c :: _ => isSpace c || isBreak c

/-- Whether a line begins with three marks and nothing else in the word. -/
def isMarker (mark : Char) : List Char → Bool
  | a :: b :: c :: rest => a == mark && b == mark && c == mark && endsWord rest
  | _ => false

/-- Whether a line begins with the mark that starts or ends a document. -/
def startsMarker (cs : List Char) : Bool :=
  isMarker '-' cs || isMarker '.' cs

/-- A place in a text. -/
structure Cursor where
  rest : List Char
  left : Nat
  index : Nat := 0
  line : Nat := 0
  column : Nat := 0
  deriving Inhabited

namespace Cursor

/-- The beginning of a text. -/
def start (cs : List Char) : Cursor where
  rest := cs
  left := cs.length

/-- The place after the next character. A byte order mark takes up no column. -/
def next (c : Cursor) : Cursor :=
  match c.rest with
  | [] => c
  | ch :: rest =>
    let behind := { c with rest, left := c.left - 1, index := c.index + 1 }
    if isBreak ch then { behind with line := c.line + 1, column := 0 }
    else if ch == '\ufeff' then behind
    else { behind with column := c.column + 1 }

/-- The place a number of characters further on. -/
def advance : Nat → Cursor → Cursor
  | 0, c => c
  | n + 1, c => advance n c.next

end Cursor

/-- What several breaks in a row stand for inside a scalar: a single line feed is a space, and of
more than one the first counts for nothing. -/
def folded (first : Char) (more : List Char) : List Char :=
  if unifiedBreak first != '\n' then unifiedBreak first :: more
  else if more.isEmpty then [' ']
  else more

end SheetCalc.Yaml
