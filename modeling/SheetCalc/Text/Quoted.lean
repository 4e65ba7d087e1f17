import SheetCalc.Text
import SheetCalc.Text.Hex
import SheetCalc.Text.Printable

/-!
# Quoted text

How a text is shown inside a message: between quotation marks, with a backslash in front of what
could be misread and a numeric escape for what has no shape. The marks are single unless the text
holds a single one and no double one.
-/

namespace SheetCalc.Text

/-- The single quotation mark. -/
def singleMark : Char := '\x27'

/-- The double quotation mark. -/
def doubleMark : Char := '\x22'

/-- Whether a character stands in a text. -/
def has (t : Text) (c : Char) : Bool :=
  t.points.contains (CodePoint.ofChar c)

/-- The mark that a text is shown between. -/
def quotationMark (t : Text) : Char :=
  if t.has singleMark && !t.has doubleMark then doubleMark else singleMark

/-- A code point in two, four or eight digits of base sixteen, whichever are the fewest that do. -/
def numericEscape (n : Nat) : List Char :=
  if n < 0x100 then '\\' :: 'x' :: hex 2 n
  else if n < 0x10000 then '\\' :: 'u' :: hex 4 n
  else '\\' :: 'U' :: hex 8 n

/-- A code point as it stands between two marks. Half of a pair has no shape. -/
def escape (mark : Char) (p : CodePoint) : List Char :=
  match p.toChar? with
  | none => numericEscape p.val
  | some c =>
    if c == mark || c == '\\' then ['\\', c]
    else if c == '\n' then ['\\', 'n']
    else if c == '\r' then ['\\', 'r']
    else if c == '\t' then ['\\', 't']
    else if isPrintable c then [c]
    else numericEscape p.val

/-- A text between quotation marks. -/
def quoted (t : Text) : String :=
  let mark := quotationMark t
  String.ofList (mark :: t.points.flatMap (escape mark) ++ [mark])

/-- A text with the halves of pairs in it written as in a quoted one, and nothing else changed. -/
def escapingHalves (t : Text) : String :=
  String.ofList (t.points.flatMap fun p => (p.toChar?.map ([·])).getD (numericEscape p.val))

end SheetCalc.Text
