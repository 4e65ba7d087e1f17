/-!
# Blanks

Three classes of characters that count as blank space. `isAsciiBlank` holds the six blanks of ASCII,
`isWideBlank` the blanks beyond it, and `isBlank` both of them and the four information separators.
A numeral may stand between blanks of the first two classes; a line of the journal that holds
nothing but blanks of the third is skipped.
-/

namespace SheetCalc.Text

/-- Tab, line feed, vertical tab, form feed, carriage return and space. -/
def isAsciiBlank (c : Char) : Bool :=
  c.toNat == 0x20 || (0x09 ≤ c.toNat && c.toNat ≤ 0x0d)

/-- The blanks beyond ASCII: next line, the spaces of various widths, and the line and paragraph
separators. -/
def isWideBlank (c : Char) : Bool :=
  let n := c.toNat
  n == 0x85 || n == 0xa0 || n == 0x1680 || (0x2000 ≤ n && n ≤ 0x200a) || n == 0x2028 ||
    n == 0x2029 || n == 0x202f || n == 0x205f || n == 0x3000

/-- The four information separators of ASCII: file, group, record and unit. -/
def isSeparator (c : Char) : Bool :=
  0x1c ≤ c.toNat && c.toNat ≤ 0x1f

/-- Any blank at all. -/
def isBlank (c : Char) : Bool :=
  isAsciiBlank c || isWideBlank c || isSeparator c

/-- What is left of a text when the characters of a class are taken off both of its ends. -/
def strip (p : Char → Bool) (cs : List Char) : List Char :=
  ((cs.dropWhile p).reverse.dropWhile p).reverse

end SheetCalc.Text
