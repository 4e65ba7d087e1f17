/-!
# Lines

`lines` cuts a text at every character that ends a line, the pair of carriage return and line feed
counting as one end. `unifyBreaks` is the gentler reading of a text file, in which a carriage
return, alone or before a line feed, is a line feed.
-/

namespace SheetCalc.Text

/-- The characters that end a line: line feed, vertical tab, form feed, carriage return, the file,
group and record separators, next line, and the line and paragraph separators. -/
def isLineEnd (c : Char) : Bool :=
  let n := c.toNat
  (0x0a ≤ n && n ≤ 0x0d) || (0x1c ≤ n && n ≤ 0x1e) || n == 0x85 || n == 0x2028 || n == 0x2029

/-- Goes on cutting a text behind the lines that are done, the last one first, and the beginning of
the next line, which is given backwards. -/
def linesAfter (done : List (List Char)) (begun : List Char) : List Char → List (List Char)
  | [] => (if begun.isEmpty then done else begun.reverse :: done).reverse
  | '\r' :: '\n' :: rest => linesAfter (begun.reverse :: done) [] rest
  | c :: rest =>
    if isLineEnd c then linesAfter (begun.reverse :: done) [] rest
    else linesAfter done (c :: begun) rest

/-- The lines of a text, without their ends. A text that ends with a line end has no empty line
after it. -/
def lines (cs : List Char) : List (List Char) :=
  linesAfter [] [] cs

/-- Goes on unifying line ends behind a text that is given backwards. -/
def unifyAfter (done : List Char) : List Char → List Char
  | [] => done.reverse
  | '\r' :: '\n' :: rest => unifyAfter ('\n' :: done) rest
  | c :: rest => unifyAfter ((if c == '\r' then '\n' else c) :: done) rest

/-- A text with every carriage return, or carriage return and line feed, as one line feed. -/
def unifyBreaks (cs : List Char) : List Char :=
  unifyAfter [] cs

end SheetCalc.Text
