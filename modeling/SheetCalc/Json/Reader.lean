import SheetCalc.Decimal.Numeral
import SheetCalc.Entries
import SheetCalc.Json.Quoted
import SheetCalc.Value

/-!
# Reading JSON

`Json.read` reads a text as one value. Beyond the standard, the names of the floats that are not
finite are read. Of entries with the same key the last one counts. A number is an integer if it has
neither a fraction nor an exponent.

How many brackets may stand inside each other (`depthLimit`) depends on what is left of the stack,
for what is read and for what is written. The limit is about that of a call close to the bottom of
the stack: from deeper in it fewer brackets can be read, and the name of a float that is not finite
takes one level more than a number does.
-/

namespace SheetCalc.Json

/-- Why a text is not read. -/
inductive ReadError where
  | malformed
  | tooLong (count : Nat)
  /-- Brackets in it stand in too many others. -/
  | tooDeep
  deriving DecidableEq, Repr, Inhabited

/-- About how many brackets can stand inside each other. -/
def depthLimit : Nat := 990

/-- The characters that may stand between the parts of a text. -/
def isBlank (c : Char) : Bool :=
  c == ' ' || c == '\t' || c == '\n' || c == '\r'

/-- A text without the blanks in front of it. -/
def skipBlanks (cs : List Char) : List Char :=
  cs.dropWhile isBlank

/-- The digits of a whole number in front of a text; behind a leading zero there are none. -/
def wholeDigits : List Char → List Char × List Char
  | '0' :: rest => (['0'], rest)
  | cs => cs.span Text.isDigit

/-- A point and digits in front of a text, if there are digits. -/
def fractionDigits : List Char → List Char × List Char
  | '.' :: rest =>
    let (ds, behind) := rest.span Text.isDigit
    if ds.isEmpty then ([], '.' :: rest) else (ds, behind)
  | cs => ([], cs)

/-- An exponent in front of a text, if it has digits. -/
def exponent? : List Char → Option (Int × List Char)
  | [] => none
  | e :: rest =>
    if e == 'e' || e == 'E' then
      let (negative, rest) := Decimal.splitSign rest
      let (ds, behind) := rest.span Text.isDigit
      let n : Int := Decimal.valueOf ds
      if ds.isEmpty then none else some (if negative then -n else n, behind)
    else none

/-- The number in front of a text. -/
def readNumber (cs : List Char) : Except ReadError (Value × List Char) :=
  let (negative, cs) := match cs with
    | '-' :: rest => (true, rest)
    | cs => (false, cs)
  let (whole, rest) := wholeDigits cs
  if whole.isEmpty then .error .malformed
  else
    let (fraction, rest) := fractionDigits rest
    match exponent? rest with
    | some (e, rest) => .ok (float negative whole fraction e, rest)
    | none =>
      if !fraction.isEmpty then .ok (float negative whole fraction 0, rest)
      else if Decimal.digitLimit < whole.length then .error (.tooLong whole.length)
      else
        let n : Int := Decimal.valueOf whole
        .ok (.int (if negative then -n else n), rest)
where
  /-- The float with given digits and a given exponent. -/
  float (negative : Bool) (whole fraction : List Char) (e : Int) : Value :=
    .float (Decimal.Numeral.decimal negative (Decimal.valueOf (whole ++ fraction))
      (e - fraction.length)).toFloat

/-- The names of values. -/
def names : List (String × Value) :=
  [("null", .null), ("true", .bool true), ("false", .bool false), ("NaN", .float (0 / 0)),
   ("Infinity", .float (1 / 0)), ("-Infinity", .float (-1 / 0))]

/-- The named value in front of a text, if there is one. -/
def readName? (cs : List Char) : Option (Value × List Char) :=
  (names.find? fun (name, _) => name.toList.isPrefixOf cs).map fun (name, v) =>
    (v, cs.drop name.length)

mutual

/-- The value in front of a text, where a number of steps and of levels is left. Of two steps one at
least takes a character. -/
def readValue : Nat → Nat → List Char → Except ReadError (Value × List Char)
  | 0, _, _ => .error .malformed
  | n + 1, depth, cs =>
    match cs with
    | [] => .error .malformed
    | c :: rest =>
      if c == '\x22' then
        match readQuoted? [] rest with
        | some (s, rest) => .ok (.text s, rest)
        | none => .error .malformed
      else if c == '[' || c == '\x7b' then
        match depth with
        | 0 => .error .tooDeep
        | depth + 1 =>
          if c == '[' then
            match skipBlanks rest with
            | ']' :: rest => .ok (.list [], rest)
            | rest => (readItems n depth [] rest).map fun (vs, rest) => (.list vs, rest)
          else
            match skipBlanks rest with
            | '\x7d' :: rest => .ok (.mapping [], rest)
            | rest => (readEntries n depth [] rest).map fun (es, rest) => (.mapping es, rest)
      else
        match readName? cs with
        | some found => .ok found
        | none => readNumber cs

/-- The items of a list and its end, behind those already read, the last one first. -/
def readItems : Nat → Nat → List Value → List Char → Except ReadError (List Value × List Char)
  | 0, _, _, _ => .error .malformed
  | n + 1, depth, done, cs =>
    match readValue n depth cs with
    | .error e => .error e
    | .ok (v, rest) =>
      match skipBlanks rest with
      | ',' :: rest => readItems n depth (v :: done) (skipBlanks rest)
      | ']' :: rest => .ok ((v :: done).reverse, rest)
      | _ => .error .malformed

/-- The entries of a mapping and its end, behind those already read. -/
def readEntries : Nat → Nat → Entries Key Value → List Char →
    Except ReadError (Entries Key Value × List Char)
  | 0, _, _, _ => .error .malformed
  | n + 1, depth, done, cs =>
    match readKey? cs with
    | none => .error .malformed
    | some (k, rest) =>
      match readValue n depth rest with
      | .error e => .error e
      | .ok (v, rest) =>
        let done := done.put (.text k) v
        match skipBlanks rest with
        | ',' :: rest => readEntries n depth done (skipBlanks rest)
        | '\x7d' :: rest => .ok (done, rest)
        | _ => .error .malformed

/-- The key in front of a text and the colon behind it. -/
def readKey? : List Char → Option (Text × List Char)
  | '\x22' :: rest =>
    match readQuoted? [] rest with
    | none => none
    | some (k, rest) =>
      match skipBlanks rest with
      | ':' :: rest => some (k, skipBlanks rest)
      | _ => none
  | _ => none

end

/-- Reads a text as a value. -/
def read (cs : List Char) : Except ReadError Value :=
  match readValue (2 * cs.length + 2) depthLimit (skipBlanks cs) with
  | .error e => .error e
  | .ok (v, rest) => if (skipBlanks rest).isEmpty then .ok v else .error .malformed

end SheetCalc.Json
