import SheetCalc.Text.Hex
import SheetCalc.Value
import SheetCalc.Yaml.Cursor

/-!
# What plain scalars mean

A plain scalar is nothing, a truth value, an integer or a float if it is written like one, and a
text otherwise. An integer may have a base other than ten, which shows at its beginning; low lines
may stand anywhere behind the first digit. A float has a point, and a sign in its exponent if it has
one.
-/

namespace SheetCalc.Yaml

/-- The texts that stand for nothing. -/
def nullNames : List String := ["", "~", "null", "Null", "NULL"]

/-- The texts that stand for a truth value. -/
def boolNames : List (String × Bool) :=
  [("yes", true), ("Yes", true), ("YES", true), ("no", false), ("No", false), ("NO", false),
   ("true", true), ("True", true), ("TRUE", true), ("false", false), ("False", false),
   ("FALSE", false), ("on", true), ("On", true), ("ON", true), ("off", false), ("Off", false),
   ("OFF", false)]

/-- The texts that stand for themselves as a key and for nothing at all elsewhere. -/
def valueSign : String := "="

/-- The text that stands for the entries of another mapping. -/
def mergeSign : String := "<<"

/-- Whether a text is made of digits of a base and low lines. -/
def isNumeral (base : Nat) (cs : List Char) : Bool :=
  cs.all fun c => c == '_' || (Text.hexValue? c).any (· < base)

/-- The number that digits of a base stand for, low lines left out. -/
def numeralValue (base : Nat) (cs : List Char) : Nat :=
  cs.foldl (fun v c => if c == '_' then v else base * v + (Text.hexValue? c).getD 0) 0

/-- How many digits there are among digits and low lines. -/
def digitCount (cs : List Char) : Nat :=
  cs.countP (· != '_')

/-- An integer in a base that shows at its beginning. -/
def readBase (base : Nat) (cs : List Char) : Option (Except Error Nat) :=
  if cs.isEmpty || !isNumeral base cs then none
  else if digitCount cs = 0 then some (.error (.noDigits base))
  else some (.ok (numeralValue base cs))

/-- An integer in base eight behind a zero. -/
def readOctal (cs : List Char) : Option (Except Error Nat) :=
  if isNumeral 8 cs then some (.ok (numeralValue 8 cs)) else none

/-- An integer in base ten. -/
def readDecimal (cs : List Char) : Option (Except Error Nat) :=
  if !isNumeral 10 cs then none
  else if Decimal.digitLimit < digitCount cs then some (.error (.tooLong (digitCount cs)))
  else some (.ok (numeralValue 10 cs))

/-- An integer without its sign. -/
def readUnsigned : List Char → Option (Except Error Nat)
  | '0' :: 'b' :: cs => readBase 2 cs
  | '0' :: 'x' :: cs => readBase 16 cs
  | '0' :: cs => readOctal cs
  | c :: cs => if Text.isDigit c then readDecimal (c :: cs) else none
  | [] => none

/-- An integer, if a text is written like one. -/
def readInteger (cs : List Char) : Option (Except Error Int) :=
  let (negative, cs) := Decimal.splitSign cs
  (readUnsigned cs).map fun n => n.map fun n => if negative then -(n : Int) else n

/-- Whether a text is an exponent with a sign, or nothing. -/
def isExponent : List Char → Bool
  | [] => true
  | e :: sign :: ds =>
    (e == 'e' || e == 'E') && (sign == '+' || sign == '-') && !ds.isEmpty && ds.all Text.isDigit
  | _ => false

/-- Whether a character is a digit or a low line. -/
def isGrouped (c : Char) : Bool :=
  Text.isDigit c || c == '_'

/-- Whether a text is a point with a fraction and an exponent behind it, where `bare` says that
nothing stands before the point. -/
def isFraction (bare : Bool) : List Char → Bool
  | '.' :: cs =>
    (!bare || cs.head?.any Text.isDigit) && isExponent (cs.dropWhile isGrouped)
  | _ => false

/-- Whether a text is written like a float with digits. A float that begins with its point has no
sign. -/
def isDecimal (cs : List Char) : Bool :=
  let (_, body) := Decimal.splitSign cs
  if body.head?.any Text.isDigit then isFraction false (body.dropWhile isGrouped)
  else isFraction true cs

/-- The names of infinity. -/
def infinityNames : List String := [".inf", ".Inf", ".INF"]

/-- The names of what is not a number. -/
def nanNames : List String := [".nan", ".NaN", ".NAN"]

/-- A float, if a text is written like one. -/
def readFloat? (cs : List Char) : Option Float :=
  let (negative, body) := Decimal.splitSign cs
  if infinityNames.contains (String.ofList body) then some (if negative then -1 / 0 else 1 / 0)
  else if nanNames.contains (String.ofList cs) then some (0 / 0)
  else if isDecimal cs then Decimal.readFloat? (cs.filter (· != '_'))
  else none

/-- The value of a plain scalar. -/
def plainValue (cs : List Char) : Except Error Value :=
  let s := String.ofList cs
  if nullNames.contains s then .ok .null
  else
    match boolNames.lookup s, readInteger cs, readFloat? cs with
    | some b, _, _ => .ok (.bool b)
    | none, some n, _ => n.map .int
    | none, none, some x => .ok (.float x)
    | none, none, none =>
      if s = valueSign ∨ s = mergeSign then .error .malformed else .ok (.text s)

end SheetCalc.Yaml
