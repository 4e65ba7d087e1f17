import SheetCalc.Text.Hex
import SheetCalc.Text.Units

/-!
# Texts in JSON

A text stands between double quotes. What is not printable ASCII is written by its UTF-16 units, so
that a character beyond the first plane takes two escapes; reading puts such a pair together again
and leaves half of a pair as it is.
-/

namespace SheetCalc.Json

/-- An escape for a UTF-16 unit. -/
def unitEscape (n : Nat) : List Char :=
  '\\' :: 'u' :: Text.hex 4 n

/-- A code point as it stands between quotes. -/
def escape (p : CodePoint) : List Char :=
  let n := p.val
  if n = 0x22 then ['\\', '\x22']
  else if n = 0x5c then ['\\', '\\']
  else if n = 0x08 then ['\\', 'b']
  else if n = 0x09 then ['\\', 't']
  else if n = 0x0a then ['\\', 'n']
  else if n = 0x0c then ['\\', 'f']
  else if n = 0x0d then ['\\', 'r']
  else if 0x20 ≤ n ∧ n ≤ 0x7e then [Char.ofNat n]
  else (Text.unitsOf n).flatMap unitEscape

/-- A text between quotes. -/
def quoted (t : Text) : List Char :=
  '\x22' :: t.points.flatMap escape ++ ['\x22']

/-! ## Reading -/

/-- The character that an escape of one letter stands for. -/
def ofLetter? (c : Char) : Option Char :=
  if c = '\x22' then some '\x22'
  else if c = '\\' then some '\\'
  else if c = '/' then some '/'
  else if c = 'b' then some '\x08'
  else if c = 'f' then some '\x0c'
  else if c = 'n' then some '\n'
  else if c = 'r' then some '\r'
  else if c = 't' then some '\t'
  else none

/-- The unit that four digits stand for. -/
def unit? (cs : List Char) : Option Nat :=
  Text.hexNumber? 4 0 cs

/-- The second unit of a pair, if a text begins with the escape of one. -/
def lowUnit? : List Char → Option Nat
  | '\\' :: 'u' :: rest => (unit? rest).filter Text.isLow
  | _ => none

/-- What the escape after a backslash and a `u` stands for, and how long it is: four digits, or ten
characters if a second unit belongs to it. -/
def ofUnits? (cs : List Char) : Option (CodePoint × Nat) :=
  (unit? cs).bind fun n =>
    match (lowUnit? (cs.drop 4)).bind (Text.ofPair? n) with
    | some p => some (p, 10)
    | none => (CodePoint.ofNat? n).map (·, 4)

/-- Reads on behind the first quote of a text, to the one that ends it; the code points already read
are given backwards. Controls stand in a text only as escapes. -/
def readQuoted? (done : List CodePoint) : List Char → Option (Text × List Char)
  | [] => none
  | c :: rest =>
    if c = '\x22' then some (⟨done.reverse⟩, rest)
    else if c = '\\' then
      match rest with
      | [] => none
      | e :: rest =>
        if e = 'u' then
          match ofUnits? rest with
          | some (p, n) => readQuoted? (p :: done) (rest.drop n)
          | none => none
        else
          match ofLetter? e with
          | some d => readQuoted? (.ofChar d :: done) rest
          | none => none
    else if c.toNat < 0x20 then none
    else readQuoted? (.ofChar c :: done) rest
termination_by cs => cs.length
decreasing_by
  all_goals simp only [List.length_cons, List.length_drop]
  all_goals omega

end SheetCalc.Json
