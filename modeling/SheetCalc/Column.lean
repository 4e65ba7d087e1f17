import SheetCalc.Text

/-!
# Columns

Columns are counted from zero and named by letters: `A` to `Z`, then `AA` to `ZZ`, then `AAA`. The
letters are a numeral in base 26 whose digits run from one to 26, so that there is no zero digit.
-/

namespace SheetCalc.Column

/-- The letter with a given place in the alphabet, counted from zero. -/
def letter (n : Nat) : Char :=
  Char.ofNat (0x41 + n)

/-- Whether a character is one of the letters from `A` to `Z`. -/
def isLetter (c : Char) : Bool :=
  0x41 ≤ c.toNat && c.toNat ≤ 0x5a

/-- The numeral of a number; zero has no digit at all. -/
def numeral : Nat → List Char
  | 0 => []
  | n + 1 => numeral (n / 26) ++ [letter (n % 26)]
termination_by n => n
decreasing_by omega

/-- The letters of the column with a given index. There are none before the first column. -/
def letters (index : Int) : List Char :=
  numeral (index + 1).toNat

/-- The number that letters stand for. Any other code point counts by its distance from `A`. -/
def value (letters : Text) : Int :=
  letters.points.foldl (fun v p => v * 26 + ((p.val : Int) - 0x41 + 1)) 0

/-- The index of the column that letters name. -/
def index (letters : Text) : Int :=
  value letters - 1

end SheetCalc.Column
