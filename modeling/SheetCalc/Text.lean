/-!
# Text

A text is a row of code points. Most code points are characters; those from `0xd800` to `0xdfff` are
halves of the pairs in which UTF-16 writes the characters beyond the first plane, and a document may
name such a half by itself. A `String` holds characters alone: `Text.toString?_ofString` says that
every string is a text, and a text with a half in it is no string.
-/

namespace SheetCalc

/-- A code point: a character, or half of a pair. -/
structure CodePoint where
  val : Nat
  isLt : val < 0x110000
  deriving DecidableEq, Repr

namespace CodePoint

/-- The code point of a character. -/
def ofChar (c : Char) : CodePoint where
  val := c.toNat
  isLt := by
    have h := c.valid
    simp only [UInt32.isValidChar, Nat.isValidChar] at h
    show c.val.toNat < 0x110000
    omega

/-- The character that a code point is, unless it is half of a pair. -/
def toChar? (p : CodePoint) : Option Char :=
  if h : p.val.isValidChar then some (Char.ofNatAux p.val h) else none

/-- The code point with a given number. -/
def ofNat? (n : Nat) : Option CodePoint :=
  if h : n < 0x110000 then some ⟨n, h⟩ else none

instance : Inhabited CodePoint := ⟨ofChar default⟩

@[simp] theorem toChar?_ofChar (c : Char) : (ofChar c).toChar? = some c := by
  have h : (ofChar c).val.isValidChar := c.valid
  rw [toChar?, dif_pos h]
  rfl

end CodePoint

/-- A text. -/
structure Text where
  points : List CodePoint := []
  deriving DecidableEq, Repr, Inhabited

namespace Text

/-- The text of characters. -/
def ofChars (cs : List Char) : Text :=
  ⟨cs.map CodePoint.ofChar⟩

/-- A string as a text. -/
def ofString (s : String) : Text :=
  ofChars s.toList

instance : Coe String Text := ⟨ofString⟩

/-- The characters of a text, if it has no half of a pair in it. -/
def chars? (t : Text) : Option (List Char) :=
  t.points.mapM CodePoint.toChar?

/-- The characters of a text, with a replacement for halves of pairs. -/
def chars (t : Text) : List Char :=
  t.points.map fun p => p.toChar?.getD '\ufffd'

/-- A text as a string, if it has no half of a pair in it. -/
def toString? (t : Text) : Option String :=
  t.chars?.map String.ofList

/-- One text behind another. -/
def append (t u : Text) : Text :=
  ⟨t.points ++ u.points⟩

instance : Append Text := ⟨append⟩

/-- The number of code points in a text. -/
def length (t : Text) : Nat :=
  t.points.length

/-- Whether there is nothing in a text. -/
def isEmpty (t : Text) : Bool :=
  t.points.isEmpty

/-- The first code points of a text, of which a number is kept. -/
def take (n : Nat) (t : Text) : Text :=
  ⟨t.points.take n⟩

/-- Whether a row of code points comes before another or is the same: the first two that differ
decide, and the beginning of a row comes before it. -/
def pointsLe : List CodePoint → List CodePoint → Bool
  | [], _ => true
  | _ :: _, [] => false
  | p :: ps, q :: qs => p.val < q.val || (p == q && pointsLe ps qs)

/-- Whether a text comes before another in the order of their code points, or is the same. -/
def le (t u : Text) : Bool :=
  pointsLe t.points u.points

/-- Texts with another one between each two of them. -/
def joined (between : Text) : List Text → Text
  | [] => ⟨[]⟩
  | [t] => t
  | t :: ts => t ++ between ++ joined between ts

@[simp] theorem points_append (t u : Text) : (t ++ u).points = t.points ++ u.points := rfl

theorem ext_points {t u : Text} (h : t.points = u.points) : t = u := by
  cases t
  cases u
  exact congrArg Text.mk h

@[simp] theorem chars?_ofChars (cs : List Char) : (ofChars cs).chars? = some cs := by
  induction cs with
  | nil => rfl
  | cons c cs ih =>
    simp only [chars?, ofChars] at ih ⊢
    simp [ih]

@[simp] theorem chars_ofChars (cs : List Char) : (ofChars cs).chars = cs := by
  simp [chars, ofChars, Function.comp_def]

@[simp] theorem toString?_ofString (s : String) : (ofString s).toString? = some s := by
  simp [toString?, ofString]

end Text

end SheetCalc
