import SheetCalc.Text

/-!
# Paths

A path is the names on the way from a directory to a file. Empty names and single dots lead nowhere
and are left out, so paths that differ in nothing else are equal. A name of two dots leads back and
is kept, since what is in front of it has to be there. A text is cut up at its slashes, and
`joined_parts` says that nothing else is lost.
-/

namespace SheetCalc

/-- The directory that a path begins at: the present one or the root of all directories. Two slashes
in front name a root of their own, three and more name the usual one. -/
inductive Path.Origin where
  | here
  | root
  | otherRoot
  deriving DecidableEq, Repr, Inhabited

/-- A path. -/
structure Path where
  origin : Path.Origin := .here
  names : List Text := []
  deriving DecidableEq, Repr, Inhabited

namespace Path

/-- What stands between two names. -/
def slash : CodePoint := .ofChar '/'

/-- A slash as a text. -/
def separator : Text := ⟨[slash]⟩

/-- The name that leads nowhere. -/
def dot : Text := "."

/-- The name that leads back. -/
def dots : Text := ".."

/-- The parts between slashes, where the part that has begun is given backwards. -/
def partsFrom (begun : List CodePoint) : List CodePoint → List Text
  | [] => [⟨begun.reverse⟩]
  | p :: rest =>
    if p == slash then ⟨begun.reverse⟩ :: partsFrom [] rest else partsFrom (p :: begun) rest

/-- The parts of a text between slashes. -/
def parts (t : Text) : List Text :=
  partsFrom [] t.points

theorem partsFrom_ne_nil (begun ps : List CodePoint) : partsFrom begun ps ≠ [] := by
  induction ps generalizing begun with
  | nil => simp [partsFrom]
  | cons p rest ih =>
    rw [partsFrom]
    split
    · simp
    · exact ih _

theorem points_joined_partsFrom (begun ps : List CodePoint) :
    (Text.joined separator (partsFrom begun ps)).points = begun.reverse ++ ps := by
  induction ps generalizing begun with
  | nil => simp [partsFrom, Text.joined]
  | cons p rest ih =>
    rw [partsFrom]
    split
    · have between : p = slash := by simpa using ‹(p == slash) = true›
      have behind := ih []
      cases others : partsFrom [] rest with
      | nil => exact absurd others (partsFrom_ne_nil [] rest)
      | cons t ts =>
        rw [others] at behind
        rw [Text.joined, Text.points_append, Text.points_append, behind]
        · simp [separator, between]
        · exact List.cons_ne_nil t ts
    · simp [ih (p :: begun)]

/-- The parts of a text with slashes between them are the text. -/
theorem joined_parts (t : Text) : Text.joined separator (parts t) = t := by
  have whole := points_joined_partsFrom [] t.points
  exact Text.ext_points whole

/-- Whether a part leads nowhere. -/
def isIdle (part : Text) : Bool :=
  part.isEmpty || part == dot

/-- Where the path begins that a text names. -/
def Origin.ofText (t : Text) : Origin :=
  match t.points.takeWhile (· == slash) with
  | [] => .here
  | [_, _] => .otherRoot
  | _ => .root

/-- What stands in front of the names of a path. -/
def Origin.text : Origin → Text
  | .here => {}
  | .root => separator
  | .otherRoot => separator ++ separator

/-- Reads a path. -/
def ofText (t : Text) : Path where
  origin := .ofText t
  names := (parts t).filter fun part => !isIdle part

/-- A path as text; the present directory is a single dot. -/
def text (p : Path) : Text :=
  if p.origin = .here ∧ p.names.isEmpty then dot
  else p.origin.text ++ Text.joined separator p.names

/-- The path that goes on with a name. -/
def child (p : Path) (name : Text) : Path :=
  { p with names := p.names ++ [name] }

/-- The path without its last name. -/
def parent (p : Path) : Path :=
  { p with names := p.names.dropLast }

end Path

end SheetCalc
