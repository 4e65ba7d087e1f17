import SheetCalc.Entries
import SheetCalc.Path
import SheetCalc.Text.Lines
import SheetCalc.Text.Utf8

/-!
# Files and directories

The files that a program finds and leaves behind: a table from places to what is there, a directory
or a file with its bytes. A place is given by the names on the way from the root. `resolve` follows
a text from name to name to the place that it leads to: every name but the last has to lead to a
directory, and so has the last one if a slash or a dot comes behind it. A change of several steps
that fails leaves what its first steps have done (`FileChange`).

Directories are made by one call inside the other, so how many can be missing on the way
(`levelLimit`) depends on what is left of the stack. The limit is about that of a call close to its
bottom.
-/

namespace SheetCalc

/-- What stands at a place. -/
inductive FileNode where
  | dir
  | file (bytes : List UInt8)
  deriving Inhabited

/-- The number of bytes in a file. -/
def FileNode.size : FileNode → Nat
  | .dir => 0
  | .file bytes => bytes.length

/-- Why a file or a directory is not accessed. -/
inductive FileError where
  | notFound
  /-- The path leads through a file. -/
  | notADirectory
  | isADirectory
  | alreadyThere (path : Path)
  | nameTooLong
  | zeroInPath
  | notEncodable
  /-- Too many directories are missing on the way. -/
  | tooDeep
  deriving DecidableEq, Repr, Inhabited

/-- A place: the names on the way from the root. -/
abbrev Place := List Text

/-- The files and directories that there are, and the place of the present directory. -/
structure Files where
  here : Place := []
  nodes : Entries Place FileNode := []
  deriving Inhabited

namespace Files

/-! ## From a text to a place -/

/-- Whether half of a pair stands for a byte that is no character of its own. -/
def isLooseByte (p : CodePoint) : Bool :=
  0xdc80 ≤ p.val && p.val ≤ 0xdcff

/-- The number of bytes of a code point in a path. -/
def byteCount (p : CodePoint) : Nat :=
  if p.val < 0x80 || isLooseByte p then 1
  else if p.val < 0x800 then 2
  else if p.val < 0x10000 then 3
  else 4

/-- The number of bytes of a text in a path. -/
def byteLength (t : Text) : Nat :=
  t.points.foldl (fun n p => n + byteCount p) 0

/-- A name has no more bytes than this. -/
def nameLimit : Nat := 255

/-- A path has fewer bytes than this. -/
def pathLimit : Nat := 4096

/-- What stands at a place. The present directory and those that it is in are always there. -/
def at? (fs : Files) (place : Place) : Option FileNode :=
  if place.isPrefixOf fs.here then some .dir else fs.nodes.get? place

/-- The place that the parts of a text lead to from another one. -/
def walk (fs : Files) (place : Place) : List Text → Except FileError Place
  | [] => .ok place
  | part :: rest =>
    match fs.at? place with
    | none => .error .notFound
    | some (.file _) => .error .notADirectory
    | some .dir =>
      if Path.isIdle part then walk fs place rest
      else if part == Path.dots then walk fs place.dropLast rest
      else if nameLimit < byteLength part then .error .nameTooLong
      else walk fs (place ++ [part]) rest

/-- The places that a text leads through from another one if there are directories at all of them.
-/
def stations (place : Place) : List Text → List Place
  | [] => []
  | part :: rest =>
    let place :=
      if Path.isIdle part then place
      else if part == Path.dots then place.dropLast
      else place ++ [part]
    place :: stations place rest

/-- Where the way begins that a text leads. -/
def startOf (fs : Files) (t : Text) : Place :=
  if Path.Origin.ofText t = .here then fs.here else []

/-- Why a text is no path at all. -/
def flaw? (t : Text) : Option FileError :=
  if t.points.any fun p => p.toChar?.isNone && !isLooseByte p then some .notEncodable
  else if t.points.any (·.val == 0) then some .zeroInPath
  else if t.isEmpty then some .notFound
  else if pathLimit ≤ byteLength t then some .nameTooLong
  else none

/-- The place that a text leads to. There may be nothing at the place, but its directory is there.
-/
def resolve (fs : Files) (t : Text) : Except FileError Place :=
  match flaw? t with
  | some e => .error e
  | none => fs.walk (fs.startOf t) (Path.parts t)

/-- What a text leads to. -/
def find (fs : Files) (t : Text) : Except FileError FileNode := do
  match fs.at? (← fs.resolve t) with
  | some node => return node
  | none => throw .notFound

/-- Whether there is anything at a path. -/
def has (fs : Files) (p : Path) : Except FileError Bool :=
  match fs.find p.text with
  | .ok _ => .ok true
  | .error .nameTooLong => .error .nameTooLong
  | .error _ => .ok false

/-! ## Reading and writing -/

/-- The bytes of the file at a path. -/
def read (fs : Files) (p : Path) : Except FileError (List UInt8) := do
  match ← fs.find p.text with
  | .file bytes => return bytes
  | .dir => throw .isADirectory

/-- The text of the file at a path, every line ending in a line feed. -/
def readText (fs : Files) (p : Path) : Except FileError (List Char) :=
  (fs.read p).map fun bytes => Text.unifyBreaks (Text.Utf8.decode bytes)

/-- Puts a file at a path in place of the one that is there, from the bytes of which its own come.
-/
def change (fs : Files) (p : Path) (f : List UInt8 → List UInt8) : Except FileError Files := do
  let place ← fs.resolve p.text
  match fs.at? place with
  | some .dir => throw .isADirectory
  | some (.file bytes) => return { fs with nodes := fs.nodes.put place (.file (f bytes)) }
  | none => return { fs with nodes := fs.nodes.put place (.file (f [])) }

/-- Puts bytes into the file at a path, which is made if there is none. -/
def write (fs : Files) (p : Path) (bytes : List UInt8) : Except FileError Files :=
  fs.change p fun _ => bytes

/-- Puts characters into the file at a path. -/
def writeText (fs : Files) (p : Path) (cs : List Char) : Except FileError Files :=
  fs.write p (Text.Utf8.encode cs)

/-- Adds bytes at the end of the file at a path, which is made if there is none. -/
def append (fs : Files) (p : Path) (bytes : List UInt8) : Except FileError Files :=
  fs.change p (· ++ bytes)

/-! ## Directories -/

/-- Makes a directory, unless there is one. -/
def makeDir (fs : Files) (p : Path) : Except FileError Files := do
  let place ← fs.resolve p.text
  match fs.at? place with
  | some .dir => return fs
  | some (.file _) => throw (.alreadyThere p)
  | none => return { fs with nodes := fs.nodes.put place .dir }

/-- A directory that is made is put where there is nothing. -/
theorem makeDir_ok {fs after : Files} {p : Path} (made : fs.makeDir p = .ok after) :
    after = fs ∨ ∃ place, fs.at? place = none ∧
      after = { fs with nodes := fs.nodes.put place .dir } := by
  unfold makeDir at made
  cases leads : fs.resolve p.text with
  | error e =>
    rw [leads] at made
    cases made
  | ok place =>
    rw [leads] at made
    simp only [bind, Except.bind] at made
    cases there : fs.at? place with
    | none =>
      rw [there] at made
      cases made
      exact .inr ⟨place, there, rfl⟩
    | some node =>
      rw [there] at made
      cases node <;> cases made
      exact .inl rfl

theorem makeDir_keeps {fs after : Files} {p : Path} (made : fs.makeDir p = .ok after)
    {place : Place} {node : FileNode} (there : fs.at? place = some node) :
    after.at? place = some node := by
  obtain rfl | ⟨target, none_there, rfl⟩ := makeDir_ok made
  · exact there
  · have apart : place ≠ target := by
      rintro rfl
      rw [none_there] at there
      cases there
    simp only [at?, Entries.get?_put_of_ne apart] at there ⊢
    exact there

end Files

/-! ## Changes of several steps -/

/-- A change of the files. When a step of it fails, the steps before it stay done. -/
abbrev FileChange (ε α : Type) := ExceptT ε (StateM Files) α

namespace FileChange

/-- A question, by which nothing is changed. -/
def ask {ε α : Type} (f : Files → Except ε α) : FileChange ε α := do
  match f (← get) with
  | .ok a => return a
  | .error e => throw e

/-- A single step: it is done or the files stay as they are. -/
def step (f : Files → Except FileError Files) : FileChange FileError Unit := do
  match f (← get) with
  | .ok fs => set fs
  | .error e => throw e

/-- About how many directories can be made at once. -/
def levelLimit : Nat := 970

/-- Makes a directory and, if it cannot be made without them, the directories on the way to it, of
which a number can be made. -/
def makeDirsWithin : Nat → Path → FileChange FileError Unit
  | 0, _ => throw .tooDeep
  | n + 1, p => do
    match (← get).makeDir p with
    | .ok fs => set fs
    | .error .notFound =>
      if p.names.isEmpty then throw .notFound
      makeDirsWithin n p.parent
      step (·.makeDir p)
    | .error e => throw e

/-- Makes a directory and the directories on the way to it, unless they are there. -/
def makeDirs (p : Path) : FileChange FileError Unit :=
  makeDirsWithin levelLimit p

/-! ## What a change leaves -/

/-- A change goes on with the files that its first part leaves, if that does not fail. -/
theorem run_bind {ε α β : Type} (c : FileChange ε α) (next : α → FileChange ε β) (fs : Files) :
    (c >>= next).run fs = match c.run fs with
      | (.ok a, after) => (next a).run after
      | (.error e, after) => (.error e, after) := by
  have unfolded : (c >>= next).run fs =
      (ExceptT.bindCont next (c.run fs).1 : StateM Files (Except ε β)) (c.run fs).2 := rfl
  rw [unfolded]
  rcases c.run fs with ⟨_ | _, _⟩ <;> rfl

theorem run_step (f : Files → Except FileError Files) (fs : Files) :
    (step f).run fs = match f fs with
      | .ok after => (.ok (), after)
      | .error e => (.error e, fs) := by
  have unfolded : (step f).run fs =
      (match f fs with
        | .ok after => set after
        | .error e => throw e : FileChange FileError Unit).run fs := rfl
  rw [unfolded]
  cases f fs <;> rfl

/-- How directories are made: at once if that is possible, or else on top of the one they are in. -/
theorem run_makeDirsWithin (n : Nat) (p : Path) (fs : Files) :
    (makeDirsWithin (n + 1) p).run fs = match fs.makeDir p with
      | .ok after => (.ok (), after)
      | .error .notFound =>
        if p.names.isEmpty then (.error .notFound, fs)
        else
          match (makeDirsWithin n p.parent).run fs with
          | (.ok (), after) => (step (·.makeDir p)).run after
          | (.error e, after) => (.error e, after)
      | .error e => (.error e, fs) := by
  have unfolded : (makeDirsWithin (n + 1) p).run fs =
      (match fs.makeDir p with
        | .ok after => set after
        | .error .notFound => do
          if p.names.isEmpty then throw .notFound
          makeDirsWithin n p.parent
          step (·.makeDir p)
        | .error e => throw e : FileChange FileError Unit).run fs := rfl
  rw [unfolded]
  cases fs.makeDir p with
  | ok after => rfl
  | error e =>
    cases e <;> try rfl
    cases empty : p.names.isEmpty with
    | true => rfl
    | false =>
      refine (run_bind (makeDirsWithin n p.parent) (fun _ => step (·.makeDir p)) fs).trans ?_
      rcases (makeDirsWithin n p.parent).run fs with ⟨_ | _, _⟩ <;> rfl

theorem makeDirsWithin_preserves {P : Files → Prop}
    (one : ∀ {fs after : Files} {p : Path}, fs.makeDir p = .ok after → P fs → P after)
    (n : Nat) (p : Path) {fs : Files} (before : P fs) : P ((makeDirsWithin n p).run fs).2 := by
  induction n generalizing p with
  | zero => exact before
  | succ n ih =>
    rw [run_makeDirsWithin]
    cases made : fs.makeDir p with
    | ok after => exact one made before
    | error e =>
      have parent := ih p.parent
      -- Only for want of the parent is anything else made.
      cases e <;> try exact before
      dsimp only
      split
      · exact before
      · split
        · next after reached =>
          rw [reached] at parent
          rw [run_step]
          cases last : after.makeDir p with
          | ok done => exact one last parent
          | error e => exact parent
        · next e after stopped =>
          rw [stopped] at parent
          exact parent

/-- What holds when a single directory is made goes on holding when directories are made, also if
that fails. -/
theorem makeDirs_preserves {P : Files → Prop}
    (one : ∀ {fs after : Files} {p : Path}, fs.makeDir p = .ok after → P fs → P after)
    (p : Path) {fs : Files} (before : P fs) : P ((makeDirs p).run fs).2 :=
  makeDirsWithin_preserves one levelLimit p before

/-- Making directories leaves alone what is there, also when it fails. -/
theorem makeDirs_keeps (p : Path) {fs : Files} {place : Place} {node : FileNode}
    (there : fs.at? place = some node) : ((makeDirs p).run fs).2.at? place = some node :=
  makeDirs_preserves (P := fun fs => fs.at? place = some node)
    (fun made before => Files.makeDir_keeps made before) p there

end FileChange

end SheetCalc
