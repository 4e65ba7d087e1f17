import Mathlib.Logic.Function.Basic
import SheetCalc.Files

/-!
# What a file holds

Adding bytes to a file leaves it with the bytes that it held before and the new ones behind them
(`holds_append`). The way to the file leads through directories alone, and neither a change of the
file nor the making of directories takes one of these away (`KeepsDirs`), so the path goes on
leading to the same place. No other file holds anything else then (`bytes?_append`,
`bytes?_makeDirs`).
-/

namespace SheetCalc

namespace Files

/-- A path leads to a file with given bytes. -/
def Holds (fs : Files) (p : Path) (bytes : List UInt8) : Prop :=
  ∃ place, fs.resolve p.text = .ok place ∧ fs.at? place = some (.file bytes)

theorem find_eq_ok {fs : Files} {t : Text} {place : Place} {node : FileNode}
    (leads : fs.resolve t = .ok place) (there : fs.at? place = some node) :
    fs.find t = .ok node := by
  simp only [find, leads, there, bind, Except.bind]
  rfl

theorem Holds.find {fs : Files} {p : Path} {bytes : List UInt8} (holds : fs.Holds p bytes) :
    fs.find p.text = .ok (.file bytes) := by
  obtain ⟨place, leads, there⟩ := holds
  exact find_eq_ok leads there

theorem Holds.read {fs : Files} {p : Path} {bytes : List UInt8} (holds : fs.Holds p bytes) :
    fs.read p = .ok bytes := by
  rw [Files.read, holds.find]
  rfl

theorem Holds.has {fs : Files} {p : Path} {bytes : List UInt8} (holds : fs.Holds p bytes) :
    fs.has p = .ok true := by
  rw [Files.has, holds.find]

theorem holds_of_read {fs : Files} {p : Path} {bytes : List UInt8} (read : fs.read p = .ok bytes) :
    fs.Holds p bytes := by
  unfold Files.read Files.find at read
  cases leads : fs.resolve p.text with
  | error e =>
      rw [leads] at read
      cases read
  | ok place =>
      rw [leads] at read
      cases there : fs.at? place with
      | none =>
          simp only [bind, Except.bind, there] at read
          cases read
      | some node =>
          simp only [bind, Except.bind, there] at read
          cases node with
          | dir => cases read
          | file bytes' =>
              cases read
              exact ⟨place, leads, there⟩

/-- Without a file there is nothing at the path. -/
theorem has_of_notFound {fs : Files} {p : Path} (none_there : fs.read p = .error .notFound) :
    fs.has p = .ok false := by
  unfold Files.read at none_there
  unfold Files.has
  cases found : fs.find p.text with
  | error e =>
      rw [found] at none_there
      cases none_there
      rfl
  | ok node =>
      rw [found] at none_there
      cases node <;> cases none_there

/-! ## Directories that stay -/

/-- All directories of some files are directories of others, and the present one is the same. -/
structure KeepsDirs (fs after : Files) : Prop where
  here : after.here = fs.here
  dirs : ∀ place, fs.at? place = some .dir → after.at? place = some .dir

section

variable {fs after : Files} (keeps : KeepsDirs fs after)

include keeps

theorem KeepsDirs.walk {start place : Place} {parts : List Text}
    (leads : fs.walk start parts = .ok place) : after.walk start parts = .ok place := by
  induction parts generalizing start with
  | nil => exact leads
  | cons part parts ih =>
      unfold Files.walk at leads ⊢
      cases there : fs.at? start with
      | none =>
          rw [there] at leads
          cases leads
      | some node =>
          rw [there] at leads
          -- The way goes on through directories alone, and these have stayed.
          cases node with
          | file bytes => cases leads
          | dir =>
              rw [keeps.dirs start there]
              simp only at leads ⊢
              split
              · next idle =>
                  rw [if_pos idle] at leads
                  exact ih leads
              · next idle =>
                  rw [if_neg idle] at leads
                  split
                  · next back =>
                      rw [if_pos back] at leads
                      exact ih leads
                  · next back =>
                      rw [if_neg back] at leads
                      split
                      · next long =>
                          rw [if_pos long] at leads
                          cases leads
                      · next long =>
                          rw [if_neg long] at leads
                          exact ih leads

/-- A path that leads to a place goes on leading there. -/
theorem KeepsDirs.resolve {t : Text} {place : Place} (leads : fs.resolve t = .ok place) :
    after.resolve t = .ok place := by
  have start : after.startOf t = fs.startOf t := by
    unfold startOf
    rw [keeps.here]
  unfold Files.resolve at leads ⊢
  cases flaw : flaw? t with
  | some e =>
      rw [flaw] at leads
      cases leads
  | none =>
      rw [flaw] at leads
      simp only [start] at leads ⊢
      exact keeps.walk leads

end

/-! ## Changing a file -/

/-- What putting a file where there is no directory leaves. -/
theorem put_file {fs : Files} {place : Place} (no_dir : fs.at? place ≠ some .dir)
    (bytes : List UInt8) :
    KeepsDirs fs { fs with nodes := fs.nodes.put place (.file bytes) } ∧
      ({ fs with nodes := fs.nodes.put place (.file bytes) } : Files).at? place =
        some (.file bytes) := by
  constructor
  · refine ⟨rfl, ?_⟩
    intro other there
    have apart : other ≠ place := by
      rintro rfl
      exact no_dir there
    simp only [at?, Entries.get?_put_of_ne apart] at there ⊢
    exact there
  · have outside : ¬ place.isPrefixOf fs.here = true := by
      intro within
      refine no_dir ?_
      rw [at?, if_pos within]
    simp only [at?, Entries.get?_put_self]
    rw [if_neg outside]

/-- Bytes are added behind those of the file at a path, or make a new one there. -/
theorem append_ok {fs after : Files} {p : Path} {more : List UInt8}
    (added : fs.append p more = .ok after) :
    ∃ place bytes, fs.resolve p.text = .ok place ∧
      ((fs.at? place = none ∧ bytes = []) ∨ fs.at? place = some (.file bytes)) ∧
      after = { fs with nodes := fs.nodes.put place (.file (bytes ++ more)) } := by
  unfold append change at added
  cases leads : fs.resolve p.text with
  | error e =>
      rw [leads] at added
      cases added
  | ok place =>
      rw [leads] at added
      simp only [bind, Except.bind] at added
      cases there : fs.at? place with
      | none =>
          rw [there] at added
          cases added
          exact ⟨place, [], rfl, .inl ⟨there, rfl⟩, rfl⟩
      | some node =>
          rw [there] at added
          cases node with
          | dir => cases added
          | file before =>
              cases added
              exact ⟨place, before, rfl, .inr there, rfl⟩

/-- What adding bytes to a file leaves: those that it held before, if it was there, and the new
ones. -/
theorem holds_append {fs after : Files} {p : Path} {more : List UInt8}
    (added : fs.append p more = .ok after) :
    (∀ bytes, fs.Holds p bytes → after.Holds p (bytes ++ more)) ∧
      (fs.read p = .error .notFound → after.Holds p more) := by
  obtain ⟨place, bytes, leads, there, rfl⟩ := append_ok added
  have no_dir : fs.at? place ≠ some .dir := by
    rcases there with ⟨none_there, _⟩ | held
    · simp [none_there]
    · simp [held]
  -- The path leads to the same place before and after, so what is put there is what it holds.
  obtain ⟨keeps, now⟩ := put_file no_dir (bytes ++ more)
  constructor
  · rintro before ⟨other, leads_other, holds⟩
    rw [leads] at leads_other
    cases leads_other
    rcases there with ⟨none_there, _⟩ | held
    · rw [none_there] at holds
      cases holds
    · rw [held] at holds
      cases holds
      exact ⟨place, keeps.resolve leads, now⟩
  · intro none_there
    rcases there with ⟨_, rfl⟩ | held
    · exact ⟨place, keeps.resolve leads, now⟩
    · have holds : fs.Holds p bytes := ⟨place, leads, held⟩
      rw [holds.read] at none_there
      cases none_there

/-! ## What all files hold -/

/-- The bytes of the file at a place, if there is one. -/
def bytes? (fs : Files) (place : Place) : Option (List UInt8) :=
  match fs.at? place with
  | some (.file bytes) => some bytes
  | _ => none

/-- No file holds anything else because a directory is made. -/
theorem bytes?_makeDir {fs after : Files} {p : Path} (made : fs.makeDir p = .ok after) :
    after.bytes? = fs.bytes? := by
  obtain rfl | ⟨place, none_there, rfl⟩ := makeDir_ok made
  · rfl
  · funext other
    by_cases same : other = place
    · subst same
      have dir : ({ fs with nodes := fs.nodes.put other .dir } : Files).at? other = some .dir := by
        rw [at?, Entries.get?_put_self]
        split <;> rfl
      rw [bytes?, bytes?, dir, none_there]
    · rw [bytes?, bytes?, at?, at?, Entries.get?_put_of_ne same]

/-- A single file holds more when bytes are added to it, and all others hold what they held. -/
theorem bytes?_append {fs after : Files} {p : Path} {more : List UInt8}
    (added : fs.append p more = .ok after) :
    ∃ place, after.resolve p.text = .ok place ∧
      after.bytes? = Function.update fs.bytes? place
        (some ((fs.bytes? place).getD [] ++ more)) := by
  obtain ⟨place, bytes, leads, there, rfl⟩ := append_ok added
  have no_dir : fs.at? place ≠ some .dir := by
    rcases there with ⟨none_there, _⟩ | held
    · simp [none_there]
    · simp [held]
  have before : (fs.bytes? place).getD [] = bytes := by
    unfold bytes?
    rcases there with ⟨none_there, rfl⟩ | held
    · rw [none_there]
      rfl
    · rw [held]
      rfl
  obtain ⟨keeps, now⟩ := put_file no_dir (bytes ++ more)
  refine ⟨place, keeps.resolve leads, ?_⟩
  rw [before]
  funext other
  by_cases same : other = place
  · rw [same, Function.update_self, bytes?, now]
  · rw [Function.update_of_ne same, bytes?, bytes?, at?, at?, Entries.get?_put_of_ne same]

end Files

/-! ## Making directories -/

namespace FileChange

theorem here_makeDir {fs after : Files} {p : Path} (made : fs.makeDir p = .ok after) :
    after.here = fs.here := by
  obtain rfl | ⟨_, _, rfl⟩ := Files.makeDir_ok made <;> rfl

/-- Making directories takes none away. -/
theorem keepsDirs_makeDirs (p : Path) (fs : Files) : fs.KeepsDirs ((makeDirs p).run fs).2 := by
  refine ⟨?_, fun _ there => makeDirs_keeps p there⟩
  exact makeDirs_preserves (P := fun after => after.here = fs.here)
    (fun made before => (here_makeDir made).trans before) p rfl

/-- Making directories changes what no file holds. -/
theorem bytes?_makeDirs (p : Path) (fs : Files) : ((makeDirs p).run fs).2.bytes? = fs.bytes? :=
  makeDirs_preserves (P := fun after => after.bytes? = fs.bytes?)
    (fun made before => (Files.bytes?_makeDir made).trans before) p rfl

/-- Making directories leaves a file as it is. -/
theorem holds_makeDirs (p : Path) {fs : Files} {q : Path} {bytes : List UInt8}
    (holds : fs.Holds q bytes) : ((makeDirs p).run fs).2.Holds q bytes := by
  obtain ⟨place, leads, there⟩ := holds
  exact ⟨place, (keepsDirs_makeDirs p fs).resolve leads, makeDirs_keeps p there⟩

end FileChange

end SheetCalc
