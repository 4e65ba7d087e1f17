import SheetCalc.Proofs.Json.Fits
import SheetCalc.Proofs.Json.Numbers
import SheetCalc.Proofs.Json.Texts

/-!
# Values come back from JSON

`reread` says what becomes of a value that is written and read again: the halves of pairs in its
texts are put together, its floats are what their digits are read as, and the keys of its mappings
are texts, of which the last one counts where two are the same. That is what reading comes to,
whatever the value is and in either style (`read_write`), if it holds no integer that is too long
and no brackets inside too many others.
-/

namespace SheetCalc.Json

open Text (isDigit)

/-! ## What becomes of a value -/

/-- A float as its text is read. -/
def rereadFloat (x : Float) : Value :=
  ((read (Decimal.jsonFloatText x).toList).toOption).getD .null

mutual

/-- A value as it is read after it has been written. -/
def reread : Value → Value
  | .null => .null
  | .bool b => .bool b
  | .int n => .int n
  | .float x => rereadFloat x
  | .text t => .text t.paired
  | .list items => .list (rereadItems items)
  | .mapping entries => .mapping (Entries.ofList (rereadEntries entries))

/-- The items of a list as they are read. -/
def rereadItems : List Value → List Value
  | [] => []
  | v :: vs => reread v :: rereadItems vs

/-- The entries of a mapping as they are read. -/
def rereadEntries : List (Key × Value) → List (Key × Value)
  | [] => []
  | (k, v) :: es => (.text k.jsonText.paired, reread v) :: rereadEntries es

end

theorem reread_texts (ts : List Text) :
    reread (.list (ts.map .text)) = .list (ts.map fun t => .text t.paired) := by
  rw [reread]
  congr 1
  induction ts with
  | nil => rfl
  | cons t ts ih => rw [List.map_cons, rereadItems, reread, ih, List.map_cons]

/-! ## Blanks -/

/-- Nothing but blanks. -/
def Blanks (cs : List Char) : Prop :=
  ∀ c ∈ cs, isBlank c = true

theorem blanks_newLine (level : Nat) : Blanks (Style.newLine level) := by
  intro c there
  rcases List.mem_cons.mp there with rfl | space
  · decide
  · rw [List.eq_of_mem_replicate space]
    decide

theorem blanks_inside (style : Style) (level : Nat) : Blanks (style.inside level) := by
  cases style with
  | line => exact nofun
  | indented => exact blanks_newLine level

theorem between_eq (style : Style) (level : Nat) :
    ∃ gap, style.between level = ',' :: gap ∧ Blanks gap := by
  cases style with
  | line =>
      refine ⟨[' '], rfl, ?_⟩
      intro c there
      rw [List.mem_singleton.mp there]
      decide
  | indented => exact ⟨_, rfl, blanks_newLine level⟩

/-- A text that begins with no blank and ends nothing. -/
structure Starts (cs : List Char) : Prop where
  skip : ∀ gap, Blanks gap → ∀ rest, skipBlanks (gap ++ (cs ++ rest)) = cs ++ rest
  open_list : ∀ rest behind, cs ++ rest ≠ ']' :: behind
  open_mapping : ∀ rest behind, cs ++ rest ≠ '\x7d' :: behind
  positive : 0 < cs.length

theorem skipBlanks_gap {gap : List Char} (blanks : Blanks gap) {c : Char}
    (solid : isBlank c = false) (rest : List Char) : skipBlanks (gap ++ c :: rest) = c :: rest := by
  unfold skipBlanks
  rw [List.dropWhile_append_of_pos blanks]
  exact List.dropWhile_cons_of_neg (by simp [solid])

theorem skipBlanks_solid {c : Char} (solid : isBlank c = false) (rest : List Char) :
    skipBlanks (c :: rest) = c :: rest :=
  List.dropWhile_cons_of_neg (by simp [solid])

theorem starts_cons {c : Char} (solid : isBlank c = false) (no_list : c ≠ ']')
    (no_mapping : c ≠ '\x7d') (cs : List Char) : Starts (c :: cs) := by
  refine ⟨fun gap blanks rest => skipBlanks_gap blanks solid _, ?_, ?_, Nat.succ_pos _⟩
  · intro rest behind same
    exact no_list (List.cons.inj same).1
  · intro rest behind same
    exact no_mapping (List.cons.inj same).1

theorem Starts.append {cs : List Char} (starts : Starts cs) (ds : List Char) :
    Starts (cs ++ ds) := by
  refine ⟨?_, ?_, ?_, ?_⟩
  · intro gap blanks rest
    rw [List.append_assoc]
    exact starts.skip gap blanks (ds ++ rest)
  · intro rest behind
    rw [List.append_assoc]
    exact starts.open_list (ds ++ rest) behind
  · intro rest behind
    rw [List.append_assoc]
    exact starts.open_mapping (ds ++ rest) behind
  · have positive := starts.positive
    rw [List.length_append]
    omega

theorem isDigit_bounds {c : Char} (digit : isDigit c = true) : 0x30 ≤ c.toNat ∧ c.toNat ≤ 0x39 := by
  simpa [isDigit] using digit

theorem starts_number {cs : List Char} (begins : BeginsNumber cs) : Starts cs := by
  unfold BeginsNumber at begins
  split at begins
  · exact starts_cons (by decide) (by decide) (by decide) _
  · next c rest _ =>
      have bounds := isDigit_bounds begins
      refine starts_cons ?_ ?_ ?_ _
      · simp only [isBlank, Bool.or_eq_false_iff, beq_eq_false_iff_ne]
        refine ⟨⟨⟨?_, ?_⟩, ?_⟩, ?_⟩ <;> rintro rfl <;> simp at bounds
      · rintro rfl
        simp at bounds
      · rintro rfl
        simp at bounds
  · cases begins

theorem starts_quoted (t : Text) : Starts (quoted t) :=
  starts_cons (by decide) (by decide) (by decide) _

theorem starts_float (x : Float) : Starts (Decimal.jsonFloatText x).toList := by
  rcases jsonFloatText_cases x with float | named
  · obtain ⟨negative, whole, fraction, e, same, is_whole, _⟩ := float
    have begins := beginsNumber_numberText negative is_whole fraction e []
    rw [List.append_nil, ← same] at begins
    exact starts_number begins
  · simp only [List.mem_cons, List.not_mem_nil, or_false] at named
    rcases named with same | same | same <;> rw [same] <;>
      exact starts_cons (by decide) (by decide) (by decide) _

theorem starts_write (style : Style) (level : Nat) (v : Value) : Starts (write style level v) := by
  unfold write
  split
  · exact starts_cons (by decide) (by decide) (by decide) _
  · exact starts_cons (by decide) (by decide) (by decide) _
  · exact starts_cons (by decide) (by decide) (by decide) _
  · next n =>
      have begins := beginsNumber_numberText (decide (n < 0)) (whole_digits n.natAbs) [] none []
      rw [List.append_nil, ← intText_eq] at begins
      exact starts_number begins
  · exact starts_float _
  · exact starts_quoted _
  · exact starts_cons (by decide) (by decide) (by decide) _
  · exact starts_cons (by decide) (by decide) (by decide) _
  · exact starts_cons (by decide) (by decide) (by decide) _
  · exact starts_cons (by decide) (by decide) (by decide) _

/-! ## Scalars -/

/-- A text is read as a value, whatever stands behind it that does not go on with a number. -/
def Reads (depth : Nat) (cs : List Char) (v : Value) : Prop :=
  ∀ n rest, cs.length ≤ n → EndsNumber rest → readValue n depth (cs ++ rest) = .ok (v, rest)

/-- What is no text, no list and no mapping has a name or is a number. -/
theorem readValue_plain (n depth : Nat) {c : Char} (no_text : c ≠ '\x22') (no_list : c ≠ '[')
    (no_mapping : c ≠ '\x7b') (rest : List Char) :
    readValue (n + 1) depth (c :: rest) =
      match readName? (c :: rest) with
      | some found => .ok found
      | none => readNumber (c :: rest) := by
  rw [readValue.eq_def]
  cases found : readName? (c :: rest) <;>
    simp only [beq_eq_false_iff_ne.mpr no_text, beq_eq_false_iff_ne.mpr no_list,
      beq_eq_false_iff_ne.mpr no_mapping, Bool.or_self, Bool.false_eq_true, if_false, found]

theorem reads_name {name : String} {v : Value} (there : (name, v) ∈ names) (depth : Nat) :
    Reads depth name.toList v := by
  intro n rest enough _
  have read := readName_name there rest
  have shape : ∃ c more, name.toList = c :: more ∧ c ≠ '\x22' ∧ c ≠ '[' ∧ c ≠ '\x7b' := by
    simp only [names, List.mem_cons, List.not_mem_nil, or_false, Prod.mk.injEq] at there
    rcases there with ⟨rfl, _⟩ | ⟨rfl, _⟩ | ⟨rfl, _⟩ | ⟨rfl, _⟩ | ⟨rfl, _⟩ | ⟨rfl, _⟩ <;>
      exact ⟨_, _, rfl, by decide, by decide, by decide⟩
  obtain ⟨c, more, same, no_text, no_list, no_mapping⟩ := shape
  rw [same] at read enough ⊢
  obtain ⟨n, rfl⟩ : ∃ k, n = k + 1 := Nat.exists_eq_succ_of_ne_zero (by rintro rfl; cases enough)
  rw [List.cons_append] at read ⊢
  rw [readValue_plain n depth no_text no_list no_mapping, read]

theorem readValue_number (n depth : Nat) {cs : List Char} (begins : BeginsNumber cs) :
    readValue (n + 1) depth cs = readNumber cs := by
  have no_name := readName_none begins
  have shape : ∃ c more, cs = c :: more ∧ c ≠ '\x22' ∧ c ≠ '[' ∧ c ≠ '\x7b' := by
    unfold BeginsNumber at begins
    split at begins
    · exact ⟨_, _, rfl, by decide, by decide, by decide⟩
    · have bounds := isDigit_bounds begins
      refine ⟨_, _, rfl, ?_, ?_, ?_⟩ <;> rintro rfl <;> simp at bounds
    · cases begins
  obtain ⟨c, more, rfl, no_text, no_list, no_mapping⟩ := shape
  rw [readValue_plain n depth no_text no_list no_mapping, no_name]

theorem reads_int {n : Int} (writable : Decimal.isWritable n = true) (depth : Nat) :
    Reads depth (Decimal.intText n).toList (.int n) := by
  intro k rest enough ends
  have begins := beginsNumber_numberText (n < 0) (whole_digits n.natAbs) [] none rest
  rw [← intText_eq] at begins
  have positive := (starts_write .line 0 (.int n)).positive
  rw [write] at positive
  obtain ⟨k, rfl⟩ : ∃ j, k = j + 1 := Nat.exists_eq_succ_of_ne_zero (by omega)
  rw [readValue_number k depth begins, readNumber_intText writable ends]

/-- A float is read as some float. -/
theorem reads_float (x : Float) :
    ∃ y, ∀ depth, Reads depth (Decimal.jsonFloatText x).toList (.float y) := by
  rcases jsonFloatText_cases x with float | named
  · obtain ⟨y, read⟩ := float.read
    obtain ⟨negative, whole, fraction, e, same, is_whole, _⟩ := float
    refine ⟨y, ?_⟩
    intro depth n rest enough ends
    have begins := beginsNumber_numberText negative is_whole fraction e rest
    rw [← same] at begins
    have positive := (starts_float x).positive
    obtain ⟨n, rfl⟩ : ∃ k, n = k + 1 := Nat.exists_eq_succ_of_ne_zero (by omega)
    rw [readValue_number n depth begins, read rest ends]
  · simp only [List.mem_cons, List.not_mem_nil, or_false] at named
    rcases named with same | same | same <;> rw [same]
    · exact ⟨0 / 0, reads_name (by simp [names])⟩
    · exact ⟨1 / 0, reads_name (by simp [names])⟩
    · exact ⟨-1 / 0, reads_name (by simp [names])⟩

theorem reads_text (t : Text) (depth : Nat) : Reads depth (quoted t) (.text t.paired) := by
  intro n rest enough _
  obtain ⟨n, rfl⟩ : ∃ k, n = k + 1 := Nat.exists_eq_succ_of_ne_zero (by rintro rfl; cases enough)
  have read := readQuoted_quoted t rest
  show readValue (n + 1) depth ('\x22' :: (t.points.flatMap escape ++ ['\x22'] ++ rest)) = _
  rw [readValue.eq_def, List.append_assoc]
  simp only [beq_self_eq_true, if_true, List.singleton_append, read]

/-- What is read with blanks or nothing around it. -/
theorem read_of_reads {cs : List Char} {v : Value} (starts : Starts cs)
    (reads : Reads depthLimit cs v) : read cs = .ok v := by
  have front := starts.skip [] nofun []
  rw [List.nil_append, List.append_nil] at front
  have found := reads (2 * cs.length + 2) [] (by omega) endsNumber_nil
  rw [List.append_nil] at found
  unfold read
  rw [front, found]
  rfl

/-- A float is read as a float. -/
theorem reads_rereadFloat (x : Float) (depth : Nat) :
    Reads depth (Decimal.jsonFloatText x).toList (rereadFloat x) := by
  obtain ⟨y, reads⟩ := reads_float x
  have whole := read_of_reads (starts_float x) (reads depthLimit)
  have same : rereadFloat x = .float y := by
    unfold rereadFloat
    rw [whole]
    rfl
  rw [same]
  exact reads depth

theorem starts_writeItems (style : Style) (level : Nat) (v : Value) (vs : List Value) :
    Starts (writeItems style level (v :: vs)) := by
  have first := starts_write style level v
  cases vs with
  | nil =>
      rw [writeItems]
      exact first
  | cons w vs =>
      rw [writeItems, List.append_assoc]
      · exact first.append _
      · exact List.cons_ne_nil w vs

theorem starts_writeEntries (style : Style) (level : Nat) (e : Key × Value)
    (es : List (Key × Value)) : Starts (writeEntries style level (e :: es)) := by
  obtain ⟨k, v⟩ := e
  have first := starts_quoted k.jsonText
  cases es with
  | nil =>
      rw [writeEntries, List.append_assoc]
      exact first.append _
  | cons e es =>
      rw [writeEntries, List.append_assoc, List.append_assoc, List.append_assoc]
      · exact first.append _
      · exact List.cons_ne_nil e es

/-! ## Lists and mappings -/

section

variable {n depth : Nat} {cs rest behind : List Char} {v : Value}

theorem readValue_emptyList (closes : skipBlanks cs = ']' :: rest) :
    readValue (n + 1) (depth + 1) ('[' :: cs) = .ok (.list [], rest) := by
  rw [readValue.eq_def]
  simp [closes]

theorem readValue_list {vs : List Value} (opens : ∀ behind, skipBlanks cs ≠ ']' :: behind)
    (read : readItems n depth [] (skipBlanks cs) = .ok (vs, rest)) :
    readValue (n + 1) (depth + 1) ('[' :: cs) = .ok (.list vs, rest) := by
  rw [readValue.eq_def]
  simp only [show ('[' == '\x22') = false from rfl, beq_self_eq_true, Bool.true_or, if_true,
    Bool.false_eq_true, if_false]
  rw [read]
  rfl

theorem readValue_emptyMapping (closes : skipBlanks cs = '\x7d' :: rest) :
    readValue (n + 1) (depth + 1) ('\x7b' :: cs) = .ok (.mapping [], rest) := by
  rw [readValue.eq_def]
  simp [closes]

theorem readValue_mapping {es : Entries Key Value}
    (opens : ∀ behind, skipBlanks cs ≠ '\x7d' :: behind)
    (read : readEntries n depth [] (skipBlanks cs) = .ok (es, rest)) :
    readValue (n + 1) (depth + 1) ('\x7b' :: cs) = .ok (.mapping es, rest) := by
  rw [readValue.eq_def]
  simp only [show ('\x7b' == '\x22') = false from rfl, show ('\x7b' == '[') = false from rfl,
    beq_self_eq_true, Bool.or_true, if_true, Bool.false_eq_true, if_false]
  rw [read]
  rfl

theorem exists_succ {k : Nat} (less : n + 1 ≤ k) : ∃ j, k = j + 1 ∧ n ≤ j :=
  ⟨k - 1, by omega, by omega⟩

theorem readItems_last (read : readValue n depth cs = .ok (v, rest))
    (closes : skipBlanks rest = ']' :: behind) (done : List Value) :
    readItems (n + 1) depth done cs = .ok (done.reverse ++ [v], behind) := by
  rw [readItems.eq_def]
  simp only [read, closes, List.reverse_cons]

theorem readItems_more (read : readValue n depth cs = .ok (v, rest))
    (goes_on : skipBlanks rest = ',' :: behind) (done : List Value) :
    readItems (n + 1) depth done cs = readItems n depth (v :: done) (skipBlanks behind) := by
  rw [readItems.eq_def]
  simp only [read, goes_on]

variable {k : Text} {value : List Char}

theorem readEntries_last (key : readKey? cs = some (k, value))
    (read : readValue n depth value = .ok (v, rest)) (closes : skipBlanks rest = '\x7d' :: behind)
    (done : Entries Key Value) :
    readEntries (n + 1) depth done cs = .ok (done.put (.text k) v, behind) := by
  rw [readEntries.eq_def]
  simp only [key, read, closes]

theorem readEntries_more (key : readKey? cs = some (k, value))
    (read : readValue n depth value = .ok (v, rest)) (goes_on : skipBlanks rest = ',' :: behind)
    (done : Entries Key Value) :
    readEntries (n + 1) depth done cs =
      readEntries n depth (done.put (.text k) v) (skipBlanks behind) := by
  rw [readEntries.eq_def]
  simp only [key, read, goes_on]

end

/-- The key of an entry is read, and the value stands behind it. -/
theorem readKey_quoted (t : Text) {cs : List Char} (starts : Starts cs) (rest : List Char) :
    readKey? (quoted t ++ [':', ' '] ++ cs ++ rest) = some (t.paired, cs ++ rest) := by
  have read := readQuoted_quoted t (':' :: ' ' :: (cs ++ rest))
  have colon : skipBlanks (':' :: ' ' :: (cs ++ rest)) = ':' :: ' ' :: (cs ++ rest) :=
    skipBlanks_solid (by decide) _
  have value : skipBlanks (' ' :: (cs ++ rest)) = cs ++ rest := by
    refine starts.skip [' '] ?_ rest
    intro c there
    rw [List.mem_singleton.mp there]
    decide
  have shape : quoted t ++ [':', ' '] ++ cs ++ rest =
      '\x22' :: (t.points.flatMap escape ++ '\x22' :: ':' :: ' ' :: (cs ++ rest)) := by
    unfold quoted
    simp
  rw [shape, readKey?.eq_def]
  simp only [read, colon, value]

theorem endsNumber_closing {c : Char} (closes : c = ',' ∨ c = ']' ∨ c = '\x7d')
    (rest : List Char) : EndsNumber (c :: rest) := by
  rcases closes with rfl | rfl | rfl <;>
    exact endsNumber_cons (by decide) (by decide) (by decide) (by decide)

/-- A gap and what ends a list or a mapping behind it do not go on with a number. -/
theorem endsNumber_gap {gap : List Char} (blanks : Blanks gap) {c : Char}
    (closes : c = ',' ∨ c = ']' ∨ c = '\x7d') (rest : List Char) :
    EndsNumber (gap ++ c :: rest) := by
  cases gap with
  | nil => exact endsNumber_closing closes rest
  | cons d gap =>
      have blank := blanks d List.mem_cons_self
      simp only [isBlank, Bool.or_eq_true, beq_iff_eq] at blank
      rcases blank with ((rfl | rfl) | rfl) | rfl <;>
        exact endsNumber_cons (by decide) (by decide) (by decide) (by decide)

mutual

/-- **A value is read as what `reread` says**, in either style and on every level. -/
theorem reads_write (style : Style) (level depth : Nat) : ∀ v : Value, v.isWritable = true →
    nesting v ≤ depth → Reads depth (write style level v) (reread v)
  | .null => by
      intro _ _
      have there : ("null", Value.null) ∈ names := by simp [names]
      rw [write, reread]
      exact reads_name there depth
  | .bool true => by
      intro _ _
      have there : ("true", Value.bool true) ∈ names := by simp [names]
      rw [write, reread]
      exact reads_name there depth
  | .bool false => by
      intro _ _
      have there : ("false", Value.bool false) ∈ names := by simp [names]
      rw [write, reread]
      exact reads_name there depth
  | .int n => by
      intro writable _
      rw [Value.isWritable] at writable
      rw [write, reread]
      exact reads_int writable depth
  | .float x => by
      intro _ _
      rw [write, reread]
      exact reads_rereadFloat x depth
  | .text s => by
      intro _ _
      rw [write, reread]
      exact reads_text s depth
  | .list [] => by
      intro _ nested n rest enough _
      rw [nesting] at nested
      obtain ⟨depth, rfl, _⟩ := exists_succ nested
      rw [write] at enough ⊢
      obtain ⟨n, rfl, _⟩ := exists_succ enough
      rw [reread, rereadItems]
      exact readValue_emptyList (skipBlanks_solid (by decide) rest)
  | .list (v :: vs) => by
      intro writable nested n rest enough _
      rw [Value.isWritable] at writable
      rw [nesting] at nested
      obtain ⟨depth, rfl, inner⟩ := exists_succ nested
      have written : write style level (.list (v :: vs)) =
          '[' :: (style.inside (level + 1) ++ writeItems style (level + 1) (v :: vs)
            ++ style.inside level ++ [']']) := by
        rw [write]
        · rfl
        · exact List.cons_ne_nil v vs
      rw [written] at enough ⊢
      obtain ⟨n, rfl, fuel⟩ := exists_succ enough
      simp only [List.length_append, List.length_singleton] at fuel
      have starts := starts_writeItems style (level + 1) v vs
      have front := starts.skip _ (blanks_inside style (level + 1))
        (style.inside level ++ ']' :: rest)
      have behind := readItems_writeItems style (level + 1) depth (v :: vs) (List.cons_ne_nil v vs)
        writable inner n [] (style.inside level) rest (blanks_inside style level) (by omega)
      rw [← front] at behind
      have shape : '[' :: (style.inside (level + 1) ++ writeItems style (level + 1) (v :: vs)
          ++ style.inside level ++ [']']) ++ rest =
          '[' :: (style.inside (level + 1) ++ (writeItems style (level + 1) (v :: vs)
            ++ (style.inside level ++ ']' :: rest))) := by
        simp
      rw [shape, reread]
      refine readValue_list ?_ behind
      intro other
      rw [front]
      exact starts.open_list _ other
  | .mapping [] => by
      intro _ nested n rest enough _
      rw [nesting] at nested
      obtain ⟨depth, rfl, _⟩ := exists_succ nested
      rw [write] at enough ⊢
      obtain ⟨n, rfl, _⟩ := exists_succ enough
      rw [reread, rereadEntries]
      exact readValue_emptyMapping (skipBlanks_solid (by decide) rest)
  | .mapping (e :: es) => by
      intro writable nested n rest enough _
      rw [Value.isWritable] at writable
      rw [nesting] at nested
      obtain ⟨depth, rfl, inner⟩ := exists_succ nested
      have written : write style level (.mapping (e :: es)) =
          '\x7b' :: (style.inside (level + 1) ++ writeEntries style (level + 1) (e :: es)
            ++ style.inside level ++ ['\x7d']) := by
        rw [write]
        · rfl
        · exact List.cons_ne_nil e es
      rw [written] at enough ⊢
      obtain ⟨n, rfl, fuel⟩ := exists_succ enough
      simp only [List.length_append, List.length_singleton] at fuel
      have starts := starts_writeEntries style (level + 1) e es
      have front := starts.skip _ (blanks_inside style (level + 1))
        (style.inside level ++ '\x7d' :: rest)
      have behind := readEntries_writeEntries style (level + 1) depth (e :: es)
        (List.cons_ne_nil e es) writable inner n [] (style.inside level) rest
        (blanks_inside style level) (by omega)
      rw [← front] at behind
      have shape : '\x7b' :: (style.inside (level + 1) ++ writeEntries style (level + 1) (e :: es)
          ++ style.inside level ++ ['\x7d']) ++ rest =
          '\x7b' :: (style.inside (level + 1) ++ (writeEntries style (level + 1) (e :: es)
            ++ (style.inside level ++ '\x7d' :: rest))) := by
        simp
      rw [shape, reread]
      refine readValue_mapping ?_ behind
      intro other
      rw [front]
      exact starts.open_mapping _ other

theorem readItems_writeItems (style : Style) (level depth : Nat) : ∀ vs : List Value, vs ≠ [] →
    Value.areWritable vs = true → nestingItems vs ≤ depth → ∀ (n : Nat) (done : List Value)
    (gap rest : List Char), Blanks gap → (writeItems style level vs).length + 1 ≤ n →
    readItems n depth done (writeItems style level vs ++ (gap ++ ']' :: rest)) =
      .ok (done.reverse ++ rereadItems vs, rest)
  | [] => fun some => absurd rfl some
  | [v] => by
      intro _ writable nested n done gap rest blanks enough
      rw [Value.areWritable, Bool.and_eq_true] at writable
      rw [nestingItems] at nested
      rw [writeItems] at enough ⊢
      obtain ⟨n, rfl, fuel⟩ := exists_succ enough
      have first :=
        reads_write style level depth v writable.1 (by omega) n (gap ++ ']' :: rest) fuel
        (endsNumber_gap blanks (.inr (.inl rfl)) rest)
      rw [readItems_last first (skipBlanks_gap blanks (by decide) rest), rereadItems, rereadItems]
  | v :: w :: vs => by
      intro _ writable nested n done gap rest blanks enough
      rw [Value.areWritable, Bool.and_eq_true] at writable
      rw [nestingItems] at nested
      obtain ⟨pause, between, blanks_pause⟩ := between_eq style level
      have written : writeItems style level (v :: w :: vs) =
          write style level v ++ ',' :: pause ++ writeItems style level (w :: vs) := by
        rw [writeItems, between]
        exact List.cons_ne_nil w vs
      rw [written] at enough ⊢
      simp only [List.length_append, List.length_cons] at enough
      obtain ⟨n, rfl, fuel⟩ := exists_succ enough
      have comma := skipBlanks_solid (c := ',') (by decide)
        (pause ++ (writeItems style level (w :: vs) ++ (gap ++ ']' :: rest)))
      have first := reads_write style level depth v writable.1 (by omega) n _ (by omega)
        (endsNumber_closing (.inl rfl)
          (pause ++ (writeItems style level (w :: vs) ++ (gap ++ ']' :: rest))))
      have front :=
        (starts_writeItems style level w vs).skip pause blanks_pause (gap ++ ']' :: rest)
      have behind := readItems_writeItems style level depth (w :: vs) (List.cons_ne_nil w vs)
        writable.2 (by omega) n (reread v :: done) gap rest blanks (by omega)
      have shape : write style level v ++ ',' :: pause ++ writeItems style level (w :: vs) ++
          (gap ++ ']' :: rest) = write style level v ++ (',' :: (pause ++
            (writeItems style level (w :: vs) ++ (gap ++ ']' :: rest)))) := by
        simp
      rw [shape, readItems_more first comma, front, behind]
      simp [rereadItems]

theorem readEntries_writeEntries (style : Style) (level depth : Nat) : ∀ es : List (Key × Value),
    es ≠ [] → Value.areEntriesWritable es = true → nestingEntries es ≤ depth →
    ∀ (n : Nat) (done : Entries Key Value) (gap rest : List Char), Blanks gap →
    (writeEntries style level es).length + 1 ≤ n →
    readEntries n depth done (writeEntries style level es ++ (gap ++ '\x7d' :: rest)) =
      .ok (done.update (rereadEntries es), rest)
  | [] => fun some => absurd rfl some
  | [(k, v)] => by
      intro _ writable nested n done gap rest blanks enough
      simp only [Value.areEntriesWritable, Bool.and_eq_true] at writable
      rw [nestingEntries] at nested
      rw [writeEntries] at enough ⊢
      obtain ⟨n, rfl, fuel⟩ := exists_succ enough
      rw [List.length_append] at fuel
      have key := readKey_quoted k.jsonText (starts_write style level v) (gap ++ '\x7d' :: rest)
      have first := reads_write style level depth v writable.1.2 (by omega) n
        (gap ++ '\x7d' :: rest) (by omega) (endsNumber_gap blanks (.inr (.inr rfl)) rest)
      rw [readEntries_last key first (skipBlanks_gap blanks (by decide) rest)]
      simp [rereadEntries, Entries.update]
  | (k, v) :: e :: es => by
      intro _ writable nested n done gap rest blanks enough
      rw [Value.areEntriesWritable, Bool.and_eq_true, Bool.and_eq_true] at writable
      rw [nestingEntries] at nested
      obtain ⟨pause, between, blanks_pause⟩ := between_eq style level
      have written : writeEntries style level ((k, v) :: e :: es) =
          quoted k.jsonText ++ [':', ' '] ++ write style level v ++ ',' :: pause ++
            writeEntries style level (e :: es) := by
        rw [writeEntries, between]
        exact List.cons_ne_nil e es
      rw [written] at enough ⊢
      simp only [List.length_append, List.length_cons] at enough
      obtain ⟨n, rfl, fuel⟩ := exists_succ enough
      have comma := skipBlanks_solid (c := ',') (by decide)
        (pause ++ (writeEntries style level (e :: es) ++ (gap ++ '\x7d' :: rest)))
      have key := readKey_quoted k.jsonText (starts_write style level v) (',' :: (pause ++
        (writeEntries style level (e :: es) ++ (gap ++ '\x7d' :: rest))))
      have first := reads_write style level depth v writable.1.2 (by omega) n _ (by omega)
        (endsNumber_closing (.inl rfl)
          (pause ++ (writeEntries style level (e :: es) ++ (gap ++ '\x7d' :: rest))))
      have front := (starts_writeEntries style level e es).skip pause blanks_pause
        (gap ++ '\x7d' :: rest)
      have behind := readEntries_writeEntries style level depth (e :: es) (List.cons_ne_nil e es)
        writable.2 (by omega) n (done.put (.text k.jsonText.paired) (reread v)) gap rest blanks
        (by omega)
      have shape : quoted k.jsonText ++ [':', ' '] ++ write style level v ++ ',' :: pause ++
          writeEntries style level (e :: es) ++ (gap ++ '\x7d' :: rest) =
          quoted k.jsonText ++ [':', ' '] ++ write style level v ++ (',' :: (pause ++
            (writeEntries style level (e :: es) ++ (gap ++ '\x7d' :: rest)))) := by
        simp
      rw [shape, readEntries_more key first comma, front, behind]
      simp [rereadEntries, Entries.update]

end

/-- **JSON that is written is read again.** What is read is the value that was written, as `reread`
says. -/
theorem read_write (style : Style) {v : Value} (fits : Fits depthLimit v) :
    read (write style 0 v) = .ok (reread v) :=
  read_of_reads (starts_write style 0 v)
    (reads_write style 0 depthLimit v fits.writable fits.nested)

end SheetCalc.Json
