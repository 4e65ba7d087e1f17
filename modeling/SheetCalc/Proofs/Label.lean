import Mathlib.Data.List.Induction
import Mathlib.Data.List.TakeDrop
import Mathlib.Data.List.TakeWhile
import SheetCalc.Label

/-!
# Labels and positions

Letters of a column and digits of a row are numerals of which each number has one: writing the
number that they stand for gives them back (`numeral_value`, `digits_valueOf`). So a position has
one spelling, and a text that names it is this spelling, or the spelling with a line feed behind it
(`spelling_of_parse`).
-/

namespace SheetCalc

/-! ## Columns -/

namespace Column

theorem isLetter_iff {c : Char} : isLetter c = true ↔ 0x41 ≤ c.toNat ∧ c.toNat ≤ 0x5a := by
  unfold isLetter
  rw [Bool.and_eq_true, decide_eq_true_iff, decide_eq_true_iff]

theorem letter_of_isLetter {c : Char} (isLetter : isLetter c = true) :
    letter (c.toNat - 0x41) = c := by
  obtain ⟨low, _⟩ := isLetter_iff.mp isLetter
  unfold letter
  rw [Nat.add_sub_cancel' low, Char.ofNat_toNat]

theorem value_append_singleton (cs : List Char) (c : Char) :
    value (.ofChars (cs ++ [c])) = value (.ofChars cs) * 26 + ((c.toNat : Int) - 0x41 + 1) := by
  simp only [value, Text.ofChars, List.map_append, List.map_cons, List.map_nil, List.foldl_append,
    List.foldl_cons, List.foldl_nil]
  rfl

/-- The letters of the number that some letters stand for are these letters. -/
theorem numeral_value {cs : List Char} (letters : ∀ c ∈ cs, isLetter c = true) :
    0 ≤ value (.ofChars cs) ∧ numeral (value (.ofChars cs)).toNat = cs := by
  induction cs using List.reverseRecOn with
  | nil => exact ⟨Int.le_refl 0, by simp [value, Text.ofChars, numeral]⟩
  | append_singleton cs c ih =>
      obtain ⟨positive, numeral_eq⟩ := ih fun d there => letters d (List.mem_append_left _ there)
      have isLetter := letters c (by simp)
      obtain ⟨low, high⟩ := isLetter_iff.mp isLetter
      rw [value_append_singleton]
      refine ⟨by omega, ?_⟩
      obtain ⟨n, number⟩ : ∃ n, (value (.ofChars cs)).toNat = n := ⟨_, rfl⟩
      have next : (value (.ofChars cs) * 26 + ((c.toNat : Int) - 0x41 + 1)).toNat =
          n * 26 + (c.toNat - 0x41) + 1 := by omega
      have quotient : (n * 26 + (c.toNat - 0x41)) / 26 = n := by omega
      have remainder : (n * 26 + (c.toNat - 0x41)) % 26 = c.toNat - 0x41 := by omega
      rw [number] at numeral_eq
      rw [next, numeral, quotient, remainder, numeral_eq, letter_of_isLetter isLetter]

/-- Where there is a letter, the number that the letters stand for is not zero. -/
theorem value_pos {cs : List Char} (some_letter : cs ≠ [])
    (letters : ∀ c ∈ cs, isLetter c = true) : 0 < value (.ofChars cs) := by
  obtain ⟨not_negative, numeral_eq⟩ := numeral_value letters
  rcases Int.lt_or_eq_of_le not_negative with positive | zero
  · exact positive
  · rw [← zero, Int.toNat_zero, numeral] at numeral_eq
    exact absurd numeral_eq.symm some_letter

theorem isLetter_letter {n : Nat} (less : n < 26) : isLetter (letter n) = true := by
  have all : ∀ m < 26, isLetter (letter m) = true := by decide
  exact all n less

theorem toNat_letter {n : Nat} (less : n < 26) : (letter n).toNat = 0x41 + n := by
  have all : ∀ m < 26, (letter m).toNat = 0x41 + m := by decide
  exact all n less

theorem isLetter_of_mem_numeral {n : Nat} {c : Char} (there : c ∈ numeral n) :
    isLetter c = true := by
  induction n using Nat.strongRecOn with
  | ind n ih =>
      cases n with
      | zero =>
          rw [numeral] at there
          cases there
      | succ n =>
          rw [numeral] at there
          rcases List.mem_append.mp there with front | last
          · exact ih (n / 26) (by omega) front
          · rw [List.mem_singleton.mp last]
            exact isLetter_letter (Nat.mod_lt _ (by decide))

/-- The letters of a number stand for this number. -/
theorem value_numeral (n : Nat) : value (.ofChars (numeral n)) = n := by
  induction n using Nat.strongRecOn with
  | ind n ih =>
      cases n with
      | zero => simp [numeral, value, Text.ofChars]
      | succ n =>
          have front := ih (n / 26) (by omega)
          have last := toNat_letter (n := n % 26) (Nat.mod_lt _ (by decide))
          rw [numeral, value_append_singleton, front, last]
          omega

/-- How many numbers above zero have at most so many letters. -/
def capacity : Nat → Nat
  | 0 => 0
  | k + 1 => 26 * (capacity k + 1)

/-- A number has as many letters as it needs. -/
theorem length_numeral_le_iff {n k : Nat} : (numeral n).length ≤ k ↔ n ≤ capacity k := by
  induction k generalizing n with
  | zero => cases n <;> simp [numeral, capacity]
  | succ k ih =>
      cases n with
      | zero => simp [numeral]
      | succ n =>
          rw [numeral, List.length_append, List.length_singleton, Nat.add_le_add_iff_right, ih,
            capacity]
          omega

end Column

/-! ## Rows -/

namespace Decimal

open SheetCalc.Text

theorem isDigit_iff {c : Char} : isDigit c = true ↔ 0x30 ≤ c.toNat ∧ c.toNat ≤ 0x39 := by
  unfold isDigit
  rw [Bool.and_eq_true, decide_eq_true_iff, decide_eq_true_iff]

/-- A digit is no letter. -/
theorem isLetter_of_isDigit {c : Char} (digit : isDigit c = true) : Column.isLetter c = false := by
  have bounds := isDigit_iff.mp digit
  rw [← Bool.not_eq_true, Column.isLetter_iff]
  omega

theorem digitChar_of_isDigit {c : Char} (isDigit : isDigit c = true) :
    digitChar (c.toNat - 0x30) = c := by
  obtain ⟨low, _⟩ := isDigit_iff.mp isDigit
  unfold digitChar
  rw [Nat.add_sub_cancel' low, Char.ofNat_toNat]

/-- A row number has a digit, and nothing else. -/
theorem digits_of_isRowNumber {ds : List Char} (row : Label.isRowNumber ds = true) :
    ds ≠ [] ∧ ∀ c ∈ ds, isDigit c = true := by
  cases ds with
  | nil => cases row
  | cons d ds =>
      rw [Label.isRowNumber, Bool.and_eq_true] at row
      exact ⟨List.cons_ne_nil d ds, List.all_eq_true.mp row.2⟩

theorem isRowNumber_concat {ds : List Char} {d : Char}
    (row : Label.isRowNumber (ds ++ [d]) = true) :
    isDigit d = true ∧ ((ds = [] ∧ d ≠ '0') ∨ Label.isRowNumber ds = true) := by
  cases ds with
  | nil =>
      simp only [List.nil_append, Label.isRowNumber, Bool.and_eq_true, bne_iff_ne, List.all_cons,
        List.all_nil, Bool.and_true] at row
      exact ⟨row.2, .inl ⟨rfl, row.1⟩⟩
  | cons first ds =>
      simp only [List.cons_append, Label.isRowNumber, Bool.and_eq_true, List.all_cons,
        List.all_append, List.all_nil, Bool.and_true] at row
      obtain ⟨leading, first_digit, digits, last_digit⟩ := row
      refine ⟨last_digit, .inr ?_⟩
      simp only [Label.isRowNumber, leading, List.all_cons, first_digit, digits, Bool.and_self]

/-- The digits of the number that a row number stands for are that row number. -/
theorem digits_valueOf {ds : List Char} (row : Label.isRowNumber ds = true) :
    0 < valueOf ds ∧ digits (valueOf ds) = ds := by
  induction ds using List.reverseRecOn with
  | nil => cases row
  | append_singleton ds d ih =>
      obtain ⟨digit, alone | more⟩ := isRowNumber_concat row
      · obtain ⟨rfl, no_zero⟩ := alone
        have back := digitChar_of_isDigit digit
        obtain ⟨low, high⟩ := isDigit_iff.mp digit
        have not_low : d.toNat ≠ 0x30 := by
          intro zero
          rw [zero] at back
          exact no_zero back.symm
        have value : valueOf ([] ++ [d]) = d.toNat - 0x30 := by
          rw [valueOf_append_singleton]
          simp [valueOf]
        have small : d.toNat - 0x30 < 10 := by omega
        rw [value]
        refine ⟨by omega, ?_⟩
        rw [digits, if_pos small, back]
        rfl
      · obtain ⟨positive, digits_eq⟩ := ih more
        obtain ⟨low, high⟩ := isDigit_iff.mp digit
        rw [valueOf_append_singleton]
        refine ⟨by omega, ?_⟩
        have large : ¬ 10 * valueOf ds + (d.toNat - 0x30) < 10 := by omega
        have quotient : (10 * valueOf ds + (d.toNat - 0x30)) / 10 = valueOf ds := by omega
        have remainder : (10 * valueOf ds + (d.toNat - 0x30)) % 10 = d.toNat - 0x30 := by omega
        rw [digits, if_neg large, quotient, remainder, digits_eq, digitChar_of_isDigit digit]

end Decimal

/-! ## Spellings -/

namespace Text

/-- A text whose characters are all told apart from the replacement for halves of pairs is the text
of its characters. -/
theorem ofChars_chars {t : Text} (whole : '\ufffd' ∉ t.chars) : ofChars t.chars = t := by
  refine ext_points ?_
  unfold ofChars chars at *
  rw [List.map_map]
  refine (List.map_congr_left ?_).trans (List.map_id _)
  intro p there
  have char : p.toChar?.getD '\ufffd' ≠ '\ufffd' := by
    intro replaced
    exact whole (List.mem_map.mpr ⟨p, there, replaced⟩)
  show CodePoint.ofChar (p.toChar?.getD '\ufffd') = p
  unfold CodePoint.toChar? at char ⊢
  by_cases valid : p.val.isValidChar
  · rw [dif_pos valid]
    rfl
  · rw [dif_neg valid] at char
    exact absurd rfl char

end Text

namespace Label

/-- The label of a position. -/
def spelling (p : Position) : Text :=
  .ofChars (Column.numeral (p.col + 1) ++ Decimal.digits (p.row + 1))

/-- Whether a label ends in a line feed. -/
def isBroken (t : Text) : Bool :=
  t.chars.getLast? == some '\n'

theorem split_ok {t : Text} {letters number : List Char}
    (found : split? t = some (letters, number)) :
    dropFinalBreak t.chars = letters ++ number ∧ letters ≠ [] ∧
      (∀ c ∈ letters, Column.isLetter c = true) ∧ isRowNumber number = true := by
  unfold split? at found
  rw [List.span_eq_takeWhile_dropWhile] at found
  simp only at found
  split at found
  · next formed =>
      cases found
      simp only [Bool.and_eq_true, Bool.not_eq_true', List.isEmpty_eq_false_iff] at formed
      exact ⟨List.takeWhile_append_dropWhile.symm, formed.1.1,
        fun c there => List.mem_takeWhile_imp there, formed.2⟩
  · cases found

/-- Letters with a number behind them are taken apart into these two, if there are neither too few
nor too many letters and the number is one of a row. -/
theorem split_letters_append {letters number : List Char}
    (all_letters : ∀ c ∈ letters, Column.isLetter c = true)
    (number_first : ∀ c ∈ number.head?, Column.isLetter c = false)
    (number_last : (letters ++ number).getLast? ≠ some '\n') :
    split? (.ofChars (letters ++ number)) =
      if !letters.isEmpty && letters.length ≤ 3 && isRowNumber number then some (letters, number)
      else none := by
  have whole : dropFinalBreak (letters ++ number) = letters ++ number := by
    unfold dropFinalBreak
    rw [if_neg number_last]
  have nothing : number.takeWhile Column.isLetter = [] ∧
      number.dropWhile Column.isLetter = number := by
    cases number with
    | nil => exact ⟨rfl, rfl⟩
    | cons c rest =>
        have other := number_first c rfl
        exact ⟨List.takeWhile_cons_of_neg (by simp [other]),
          List.dropWhile_cons_of_neg (by simp [other])⟩
  unfold split?
  rw [Text.chars_ofChars, whole, List.span_eq_takeWhile_dropWhile,
    List.takeWhile_append_of_pos all_letters, List.dropWhile_append_of_pos all_letters, nothing.1,
    nothing.2, List.append_nil]

theorem split_of_parse {t : Text} {p : Position} (named : parse t = .ok p) :
    ∃ letters number, split? t = some (letters, number) ∧
      p = ⟨Decimal.valueOf number - 1, (Column.index (.ofChars letters)).toNat⟩ := by
  unfold parse at named
  split at named
  · cases named
  · next letters number found =>
      split at named
      · cases named
      · cases named
        exact ⟨letters, number, found, rfl⟩

/-- The characters of a text that names a position, but for a line feed at the end. -/
theorem chars_of_parse {t : Text} {p : Position} (named : parse t = .ok p) :
    dropFinalBreak t.chars = Column.numeral (p.col + 1) ++ Decimal.digits (p.row + 1) := by
  obtain ⟨letters, number, found, rfl⟩ := split_of_parse named
  obtain ⟨chars, some_letter, all_letters, row⟩ := split_ok found
  obtain ⟨_, numeral⟩ := Column.numeral_value all_letters
  obtain ⟨number_positive, digits⟩ := Decimal.digits_valueOf row
  have positive := Column.value_pos some_letter all_letters
  have col : (Column.index (.ofChars letters)).toNat + 1 =
      (Column.value (.ofChars letters)).toNat := by
    unfold Column.index
    omega
  have row_eq : Decimal.valueOf number - 1 + 1 = Decimal.valueOf number := by omega
  rw [chars, col, row_eq, numeral, digits]

theorem dropFinalBreak_append (cs : List Char) :
    dropFinalBreak cs ++ (if cs.getLast? = some '\n' then ['\n'] else []) = cs := by
  unfold dropFinalBreak
  split
  · next broken =>
      obtain ⟨front, rfl⟩ := List.getLast?_eq_some_iff.mp broken
      rw [List.dropLast_concat]
  · exact List.append_nil cs

/-- A text that names a position has only letters, digits and a line feed in it. -/
theorem mem_chars_of_parse {t : Text} {p : Position} (named : parse t = .ok p) {c : Char}
    (there : c ∈ t.chars) : Column.isLetter c = true ∨ Text.isDigit c = true ∨ c = '\n' := by
  obtain ⟨letters, number, found, _⟩ := split_of_parse named
  obtain ⟨chars, _, all_letters, row⟩ := split_ok found
  obtain ⟨_, all_digits⟩ := Decimal.digits_of_isRowNumber row
  rw [← dropFinalBreak_append t.chars, chars] at there
  rcases List.mem_append.mp there with there | there
  · rcases List.mem_append.mp there with there | there
    · exact .inl (all_letters c there)
    · exact .inr (.inl (all_digits c there))
  · split at there
    · exact .inr (.inr (List.mem_singleton.mp there))
    · cases there

/-- A text that names a position has a letter in it. -/
theorem exists_letter_of_parse {t : Text} {p : Position} (named : parse t = .ok p) :
    ∃ c ∈ t.chars, Column.isLetter c = true := by
  obtain ⟨letters, number, found, _⟩ := split_of_parse named
  obtain ⟨chars, some_letter, all_letters, _⟩ := split_ok found
  obtain ⟨c, rest, rfl⟩ := List.exists_cons_of_ne_nil some_letter
  refine ⟨c, ?_, all_letters c List.mem_cons_self⟩
  rw [← dropFinalBreak_append t.chars, chars]
  exact List.mem_cons_self

theorem whole_of_parse {t : Text} {p : Position} (named : parse t = .ok p) :
    '\ufffd' ∉ t.chars := by
  intro there
  have possible := mem_chars_of_parse named there
  revert possible
  decide

/-- **A text that names a position is its spelling**, or its spelling with a line feed behind it. -/
theorem spelling_of_parse {t : Text} {p : Position} (named : parse t = .ok p) :
    t = if isBroken t then spelling p ++ ("\n" : Text) else spelling p := by
  have chars := dropFinalBreak_append t.chars
  rw [chars_of_parse named] at chars
  have itself := Text.ofChars_chars (whole_of_parse named)
  unfold isBroken
  simp only [beq_iff_eq]
  split at chars
  · next broken =>
      rw [if_pos broken, ← itself, ← chars]
      refine Text.ext_points ?_
      simp [spelling, Text.ofChars, Text.ofString]
  · next whole =>
      rw [if_neg whole, ← itself, ← chars, List.append_nil]
      rfl

/-- Two texts that name the same position are the same, if both end in a line feed or none does. -/
theorem eq_of_parse {t u : Text} {p : Position} (named : parse t = .ok p) (also : parse u = .ok p)
    (alike : isBroken t = isBroken u) : t = u := by
  rw [spelling_of_parse named, spelling_of_parse also, alike]

end Label

end SheetCalc
