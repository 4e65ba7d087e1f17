import Mathlib.Data.List.Shortlex
import SheetCalc.Proofs.Label

/-!
# Columns in order

Letters from `A` to `Z` are numerals without a zero digit, so each number above zero has exactly
one, and each row of letters is one. Every digit that a number has more stands for more than all
numbers with fewer digits, and the digits have the order of the alphabet; so the order of the
columns is that of their names by length, and by the alphabet among names of one length
(`letters_index`).
-/

namespace SheetCalc.Column

/-- A text names a column if it has a letter, and nothing else. -/
def IsName (t : Text) : Prop :=
  t.chars ≠ [] ∧ ∀ c ∈ t.chars, isLetter c = true

/-- Some letters come before others if they are fewer, or as many and before them in the
alphabet. -/
def Before (cs ds : List Char) : Prop :=
  List.Shortlex (· < ·) cs ds

theorem Before.asymm {cs ds : List Char} (before : Before cs ds) : ¬ Before ds cs := by
  unfold Before at *
  exact Std.Asymm.asymm cs ds before

/-! ## One digit more -/

theorem letter_lt_letter {a b : Nat} (less : a < b) (digit : b < 26) : letter a < letter b := by
  show (letter a).toNat < (letter b).toNat
  rw [toNat_letter (Nat.lt_trans less digit), toNat_letter digit]
  omega

/-- What stands behind rows of one length makes no difference to their order. -/
theorem lex_append_of_length_eq {cs ds : List Char} (lex : List.Lex (· < ·) cs ds)
    (same : cs.length = ds.length) (behind more : List Char) :
    List.Lex (· < ·) (cs ++ behind) (ds ++ more) := by
  induction lex with
  | nil => cases same
  | cons _ ih => exact .cons (ih (Nat.succ.inj same))
  | rel less => exact .rel less

/-- Of two numerals the leading digits decide. -/
theorem Before.concat {cs ds : List Char} (before : Before cs ds) (c d : Char) :
    Before (cs ++ [c]) (ds ++ [d]) := by
  rcases List.shortlex_def.mp before with shorter | ⟨same, lex⟩
  · refine .of_length_lt ?_
    rw [List.length_append, List.length_append]
    exact Nat.add_lt_add_right shorter 1
  · refine .of_lex ?_ (lex_append_of_length_eq lex same [c] [d])
    rw [List.length_append, List.length_append, same]
    rfl

/-- If the leading digits are the same, the last one decides. -/
theorem before_concat_of_lt {c d : Char} (less : c < d) (cs : List Char) :
    Before (cs ++ [c]) (cs ++ [d]) :=
  List.Shortlex.append_left ((List.shortlex_singleton_iff c d).mpr less) cs

/-! ## The order of numerals -/

/-- Numerals of larger numbers come later. -/
theorem numeral_before {n m : Nat} (less : n < m) : Before (numeral n) (numeral m) := by
  induction n using Nat.strongRecOn generalizing m with
  | ind n ih =>
      obtain ⟨m, rfl⟩ : ∃ k, m = k + 1 := ⟨m - 1, by omega⟩
      cases n with
      | zero =>
          refine .of_length_lt ?_
          rw [numeral, numeral, List.length_append, List.length_singleton]
          exact Nat.succ_pos _
      | succ n =>
          rw [numeral, numeral]
          rcases Nat.lt_or_eq_of_le (Nat.div_le_div_right (c := 26) (by omega : n ≤ m)) with
            front | front
          · exact (ih (n / 26) (by omega) front).concat _ _
          · rw [front]
            exact before_concat_of_lt (letter_lt_letter (by omega) (Nat.mod_lt m (by decide))) _

theorem numeral_before_iff {n m : Nat} : Before (numeral n) (numeral m) ↔ n < m := by
  constructor
  · intro before
    rcases Nat.lt_trichotomy n m with less | rfl | more
    · exact less
    · exact absurd before before.asymm
    · exact absurd before (numeral_before more).asymm
  · exact numeral_before

/-! ## Names of columns -/

theorem isName_letters {n : Int} (there : 0 ≤ n) : IsName (.ofChars (letters n)) := by
  obtain ⟨k, next⟩ : ∃ k, (n + 1).toNat = k + 1 := ⟨n.toNat, by omega⟩
  unfold IsName
  rw [Text.chars_ofChars, letters]
  refine ⟨?_, fun c among => isLetter_of_mem_numeral among⟩
  rw [next, numeral]
  simp

/-- A text that names a column is the text of its characters. -/
theorem IsName.ofChars_chars {t : Text} (name : IsName t) : Text.ofChars t.chars = t := by
  refine Text.ofChars_chars ?_
  intro replaced
  exact absurd (name.2 _ replaced) (by decide)

/-- **The columns are numbered by their names in order.** Each index has a name, which is read as
this index, and each text of letters alone, however long, is the name of the index that it is read
as. One index is less than another exactly if its name is shorter, or as long and before the other
in the alphabet. -/
theorem letters_index :
    (∀ n : Int, 0 ≤ n → IsName (.ofChars (letters n)) ∧ index (.ofChars (letters n)) = n) ∧
      (∀ t : Text, IsName t → 0 ≤ index t ∧ Text.ofChars (letters (index t)) = t) ∧
      ∀ n m : Int, 0 ≤ n → 0 ≤ m → (n < m ↔ Before (letters n) (letters m)) := by
  refine ⟨?_, ?_, ?_⟩
  · intro n there
    refine ⟨isName_letters there, ?_⟩
    rw [index, letters, value_numeral]
    omega
  · intro t name
    have positive := value_pos name.1 name.2
    obtain ⟨_, numeral_eq⟩ := numeral_value name.2
    rw [name.ofChars_chars] at positive numeral_eq
    refine ⟨by unfold index; omega, ?_⟩
    rw [letters, index, Int.sub_add_cancel, numeral_eq]
    exact name.ofChars_chars
  · intro n m n_there m_there
    rw [letters, letters, numeral_before_iff]
    omega

/-- `ZZZ` is the last name with three letters. The next one is `AAAA`, which stands before it in the
alphabet. -/
theorem letters_index_lastNamed :
    (IsName "ZZZ" ∧ index "ZZZ" = 18277) ∧ (IsName "AAAA" ∧ index "AAAA" = 18278) ∧
      Text.ofChars (letters 18277) = "ZZZ" ∧ Text.ofChars (letters 18278) = "AAAA" ∧
      Before (letters 18277) (letters 18278) := by
  obtain ⟨_, named, ordered⟩ := letters_index
  have last : IsName "ZZZ" := ⟨by decide, List.all_eq_true.mp (by decide)⟩
  have behind : IsName "AAAA" := ⟨by decide, List.all_eq_true.mp (by decide)⟩
  have last_index : index "ZZZ" = 18277 := by decide
  have behind_index : index "AAAA" = 18278 := by decide
  refine ⟨⟨last, last_index⟩, ⟨behind, behind_index⟩, ?_, ?_, ?_⟩
  · rw [← last_index]
    exact (named "ZZZ" last).2
  · rw [← behind_index]
    exact (named "AAAA" behind).2
  · exact (ordered 18277 18278 (by decide) (by decide)).mp (by decide)

end SheetCalc.Column
