import SheetCalc.Proofs.Json.Numbers
import SheetCalc.Proofs.Sheet.Positions

/-!
# Labels that are made

Each row and column has a label, and reading it gives the row and the column back if there are such:
neither is negative, and three letters are enough for the column. Any other label that is made is
malformed, so that none is read as a position for which it was not made (`parse_make`). On a sheet
these labels lead to all cells of the grid that can be named, and to no others.
-/

namespace SheetCalc

open Decimal (digits digitLimit isWritable)

/-- How many columns there are with at most three letters. -/
def Column.named : Nat := 18278

theorem Column.capacity_three : Column.capacity 3 = Column.named := rfl

/-! ## Numbers of rows -/

namespace Decimal

theorem isRowNumber_of_leads {ds : List Char} (leads : Leads ds) : Label.isRowNumber ds = true := by
  obtain ⟨all_digits, d, head, nonzero⟩ := leads
  cases ds with
  | nil => cases head
  | cons e rest =>
      obtain rfl : e = d := Option.some.inj head
      rw [Label.isRowNumber, Bool.and_eq_true, bne_iff_ne]
      exact ⟨nonzero, List.all_eq_true.mpr all_digits⟩

/-- The number of a row is written as a row number exactly if there is such a row. -/
theorem isRowNumber_intText (n : Int) : Label.isRowNumber (intText n).toList = decide (0 < n) := by
  rw [Json.intText_eq]
  unfold Json.numberText
  by_cases negative : n < 0
  · simp [negative, Label.isRowNumber, Text.isDigit, Int.le_of_lt negative]
  · simp only [negative, decide_false, Bool.false_eq_true, if_false, List.nil_append,
      Json.fractionText, List.isEmpty_nil, if_true, List.append_nil, Option.map_none,
      Option.getD_none]
    by_cases positive : 0 < n
    · rw [isRowNumber_of_leads (leads_digits (by omega)), decide_eq_true positive]
    · have zero : n.natAbs = 0 := by omega
      rw [zero, decide_eq_false positive, digits, if_pos (by decide)]
      decide

/-- What a number ends with is no line feed, and what it begins with is no letter. -/
theorem intText_ends (n : Int) : (intText n).toList.getLast? ≠ some '\n' ∧
    ∀ c ∈ (intText n).toList.head?, Column.isLetter c = false := by
  have all : ∀ c ∈ (intText n).toList, c = '-' ∨ Text.isDigit c = true := by
    intro c there
    rw [Json.intText_eq] at there
    simp only [Json.numberText, Json.fractionText, List.isEmpty_nil, if_true, Option.map_none,
      Option.getD_none, List.append_nil, List.mem_append] at there
    rcases there with sign | digit
    · split at sign
      · exact .inl (List.mem_singleton.mp sign)
      · cases sign
    · exact .inr (isDigit_of_mem_digits digit)
  constructor
  · intro last
    rcases all _ (List.mem_of_getLast? last) with minus | digit
    · cases minus
    · cases digit
  · intro c first
    rcases all c (List.mem_of_mem_head? first) with rfl | digit
    · decide
    · exact isLetter_of_isDigit digit

end Decimal

/-! ## Reading what is made -/

namespace Label

/-- The letters and the number of a label that is made. -/
theorem split_made (row col : Int) :
    split? (Text.ofString (String.ofList (Column.letters col) ++ Decimal.intText (row + 1))) =
      if 0 ≤ row ∧ 0 ≤ col ∧ col < Column.named then
        some (Column.letters col, (Decimal.intText (row + 1)).toList)
      else none := by
  obtain ⟨no_break, no_letter⟩ := Decimal.intText_ends (row + 1)
  have some_digit : (Decimal.intText (row + 1)).toList ≠ [] := by
    rw [Json.intText_eq]
    simp [Json.numberText, Decimal.digits_ne_nil]
  have last : (Column.letters col ++ (Decimal.intText (row + 1)).toList).getLast? ≠ some '\n' := by
    rw [List.getLast?_append_of_ne_nil _ some_digit]
    exact no_break
  have some_letter : (Column.letters col).isEmpty = decide (col < 0) := by
    unfold Column.letters
    by_cases negative : col < 0
    · rw [Int.toNat_eq_zero.mpr (by omega), Column.numeral, decide_eq_true negative]
      rfl
    · obtain ⟨n, next⟩ : ∃ n, (col + 1).toNat = n + 1 := ⟨col.toNat, by omega⟩
      rw [next, Column.numeral, decide_eq_false negative]
      simp
  have few_letters : (Column.letters col).length ≤ 3 ↔ col < Column.named := by
    unfold Column.letters
    rw [Column.length_numeral_le_iff, Column.capacity_three]
    unfold Column.named
    omega
  have all_letters : ∀ c ∈ Column.letters col, Column.isLetter c = true :=
    fun c there => Column.isLetter_of_mem_numeral there
  have chars : Text.ofString (String.ofList (Column.letters col) ++ Decimal.intText (row + 1)) =
      .ofChars (Column.letters col ++ (Decimal.intText (row + 1)).toList) := by
    simp [Text.ofString]
  rw [chars, split_letters_append all_letters no_letter last, some_letter,
    Decimal.isRowNumber_intText]
  refine if_congr ?_ rfl rfl
  rw [Bool.and_eq_true, Bool.and_eq_true, Bool.not_eq_true', decide_eq_false_iff_not,
    decide_eq_true_iff, decide_eq_true_iff, few_letters]
  omega

/-- What a label that is made is read as. -/
theorem parse_made {row col : Int} (writable : isWritable (row + 1) = true) :
    parse (Text.ofString (String.ofList (Column.letters col) ++ Decimal.intText (row + 1))) =
      if 0 ≤ row ∧ 0 ≤ col ∧ col < Column.named then .ok ⟨row.toNat, col.toNat⟩
      else .error (.malformed
        (Text.ofString (String.ofList (Column.letters col) ++ Decimal.intText (row + 1)))) := by
  unfold parse
  rw [split_made]
  by_cases there : 0 ≤ row ∧ 0 ≤ col ∧ col < Column.named
  · have row_there := there.1
    have col_there := there.2.1
    have text : (Decimal.intText (row + 1)).toList = digits (row + 1).natAbs := by
      have no_minus : ¬ row + 1 < 0 := by omega
      simp [Json.intText_eq, Json.numberText, Json.fractionText, no_minus]
    have short : (digits (row + 1).natAbs).length ≤ digitLimit :=
      Decimal.length_digits_le (by decide) (of_decide_eq_true writable)
    have col_value : Column.index (.ofChars (Column.letters col)) = col := by
      unfold Column.index Column.letters
      rw [Column.value_numeral]
      omega
    have row_value : (row + 1).natAbs - 1 = row.toNat := by omega
    rw [if_pos there, if_pos there]
    simp only [text, if_neg (Nat.not_lt.mpr short), Decimal.valueOf_digits, col_value, row_value]
  · rw [if_neg there, if_neg there]

/-- **Reading undoes making**, where the row and the column are there: neither is negative, and
three letters name the column. Any other label that is made is malformed. Asking a sheet for the
cell at a label that is made succeeds exactly if it is made for a position in the grid with a column
that three letters name. -/
theorem parse_make (row col : Int) (writable : isWritable (row + 1) = true) :
    ∃ label : String, make? row col = some label ∧
      (parse label =
        if 0 ≤ row ∧ 0 ≤ col ∧ col < Column.named then .ok ⟨row.toNat, col.toNat⟩
        else .error (.malformed label)) ∧
      ∀ s : Sheet, (∃ found, s.cell label = .ok found) ↔
        (0 ≤ row ∧ row < s.rows) ∧ 0 ≤ col ∧ col < min s.cols Column.named := by
  have read := @parse_made row col writable
  refine ⟨_, if_pos writable, read, ?_⟩
  intro s
  have found_iff (label : Text) :
      (∃ found, s.cell label = .ok found) ↔ ∃ p, s.position label = .ok p := by
    cases inside : s.position label with
    | error e => simp [Sheet.cell, inside]
    | ok p => simp [s.cell_eq inside]
  rw [found_iff]
  simp only [Sheet.position_ok_iff, read]
  constructor
  · rintro ⟨⟨r, c⟩, same, row_inside, col_inside⟩
    simp only at row_inside col_inside
    split at same
    · next there =>
        cases same
        omega
    · cases same
  · rintro ⟨⟨row_there, row_inside⟩, col_there, col_inside⟩
    have named : 0 ≤ row ∧ 0 ≤ col ∧ col < Column.named := by omega
    refine ⟨⟨row.toNat, col.toNat⟩, if_pos named, ?_, ?_⟩
    · show row.toNat < s.rows
      omega
    · show col.toNat < s.cols
      omega

/-- A column that three letters name last, in a row of a small sheet, and the column behind it. -/
theorem parse_make_lastNamed :
    isWritable (4 + 1) = true ∧
      (∃ label : String, make? 4 18277 = some label ∧ parse label = .ok ⟨4, 18277⟩) ∧
      ∃ label : String, make? 4 18278 = some label ∧ parse label = .error (.malformed label) := by
  have writable : isWritable (4 + 1) = true := by decide +kernel
  obtain ⟨last, made, read, _⟩ := parse_make 4 18277 writable
  obtain ⟨behind, made_behind, read_behind, _⟩ := parse_make 4 18278 writable
  rw [if_pos (by decide)] at read
  rw [if_neg (by decide)] at read_behind
  exact ⟨writable, ⟨last, made, read⟩, behind, made_behind, read_behind⟩

end Label

end SheetCalc
