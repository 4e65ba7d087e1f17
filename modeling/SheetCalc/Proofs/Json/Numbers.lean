import SheetCalc.Json.Reader
import SheetCalc.Json.Writer
import SheetCalc.Proofs.Decimal.Shortest
import Mathlib.Data.List.TakeWhile
import Mathlib.Tactic.Ring

/-!
# Numbers come back from JSON

A number is written as a whole number with a fraction or an exponent behind it (`numberText`), and
is read up to its end (`readNumber_numberText`). An integer comes back (`readNumber_intText`), and a
float is read as a float (`IsFloat.read`).
-/

namespace SheetCalc

open Text (isDigit)

/-! ## Digits -/

namespace Decimal

/-- Digits of which the first one is not zero. -/
structure Leads (ds : List Char) : Prop where
  digits : ∀ d ∈ ds, isDigit d = true
  first : ∃ d, ds.head? = some d ∧ d ≠ '0'

theorem Leads.append {ds es : List Char} (leads : Leads ds) (digits : ∀ e ∈ es, isDigit e = true) :
    Leads (ds ++ es) := by
  obtain ⟨d, head, nonzero⟩ := leads.first
  refine ⟨?_, d, ?_, nonzero⟩
  · intro c there
    rcases List.mem_append.mp there with front | behind
    · exact leads.digits c front
    · exact digits c behind
  · rw [List.head?_append, head, Option.some_or]

theorem leads_digits {n : Nat} (positive : 0 < n) : Leads (Decimal.digits n) := by
  induction n using Nat.strongRecOn with
  | ind n ih =>
      refine ⟨fun d there => isDigit_of_mem_digits there, ?_⟩
      rw [digits]
      split
      · next small =>
          refine ⟨_, rfl, ?_⟩
          intro zero
          have value := toNat_digitChar small
          rw [zero] at value
          change 0x30 = 0x30 + n at value
          omega
      · have front := ih (n / 10) (by omega) (by omega)
        have last : ∀ d ∈ [Text.digitChar (n % 10)], isDigit d = true := by
          intro d there
          rw [List.mem_singleton.mp there]
          exact isDigit_digitChar (by omega)
        exact (front.append last).first

/-- A number below a power of ten has no more digits than that. -/
theorem length_digits_le {n k : Nat} (some : 0 < k) (small : n < Nat.pow 10 k) :
    (digits n).length ≤ k := by
  induction k generalizing n with
  | zero => cases some
  | succ k ih =>
      rw [digits]
      split
      · exact Nat.succ_le_succ (Nat.zero_le k)
      · next large =>
          have positive : 0 < k := by
            rcases Nat.eq_zero_or_pos k with rfl | positive
            · exact absurd small large
            · exact positive
          have quotient : n / 10 < Nat.pow 10 k :=
            Nat.div_lt_of_lt_mul (Nat.mul_comm _ 10 ▸ small)
          have shorter := ih positive quotient
          rw [List.length_append, List.length_singleton]
          omega

theorem leads_dropTrailingZeros {ds : List Char} (leads : Leads ds) :
    Leads (dropTrailingZeros ds) := by
  obtain ⟨digits, d, head, nonzero⟩ := leads
  obtain ⟨rest, rfl⟩ : ∃ rest, ds = d :: rest := by
    cases ds with
    | nil => cases head
    | cons e rest => exact ⟨rest, congrArg (· :: rest) (Option.some.inj head)⟩
  have kept : dropTrailingZeros (d :: rest) = d :: (rest.reverse.dropWhile (· == '0')).reverse := by
    unfold dropTrailingZeros
    rw [List.reverse_cons, List.dropWhile_append]
    split
    · next none_left =>
        rw [List.isEmpty_iff.mp none_left]
        simp [nonzero]
    · rw [List.reverse_append, List.reverse_singleton, List.singleton_append]
  rw [kept]
  refine ⟨?_, d, rfl, nonzero⟩
  intro c there
  refine digits c (List.mem_cons.mpr ((List.mem_cons.mp there).imp_right fun inside => ?_))
  exact List.mem_reverse.mp ((List.dropWhile_sublist _).subset (List.mem_reverse.mp inside))

theorem valueOf_append (ds es : List Char) :
    valueOf (ds ++ es) = valueOf ds * 10 ^ es.length + valueOf es := by
  induction es using List.reverseRecOn with
  | nil => simp [valueOf]
  | append_singleton es e ih =>
      rw [← List.append_assoc, valueOf_append_singleton, valueOf_append_singleton, ih,
        List.length_append, List.length_singleton, Nat.pow_succ]
      ring

theorem valueOf_zeros (n : Nat) : valueOf (List.replicate n '0') = 0 := by
  induction n with
  | zero => rfl
  | succ n ih =>
      rw [List.replicate_succ', valueOf_append_singleton, ih]
      rfl

theorem dropTrailingZeros_append (ds : List Char) :
    ∃ n, ds = dropTrailingZeros ds ++ List.replicate n '0' := by
  refine ⟨(ds.reverse.takeWhile (· == '0')).length, ?_⟩
  have zeros : ds.reverse.takeWhile (· == '0') =
      List.replicate (ds.reverse.takeWhile (· == '0')).length '0' := by
    refine List.eq_replicate_of_mem fun d there => ?_
    exact beq_iff_eq.mp (List.mem_takeWhile_imp (p := (· == '0')) there)
  have parts :=
    congrArg List.reverse (List.takeWhile_append_dropWhile (p := (· == '0')) (l := ds.reverse))
  rw [List.reverse_append, List.reverse_reverse, zeros, List.reverse_replicate] at parts
  exact parts.symm

/-- Dropping zeros at the end leaves a value that is as many powers of ten smaller. -/
theorem valueOf_dropTrailingZeros (ds : List Char) :
    (valueOf (dropTrailingZeros ds) : ℚ) * (10 : ℚ) ^
      ((ds.length : Int) - (dropTrailingZeros ds).length) = valueOf ds := by
  obtain ⟨n, parts⟩ := dropTrailingZeros_append ds
  have length := congrArg List.length parts
  rw [List.length_append, List.length_replicate] at length
  have shift : (ds.length : Int) - (dropTrailingZeros ds).length = n := by omega
  rw [shift, zpow_natCast]
  conv_rhs => rw [parts, valueOf_append, valueOf_zeros, List.length_replicate]
  push_cast
  rw [add_zero]

end Decimal

namespace Json

open Decimal (exponentText)

/-! ## How numbers are written -/

/-- Digits that are a whole number: if zero is the first one, it is the only one. -/
inductive Whole : List Char → Prop
  | zero : Whole ['0']
  | leads {ds : List Char} : Decimal.Leads ds → Whole ds

theorem isDigit_zeros : ∀ d ∈ ['0'], isDigit d = true := by
  intro d there
  rw [List.mem_singleton.mp there]
  decide

theorem Whole.digits {ds : List Char} (whole : Whole ds) : ∀ d ∈ ds, isDigit d = true := by
  cases whole with
  | zero => exact isDigit_zeros
  | leads leads => exact leads.digits

theorem Whole.head {ds : List Char} (whole : Whole ds) : ∃ d, ds.head? = some d := by
  cases whole with
  | zero => exact ⟨'0', rfl⟩
  | leads leads => exact ⟨_, leads.first.choose_spec.1⟩

theorem whole_digits (n : Nat) : Whole (Decimal.digits n) := by
  rcases Nat.eq_zero_or_pos n with rfl | positive
  · rw [Decimal.digits, if_pos (by decide)]
    exact .zero
  · exact .leads (Decimal.leads_digits positive)

/-- A fraction, if it has digits. -/
def fractionText (fraction : List Char) : List Char :=
  if fraction.isEmpty then [] else '.' :: fraction

/-- A number with a fraction and an exponent, if there are any. -/
def numberText (negative : Bool) (whole fraction : List Char) (e : Option Int) : List Char :=
  (if negative then ['-'] else []) ++ whole ++ fractionText fraction
    ++ (e.map exponentText).getD []

/-- What stands behind a number does not go on with it. -/
structure EndsNumber (rest : List Char) : Prop where
  digit : ∀ c ∈ rest.head?, isDigit c = false
  point : rest.head? ≠ some '.'
  exponent : exponent? rest = none

theorem endsNumber_nil : EndsNumber [] :=
  ⟨nofun, nofun, rfl⟩

theorem endsNumber_cons {c : Char} {rest : List Char} (digit : isDigit c = false) (point : c ≠ '.')
    (lower : c ≠ 'e') (upper : c ≠ 'E') : EndsNumber (c :: rest) := by
  refine ⟨?_, ?_, ?_⟩
  · intro d there
    rw [← Option.some.inj there]
    exact digit
  · intro same
    exact point (Option.some.inj same)
  · simp [exponent?, lower, upper]

/-- A text that begins like a number: with a digit, or with a minus and a digit. -/
def BeginsNumber : List Char → Prop
  | '-' :: c :: _ => isDigit c = true
  | c :: _ => isDigit c = true
  | [] => False

theorem beginsNumber_numberText (negative : Bool) {whole : List Char} (is_whole : Whole whole)
    (fraction : List Char) (e : Option Int) (rest : List Char) :
    BeginsNumber (numberText negative whole fraction e ++ rest) := by
  obtain ⟨d, head⟩ := is_whole.head
  have digit := is_whole.digits d (List.mem_of_mem_head? head)
  obtain ⟨more, rfl⟩ : ∃ more, whole = d :: more := by
    cases whole with
    | nil => cases head
    | cons c more => exact ⟨more, congrArg (· :: more) (Option.some.inj head)⟩
  unfold numberText
  cases negative with
  | true => exact digit
  | false =>
      show BeginsNumber (d :: _)
      unfold BeginsNumber
      split
      · next same =>
          rw [(List.cons.inj same).1] at digit
          cases digit
      · next same =>
          rw [← (List.cons.inj same).1]
          exact digit
      · next same => cases same

/-! ## How numbers are read -/

theorem span_digits {ds rest : List Char} (digits : ∀ d ∈ ds, isDigit d = true)
    (ends : ∀ c ∈ rest.head?, isDigit c = false) : (ds ++ rest).span isDigit = (ds, rest) := by
  have nothing : rest.takeWhile isDigit = [] ∧ rest.dropWhile isDigit = rest := by
    cases rest with
    | nil => exact ⟨rfl, rfl⟩
    | cons c rest =>
        have other := ends c rfl
        exact ⟨List.takeWhile_cons_of_neg (by simp [other]),
          List.dropWhile_cons_of_neg (by simp [other])⟩
  rw [List.span_eq_takeWhile_dropWhile, List.takeWhile_append_of_pos digits,
    List.dropWhile_append_of_pos digits, nothing.1, nothing.2, List.append_nil]

theorem wholeDigits_append {ds rest : List Char} (whole : Whole ds)
    (ends : ∀ c ∈ rest.head?, isDigit c = false) : wholeDigits (ds ++ rest) = (ds, rest) := by
  have digits := whole.digits
  cases whole with
  | zero => rfl
  | leads leads =>
      obtain ⟨d, head, nonzero⟩ := leads.first
      unfold wholeDigits
      split
      · next behind same =>
          have front : (ds ++ rest).head? = some d := by
            rw [List.head?_append, head, Option.some_or]
          rw [same] at front
          exact absurd (Option.some.inj front).symm nonzero
      · exact span_digits digits ends

theorem fractionDigits_append {fraction rest : List Char}
    (digits : ∀ d ∈ fraction, isDigit d = true) (ends : ∀ c ∈ rest.head?, isDigit c = false)
    (point : rest.head? ≠ some '.') :
    fractionDigits (fractionText fraction ++ rest) = (fraction, rest) := by
  unfold fractionText
  by_cases empty : fraction.isEmpty = true
  · rw [if_pos empty, List.nil_append, List.isEmpty_iff.mp empty]
    unfold fractionDigits
    split
    · exact absurd rfl point
    · rfl
  · rw [if_neg empty]
    show fractionDigits ('.' :: (fraction ++ rest)) = _
    unfold fractionDigits
    simp only [span_digits digits ends, if_neg empty]

theorem exponent_append (e : Int) {rest : List Char} (ends : ∀ c ∈ rest.head?, isDigit c = false) :
    exponent? (exponentText e ++ rest) = some (e, rest) := by
  have number : ∃ ds, (if (Decimal.digits e.natAbs).length < 2 then '0' :: Decimal.digits e.natAbs
      else Decimal.digits e.natAbs) = ds ∧ (∀ d ∈ ds, isDigit d = true) ∧ ds.isEmpty = false ∧
      Decimal.valueOf ds = e.natAbs := by
    have digits : ∀ d ∈ Decimal.digits e.natAbs, isDigit d = true :=
      fun d there => Decimal.isDigit_of_mem_digits there
    refine ⟨_, rfl, ?_⟩
    split
    · refine ⟨?_, rfl, ?_⟩
      · intro d there
        rcases List.mem_cons.mp there with rfl | behind
        · decide
        · exact digits d behind
      · have zero (ds : List Char) : Decimal.valueOf ('0' :: ds) = Decimal.valueOf ds := rfl
        rw [zero, Decimal.valueOf_digits]
    · exact ⟨digits, by simp [Decimal.digits_ne_nil], Decimal.valueOf_digits _⟩
  obtain ⟨ds, written, digits, some_digit, value⟩ := number
  have sign : Decimal.splitSign ((if e < 0 then '-' else '+') :: (ds ++ rest)) =
      (decide (e < 0), ds ++ rest) := by
    by_cases negative : e < 0 <;> simp [negative, Decimal.splitSign]
  have back : (if e < 0 then -(e.natAbs : Int) else e.natAbs) = e := by
    split <;> omega
  unfold exponentText
  simp only [written, List.cons_append]
  unfold exponent?
  simp only [sign, span_digits digits ends, some_digit, value, beq_self_eq_true, Bool.true_or,
    if_true, Bool.false_eq_true, if_false, decide_eq_true_eq, back]

/-- Behind the digits of a number stands its exponent, if it has one. -/
theorem exponent_behind (e : Option Int) {rest : List Char} (ends : EndsNumber rest) :
    let behind := (e.map exponentText).getD [] ++ rest
    (∀ c ∈ behind.head?, isDigit c = false) ∧ behind.head? ≠ some '.' ∧
      exponent? behind = e.map fun e => (e, rest) := by
  cases e with
  | none => exact ⟨ends.digit, ends.point, ends.exponent⟩
  | some e =>
      refine ⟨?_, ?_, exponent_append e ends.digit⟩
      · intro c there
        rw [← Option.some.inj there]
        decide
      · intro same
        exact absurd (Option.some.inj same) (by decide)

theorem head_fractionText (fraction : List Char) {behind : List Char}
    (ends : ∀ c ∈ behind.head?, isDigit c = false) :
    ∀ c ∈ (fractionText fraction ++ behind).head?, isDigit c = false := by
  unfold fractionText
  split
  · exact ends
  · intro c there
    rw [← Option.some.inj there]
    decide

/-- **A number is read up to its end.** It is a float if it has a fraction or an exponent. -/
theorem readNumber_numberText (negative : Bool) {whole fraction rest : List Char} (e : Option Int)
    (is_whole : Whole whole) (digits : ∀ d ∈ fraction, isDigit d = true) (ends : EndsNumber rest) :
    readNumber (numberText negative whole fraction e ++ rest) =
      match e with
      | some e => .ok (readNumber.float negative whole fraction e, rest)
      | none =>
        if !fraction.isEmpty then .ok (readNumber.float negative whole fraction 0, rest)
        else if Decimal.digitLimit < whole.length then .error (.tooLong whole.length)
        else
          let n : Int := Decimal.valueOf whole
          .ok (.int (if negative then -n else n), rest) := by
  obtain ⟨no_digit, no_point, exponent⟩ := exponent_behind e ends
  have fraction_read := fractionDigits_append digits no_digit no_point
  have whole_read := wholeDigits_append is_whole (head_fractionText fraction no_digit)
  obtain ⟨d, head⟩ := is_whole.head
  have some_digit : whole.isEmpty = false := by
    cases whole with
    | nil => cases head
    | cons _ _ => rfl
  unfold readNumber
  split
  next sign cs parted =>
    have parts : sign = negative ∧
        cs = whole ++ (fractionText fraction ++ ((e.map exponentText).getD [] ++ rest)) := by
      unfold numberText at parted
      simp only [List.append_assoc] at parted
      cases negative with
      | true =>
          cases parted
          exact ⟨rfl, rfl⟩
      | false =>
          split at parted
          · next same =>
              have front := congrArg List.head? same
              simp only [Bool.false_eq_true, if_false, List.nil_append] at front
              rw [List.head?_append, head, Option.some_or] at front
              have is_digit := is_whole.digits d (List.mem_of_mem_head? head)
              rw [Option.some.inj front] at is_digit
              cases is_digit
          · cases parted
            exact ⟨rfl, rfl⟩
    obtain ⟨rfl, rfl⟩ := parts
    simp only [whole_read, fraction_read, exponent, some_digit]
    cases e <;> rfl

/-! ## Integers and floats -/

theorem intText_eq (n : Int) :
    (Decimal.intText n).toList = numberText (n < 0) (Decimal.digits n.natAbs) [] none := by
  unfold Decimal.intText Decimal.natText numberText fractionText
  by_cases negative : n < 0 <;> simp [negative]

/-- An integer that is not too long comes back. -/
theorem readNumber_intText {n : Int} (writable : Decimal.isWritable n = true) {rest : List Char}
    (ends : EndsNumber rest) :
    readNumber ((Decimal.intText n).toList ++ rest) = .ok (.int n, rest) := by
  have short : (Decimal.digits n.natAbs).length ≤ Decimal.digitLimit :=
    Decimal.length_digits_le (by decide) (of_decide_eq_true writable)
  have back : (if n < 0 then -(n.natAbs : Int) else n.natAbs) = n := by
    split <;> omega
  rw [intText_eq, readNumber_numberText _ none (whole_digits _) (by nofun) ends]
  simp only [List.isEmpty_nil, Bool.not_true, Bool.false_eq_true, if_false, Decimal.valueOf_digits,
    if_neg (Nat.not_lt.mpr short), decide_eq_true_eq, back]

/-- The digits of a float, with a fraction, an exponent or both. -/
def IsFloat (cs : List Char) : Prop :=
  ∃ negative whole fraction e, cs = numberText negative whole fraction e ∧ Whole whole ∧
    (∀ d ∈ fraction, isDigit d = true) ∧ (fraction ≠ [] ∨ e ≠ none)

theorem IsFloat.read {cs : List Char} (float : IsFloat cs) :
    ∃ x, ∀ rest, EndsNumber rest → readNumber (cs ++ rest) = .ok (.float x, rest) := by
  obtain ⟨negative, whole, fraction, e, rfl, is_whole, digits, some_part⟩ := float
  have is_float (e : Int) : ∃ x, readNumber.float negative whole fraction e = .float x := ⟨_, rfl⟩
  cases e with
  | some e =>
      obtain ⟨x, same⟩ := is_float e
      refine ⟨x, fun rest ends => ?_⟩
      rw [readNumber_numberText negative (some e) is_whole digits ends]
      simp only [same]
  | none =>
      have some_digit : fraction.isEmpty = false := by
        simpa using some_part
      obtain ⟨x, same⟩ := is_float 0
      refine ⟨x, fun rest ends => ?_⟩
      rw [readNumber_numberText negative none is_whole digits ends]
      simp only [some_digit, same, Bool.not_false, if_true]

/-- The digits of a float with a given sign that stand for a given value. -/
def IsDecimal (cs : List Char) (negative : Bool) (v : ℚ) : Prop :=
  ∃ whole fraction e, cs = numberText negative whole fraction e ∧ Whole whole ∧
    (∀ d ∈ fraction, isDigit d = true) ∧ (fraction ≠ [] ∨ e ≠ none) ∧
    (Decimal.valueOf (whole ++ fraction) : ℚ) * (10 : ℚ) ^ (e.getD 0 - fraction.length) = v

theorem IsDecimal.isFloat {cs : List Char} {negative : Bool} {v : ℚ}
    (decimal : IsDecimal cs negative v) : IsFloat cs := by
  obtain ⟨whole, fraction, e, written, is_whole, digits, some_part, _⟩ := decimal
  exact ⟨negative, whole, fraction, e, written, is_whole, digits, some_part⟩

theorem isDecimal_pointed {ds : List Char} (leads : Decimal.Leads ds) (lead : Int)
    (negative : Bool) :
    IsDecimal ((if negative then ['-'] else []) ++ Decimal.pointed ds lead ['.', '0']) negative
      (Decimal.valueOf ds * (10 : ℚ) ^ (lead + 1 - ds.length)) := by
  have zeros (n : Nat) : ∀ d ∈ List.replicate n '0', isDigit d = true := by
    intro d there
    rw [List.eq_of_mem_replicate there]
    decide
  obtain ⟨d, head, _⟩ := leads.first
  have some_digit : ds ≠ [] := by
    rintro rfl
    cases head
  unfold Decimal.pointed
  by_cases small : lead < 0
  · refine ⟨['0'], List.replicate (-lead - 1).toNat '0' ++ ds, none, ?_, .zero, ?_, ?_, ?_⟩
    · simp [numberText, fractionText, small, some_digit]
    · intro d there
      rcases List.mem_append.mp there with front | behind
      · exact zeros _ d front
      · exact leads.digits d behind
    · exact .inl (by simp [some_digit])
    · have value : Decimal.valueOf (['0'] ++ (List.replicate (-lead - 1).toNat '0' ++ ds)) =
          Decimal.valueOf ds := by
        rw [← List.append_assoc, ← List.replicate_one, List.replicate_append_replicate,
          Decimal.valueOf_append, Decimal.valueOf_zeros, Nat.zero_mul, Nat.zero_add]
      rw [value, List.length_append, List.length_replicate, Option.getD_none]
      congr 2
      omega
  · rw [if_neg small]
    by_cases short : ds.length ≤ lead.toNat + 1
    · refine ⟨ds ++ List.replicate (lead.toNat + 1 - ds.length) '0', ['0'], none, ?_,
        .leads (leads.append (zeros _)), isDigit_zeros, .inl (by decide), ?_⟩
      · simp [numberText, fractionText, short]
      · rw [List.append_assoc, ← List.replicate_one, List.replicate_append_replicate,
          Decimal.valueOf_append, Decimal.valueOf_zeros, List.length_replicate, Option.getD_none]
        push_cast
        rw [add_zero, mul_assoc, ← zpow_natCast, ← zpow_add₀ (by norm_num)]
        congr 2
        rw [List.length_singleton]
        omega
    · have front : Decimal.Leads (ds.take (lead.toNat + 1)) := by
        refine ⟨fun d there => leads.digits d (List.mem_of_mem_take there), ?_⟩
        rw [List.head?_take, if_neg (by omega)]
        exact leads.first
      refine ⟨ds.take (lead.toNat + 1), ds.drop (lead.toNat + 1), none, ?_, .leads front,
        fun d there => leads.digits d (List.mem_of_mem_drop there), ?_, ?_⟩
      · simp [numberText, fractionText, short]
      · simpa using short
      · rw [List.take_append_drop, List.length_drop, Option.getD_none]
        congr 2
        omega

theorem isDecimal_scientific {ds : List Char} (leads : Decimal.Leads ds) (lead : Int)
    (negative : Bool) :
    IsDecimal ((if negative then ['-'] else []) ++ Decimal.scientific ds lead) negative
      (Decimal.valueOf ds * (10 : ℚ) ^ (lead + 1 - ds.length)) := by
  obtain ⟨digits, first⟩ := leads
  rcases ds with _ | ⟨d, _ | ⟨e, rest⟩⟩
  · obtain ⟨_, none_there, _⟩ := first
    cases none_there
  · refine ⟨[d], [], some lead, ?_, .leads ⟨digits, first⟩, nofun, .inr nofun, ?_⟩
    · simp [numberText, fractionText, Decimal.scientific]
    · simp
  · refine ⟨[d], e :: rest, some lead, ?_, .leads ⟨?_, first⟩,
      fun c there => digits c (List.mem_cons_of_mem d there), .inr nofun, ?_⟩
    · simp [numberText, fractionText, Decimal.scientific]
    · intro c there
      exact digits c (List.mem_cons.mpr (.inl (List.mem_singleton.mp there)))
    · rw [List.singleton_append, Option.getD_some]
      congr 2
      simp only [List.length_cons]
      omega

/-- The digits of a coefficient and a unit exponent stand for what these say. -/
theorem isDecimal_write {coefficient : Nat} (positive : 0 < coefficient) (unit : Int)
    (negative : Bool) :
    IsDecimal ((if negative then ['-'] else []) ++ Decimal.Layout.json.write coefficient unit)
      negative (coefficient * (10 : ℚ) ^ unit) := by
  have leads := Decimal.leads_dropTrailingZeros (Decimal.leads_digits positive)
  have dropped := Decimal.valueOf_dropTrailingZeros (Decimal.digits coefficient)
  have value : coefficient * (10 : ℚ) ^ unit =
      Decimal.valueOf (Decimal.dropTrailingZeros (Decimal.digits coefficient)) *
        (10 : ℚ) ^ (unit + (Decimal.digits coefficient).length - 1 + 1 -
          (Decimal.dropTrailingZeros (Decimal.digits coefficient)).length) := by
    rw [Decimal.valueOf_digits] at dropped
    rw [← dropped, mul_assoc, ← zpow_add₀ (by norm_num)]
    congr 2
    omega
  rw [value]
  unfold Decimal.Layout.write
  by_cases full : Decimal.Layout.json.lowest ≤ unit + (Decimal.digits coefficient).length - 1 ∧
      unit + (Decimal.digits coefficient).length - 1 < Decimal.Layout.json.limit
  · simp only [if_pos full]
    exact isDecimal_pointed leads _ negative
  · simp only [if_neg full]
    exact isDecimal_scientific leads _ negative

/-- A float is written by its name or by its digits. -/
theorem jsonFloatText_cases (x : Float) :
    IsFloat (Decimal.jsonFloatText x).toList ∨
      (Decimal.jsonFloatText x) ∈ ["NaN", "Infinity", "-Infinity"] := by
  have signed (cs : List Char) :
      (if Decimal.isNegative x then "-" ++ String.ofList cs else String.ofList cs).toList =
        (if Decimal.isNegative x then ['-'] else []) ++ cs := by
    split <;> simp
  unfold Decimal.jsonFloatText Decimal.Layout.text
  simp only
  split
  · exact .inr (by decide)
  · right
    split <;> decide
  · next m q finite =>
      left
      split
      · rw [signed]
        refine ⟨Decimal.isNegative x, ['0'], ['0'], none, ?_, .zero, isDigit_zeros,
          .inl (by decide)⟩
        simp [numberText, fractionText, Decimal.Layout.json]
      · next nonzero =>
          rw [signed]
          exact (isDecimal_write (Decimal.shortest_pos finite nonzero) _ _).isFloat

/-! ## Names -/

/-- The name of a value in front of a text is read. -/
theorem readName_name {name : String} {v : Value} (there : (name, v) ∈ names) (rest : List Char) :
    readName? (name.toList ++ rest) = some (v, rest) := by
  simp only [names, List.mem_cons, List.not_mem_nil, or_false, Prod.mk.injEq] at there
  rcases there with ⟨rfl, rfl⟩ | ⟨rfl, rfl⟩ | ⟨rfl, rfl⟩ | ⟨rfl, rfl⟩ | ⟨rfl, rfl⟩
    | ⟨rfl, rfl⟩ <;> rfl

/-- No name begins like a number. -/
theorem readName_none {cs : List Char} (begins : BeginsNumber cs) : readName? cs = none := by
  have shapes : ∀ entry ∈ names, ∃ c d rest, entry.1.toList = c :: d :: rest ∧
      isDigit c = false ∧ isDigit d = false := by
    intro entry there
    simp only [names, List.mem_cons, List.not_mem_nil, or_false] at there
    rcases there with rfl | rfl | rfl | rfl | rfl | rfl <;> exact ⟨_, _, _, rfl, rfl, rfl⟩
  unfold readName?
  rw [Option.map_eq_none_iff, List.find?_eq_none]
  intro entry there front
  obtain ⟨c, d, rest, name, first, second⟩ := shapes entry there
  obtain ⟨behind, rfl⟩ := List.isPrefixOf_iff_prefix.mp front
  rw [name] at begins
  unfold BeginsNumber at begins
  split at begins <;> simp_all

end Json

end SheetCalc
