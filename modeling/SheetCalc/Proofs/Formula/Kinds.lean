import SheetCalc.Proofs.Formula.Symbols
import SheetCalc.Proofs.Sheet.Positions

/-!
# Kinds of tokens

No label of a sheet is a number: a numeral begins with a sign, a point or a digit, or it is a name,
and a name has no digit in it (`read?_of_isLabel`). So a token is a number, a label, a parenthesis
or an operator, and never two of them (`Token.Is.unique`), and the order in which it is tested for
them makes no difference to what it is taken for (`classify_settled`).
-/

namespace SheetCalc

/-! ## Numerals and labels -/

namespace Text

/-- What stands between characters of a class is what is left, if it neither begins nor ends with
one of them. -/
theorem strip_append {p : Char → Bool} {cs behind : List Char} (first : ∀ c ∈ cs.head?, p c = false)
    (last : ∀ c ∈ cs.getLast?, p c = false) (stripped : ∀ c ∈ behind, p c = true) :
    strip p (cs ++ behind) = cs := by
  have no_front (ds : List Char) (first : ∀ c ∈ ds.head?, p c = false) : ds.dropWhile p = ds := by
    cases ds with
    | nil => rfl
    | cons d ds => exact List.dropWhile_cons_of_neg (by simp [first d rfl])
  cases cs with
  | nil =>
      unfold strip
      rw [List.nil_append, List.dropWhile_eq_nil_iff.mpr stripped]
      rfl
  | cons c cs =>
      unfold strip
      rw [no_front (c :: cs ++ behind) first, List.reverse_append,
        List.dropWhile_append_of_pos fun c there => stripped c (List.mem_reverse.mp there),
        no_front _ (by rwa [List.head?_reverse]), List.reverse_reverse]

theorem toAsciiDigit_of_ascii {c : Char} (ascii : c.toNat < 0x80) : toAsciiDigit c = c := by
  have all : ∀ n < 0x80, toAsciiDigit (Char.ofNat n) = Char.ofNat n := by decide +kernel
  have same := all c.toNat ascii
  rwa [Char.ofNat_toNat] at same

theorem toLower_of_isDigit {c : Char} (digit : isDigit c = true) : c.toLower = c := by
  have all : ∀ n < 0x3a, (Char.ofNat n).toLower = Char.ofNat n := by decide
  have same := all c.toNat (Nat.lt_succ_of_le (Decimal.isDigit_iff.mp digit).2)
  rwa [Char.ofNat_toNat] at same

end Text

namespace Decimal

open Text (isDigit)

theorem ungroup_of_not_mem {cs : List Char} (no_line : '_' ∉ cs) (afterDigit : Bool) :
    ungroup afterDigit cs = some cs := by
  induction cs generalizing afterDigit with
  | nil => rfl
  | cons c cs ih =>
      have other : c ≠ '_' := fun same => no_line (same ▸ List.mem_cons_self)
      rw [ungroup.eq_4 _ _ _ (fun same _ => other same) (fun _ _ same _ => other same),
        ih fun there => no_line (List.mem_cons_of_mem c there)]
      rfl

theorem splitSign_of_letter {c : Char} (letter : Column.isLetter c = true) (cs : List Char) :
    splitSign (c :: cs) = (false, c :: cs) := by
  unfold splitSign
  split
  · next same =>
      cases same
      cases letter
  · next same =>
      cases same
      cases letter
  · rfl

/-- A text with a digit in it is none of the names of numbers. -/
theorem lower_ne_name {cs : List Char} (some_digit : ∃ d ∈ cs, isDigit d = true) {name : String}
    (wordy : name.toList.any isDigit = false) : String.ofList (cs.map Char.toLower) ≠ name := by
  rintro rfl
  obtain ⟨d, there, digit⟩ := some_digit
  rw [String.toList_ofList, List.any_eq_false] at wordy
  have lowered := wordy d.toLower (List.mem_map_of_mem there)
  rw [Text.toLower_of_isDigit digit] at lowered
  exact lowered digit

/-- What begins with a letter is read as a name, and names have no digits. -/
theorem readUnsigned?_of_letter {c : Char} {cs : List Char} (letter : Column.isLetter c = true)
    (some_digit : ∃ d ∈ cs, isDigit d = true) (negative : Bool) :
    readUnsigned? negative (c :: cs) = none := by
  have no_name {name : String} (wordy : name.toList.any isDigit = false) :
      (String.ofList ((c :: cs).map Char.toLower) == name) = false := by
    obtain ⟨d, there, digit⟩ := some_digit
    exact beq_false_of_ne (lower_ne_name ⟨d, List.mem_cons_of_mem c there, digit⟩ wordy)
  have no_digit : isDigit c = false := by
    by_contra digit
    rw [isLetter_of_isDigit (by simpa using digit)] at letter
    cases letter
  have no_point : c ≠ '.' := by
    rintro rfl
    cases letter
  have no_decimal : readDecimal? negative (c :: cs) = none := by
    have no_whole : (c :: cs).span isDigit = ([], c :: cs) := by
      simp [List.span_eq_takeWhile_dropWhile, no_digit]
    unfold readDecimal?
    rw [no_whole]
    simp only
    split
    · next same => exact absurd (List.cons.inj same).1 no_point
    · rfl
  unfold readUnsigned?
  simp only [no_name (by decide : "inf".toList.any isDigit = false),
    no_name (by decide : "infinity".toList.any isDigit = false),
    no_name (by decide : "nan".toList.any isDigit = false), no_decimal, Bool.or_self,
    Bool.false_eq_true, if_false]

end Decimal

namespace Label

open Text (isDigit)

/-- A label is what it is taken apart into, for one that reads it as a number. -/
theorem plainDigits_of_split {t : Text} {letters number : List Char}
    (found : split? t = some (letters, number)) :
    Decimal.plainDigits t.chars = letters ++ number := by
  obtain ⟨chars, some_letter, all_letters, row⟩ := split_ok found
  obtain ⟨some_digit, all_digits⟩ := Decimal.digits_of_isRowNumber row
  have ascii : ∀ c ∈ letters ++ number, c.toNat < 0x80 ∧ Decimal.isNumeralBlank c = false := by
    have plain : ∀ n < 0x80, 0x30 ≤ n → Decimal.isNumeralBlank (Char.ofNat n) = false := by
      decide +kernel
    intro c there
    have bounds : 0x30 ≤ c.toNat ∧ c.toNat < 0x80 := by
      rcases List.mem_append.mp there with letter | digit
      · have := Column.isLetter_iff.mp (all_letters c letter)
        omega
      · have := Decimal.isDigit_iff.mp (all_digits c digit)
        omega
    have no_blank := plain c.toNat bounds.2 bounds.1
    rw [Char.ofNat_toNat] at no_blank
    exact ⟨bounds.2, no_blank⟩
  have stripped : Text.strip Decimal.isNumeralBlank t.chars = letters ++ number := by
    rw [← dropFinalBreak_append t.chars, chars]
    refine Text.strip_append (fun c first => ?_) (fun c last => ?_) ?_
    · exact (ascii c (List.mem_of_mem_head? first)).2
    · exact (ascii c (List.mem_of_getLast? last)).2
    · intro c there
      split at there
      · rw [List.mem_singleton.mp there]
        decide
      · cases there
  unfold Decimal.plainDigits
  rw [stripped]
  refine (List.map_congr_left fun c there => ?_).trans (List.map_id _)
  exact Text.toAsciiDigit_of_ascii (ascii c there).1

/-- **No label is a numeral**, not even of what is not a number. -/
theorem read?_of_isLabel {t : Text} (label : isLabel t = true) :
    Decimal.Numeral.read? t.chars = none := by
  obtain ⟨⟨letters, number⟩, found⟩ := Option.isSome_iff_exists.mp label
  obtain ⟨_, some_letter, all_letters, row⟩ := split_ok found
  obtain ⟨some_digit, all_digits⟩ := Decimal.digits_of_isRowNumber row
  obtain ⟨c, more, rfl⟩ := List.exists_cons_of_ne_nil some_letter
  obtain ⟨d, ds, rfl⟩ := List.exists_cons_of_ne_nil some_digit
  have letter := all_letters c List.mem_cons_self
  have no_line : '_' ∉ c :: more ++ d :: ds := by
    intro there
    rcases List.mem_append.mp there with among | among
    · exact absurd (all_letters _ among) (by decide)
    · exact absurd (all_digits _ among) (by decide)
  unfold Decimal.Numeral.read?
  rw [plainDigits_of_split found, Decimal.ungroup_of_not_mem no_line]
  simp only [Option.bind_some, List.cons_append, Decimal.splitSign_of_letter letter]
  exact Decimal.readUnsigned?_of_letter letter
    ⟨d, List.mem_append_right _ List.mem_cons_self, all_digits d List.mem_cons_self⟩ false

end Label

/-! ## What a token is -/

namespace Formula

namespace Token

/-- What a token is, without an order among the kinds. -/
inductive Is (isLabel : Text → Bool) (t : Text) : Kind → Prop
  | number {x} : number? t = some x → Is isLabel t (.number x)
  | reference : isLabel t = true → Is isLabel t .reference
  | openParen : t = openSign → Is isLabel t .openParen
  | closeParen : t = closeSign → Is isLabel t .closeParen
  | operator (o : Operator) : t = o.sign → Is isLabel t (.operator o)

/-- The tests for the kinds of a token, one for each. -/
def tests (isLabel : Text → Bool) : List (Text → Option Kind) :=
  [fun t => (number? t).map .number,
    fun t => if isLabel t then some .reference else none,
    fun t => if t = openSign then some .openParen else none,
    fun t => if t = closeSign then some .closeParen else none,
    fun t => (Operator.ofSign? t).map .operator]

/-- What a token is taken for if tests are made in order, up to the first that finds something. -/
def firstFound (order : List (Text → Option Kind)) (t : Text) : Kind :=
  (order.findSome? (· t)).getD .unknown

section

variable {isLabel : Text → Bool} {t : Text} {k : Kind}

/-- The tests find what a token is. -/
theorem exists_test_iff : (∃ test ∈ tests isLabel, test t = some k) ↔ Is isLabel t k := by
  have found_iff : (∃ test ∈ tests isLabel, test t = some k) ↔
      (∃ x, number? t = some x ∧ .number x = k) ∨ (isLabel t = true ∧ .reference = k) ∨
        (t = openSign ∧ .openParen = k) ∨ (t = closeSign ∧ .closeParen = k) ∨
        ∃ o, Operator.ofSign? t = some o ∧ .operator o = k := by
    simp [tests]
  rw [found_iff]
  constructor
  · rintro (⟨x, number, rfl⟩ | ⟨label, rfl⟩ | ⟨opens, rfl⟩ | ⟨closes, rfl⟩ | ⟨o, sign, rfl⟩)
    · exact .number number
    · exact .reference label
    · exact .openParen opens
    · exact .closeParen closes
    · exact .operator o (Operator.sign_of_ofSign? sign)
  · rintro (number | label | opens | closes | ⟨o, rfl⟩)
    · exact .inl ⟨_, number, rfl⟩
    · exact .inr (.inl ⟨label, rfl⟩)
    · exact .inr (.inr (.inl ⟨opens, rfl⟩))
    · exact .inr (.inr (.inr (.inl ⟨closes, rfl⟩)))
    · exact .inr (.inr (.inr (.inr ⟨o, Operator.ofSign?_sign o, rfl⟩)))

theorem is_or_unknown (isLabel : Text → Bool) (t : Text) :
    Is isLabel t (classify isLabel t) ∨ classify isLabel t = .unknown := by
  have sound := classify_sound isLabel t
  cases found : classify isLabel t with
  | number x =>
      rw [found] at sound
      exact .inl (.number sound)
  | reference =>
      rw [found] at sound
      exact .inl (.reference sound.2)
  | openParen =>
      rw [found] at sound
      exact .inl (.openParen sound)
  | closeParen =>
      rw [found] at sound
      exact .inl (.closeParen sound)
  | operator o =>
      rw [found] at sound
      exact .inl (.operator o sound)
  | unknown => exact .inr rfl

/-- Labels are told apart from all other tokens: they are neither symbols nor numbers. -/
structure Separates (isLabel : Text → Bool) : Prop where
  rejects : RejectsSymbols isLabel
  number?_eq_none : ∀ t, isLabel t = true → number? t = none

/-- The labels of sheets are told apart from all other tokens. -/
theorem separates_isLabel : Separates Label.isLabel := by
  refine ⟨rejectsSymbols_isLabel, ?_⟩
  intro t label
  unfold number? Decimal.readFloat?
  rw [Label.read?_of_isLabel label]
  rfl

variable (separates : Separates isLabel)

include separates

/-- A token is taken for what it is. -/
theorem Is.classify_eq (is : Is isLabel t k) : classify isLabel t = k := by
  cases is with
  | number number => exact classify_of_number? number
  | reference label => exact classify_of_isLabel (separates.number?_eq_none t label) label
  | openParen opens =>
      rw [opens]
      exact classify_openSign separates.rejects
  | closeParen closes =>
      rw [closes]
      exact classify_closeSign separates.rejects
  | operator o sign =>
      rw [sign]
      exact classify_sign separates.rejects o

/-- A token is of one kind at most. -/
theorem Is.unique {k' : Kind} (is : Is isLabel t k) (also : Is isLabel t k') : k = k' := by
  rw [← is.classify_eq separates, also.classify_eq separates]

/-- A token is taken for what it is, and for nothing if it is nothing. -/
theorem classify_eq_iff :
    classify isLabel t = k ↔ Is isLabel t k ∨ (k = .unknown ∧ ∀ k', ¬ Is isLabel t k') := by
  constructor
  · rintro rfl
    rcases is_or_unknown isLabel t with is | unknown
    · exact .inl is
    · refine .inr ⟨unknown, ?_⟩
      intro k' is
      rw [is.classify_eq separates] at unknown
      subst unknown
      cases is
  · rintro (is | ⟨rfl, nothing⟩)
    · exact is.classify_eq separates
    · rcases is_or_unknown isLabel t with is | unknown
      · exact absurd is (nothing _)
      · exact unknown

/-- The tests of a token can be made in any order. -/
theorem firstFound_eq_classify {order : List (Text → Option Kind)}
    (perm : order.Perm (tests isLabel)) : firstFound order t = classify isLabel t := by
  unfold firstFound
  cases found : order.findSome? (· t) with
  | some k =>
      obtain ⟨test, there, passed⟩ := List.exists_of_findSome?_eq_some found
      have is := exists_test_iff.mp ⟨test, perm.mem_iff.mp there, passed⟩
      exact (is.classify_eq separates).symm
  | none =>
      refine ((classify_eq_iff separates).mpr (.inr ⟨rfl, ?_⟩)).symm
      intro k is
      obtain ⟨test, there, passed⟩ := exists_test_iff.mpr is
      rw [List.findSome?_eq_none_iff.mp found test (perm.mem_iff.mpr there)] at passed
      cases passed

end

/-- **On a sheet the kinds of tokens are disjoint.** A token is of one kind at most, and it is taken
for the one that it is, or for unknown if it is nothing; so its tests can be made in any order. A
label in the grid is always taken for a reference, since it is no numeral of any form. -/
theorem classify_settled (t : Text) :
    (∀ k k', Is Sheet.resolver.isLabel t k → Is Sheet.resolver.isLabel t k' → k = k') ∧
      (∀ k, classify Sheet.resolver.isLabel t = k ↔ Is Sheet.resolver.isLabel t k ∨
        (k = .unknown ∧ ∀ k', ¬ Is Sheet.resolver.isLabel t k')) ∧
      (∀ order, order.Perm (tests Sheet.resolver.isLabel) →
        firstFound order t = classify Sheet.resolver.isLabel t) ∧
      ∀ (s : Sheet) (p : Position), s.position t = .ok p →
        Decimal.Numeral.read? t.chars = none ∧ classify Sheet.resolver.isLabel t = .reference := by
  refine ⟨fun k k' is also => is.unique separates_isLabel also,
    fun k => classify_eq_iff separates_isLabel,
    fun order perm => firstFound_eq_classify separates_isLabel perm, ?_⟩
  intro s p inside
  have label : Label.isLabel t = true := by
    obtain ⟨_, _, found, _⟩ := Label.split_of_parse (Sheet.position_ok_iff.mp inside).1
    unfold Label.isLabel
    rw [found]
    rfl
  exact ⟨Label.read?_of_isLabel label,
    Is.classify_eq separates_isLabel (.reference label)⟩

/-- `E5` looks like an exponent and `INF1` like a name of what is infinite, but on a sheet in which
they are labels they are references, whichever test is made first. -/
theorem classify_settled_near_numbers :
    ∃ s : Sheet, Sheet.ofSize 5 6454 = .ok s ∧ s.position "E5" = .ok ⟨4, 4⟩ ∧
      classify Sheet.resolver.isLabel "E5" = .reference ∧
      s.position "INF1" = .ok ⟨0, 6453⟩ ∧
      firstFound (tests Sheet.resolver.isLabel).reverse "INF1" = .reference := by
  have exponent : (⟨5, 6454, [], by decide, by decide⟩ : Sheet).position "E5" = .ok ⟨4, 4⟩ := by
    decide
  have name : (⟨5, 6454, [], by decide, by decide⟩ : Sheet).position "INF1" = .ok ⟨0, 6453⟩ := by
    decide
  obtain ⟨_, _, _, taken⟩ := classify_settled "E5"
  obtain ⟨_, _, any_order, taken'⟩ := classify_settled "INF1"
  refine ⟨_, rfl, exponent, (taken _ _ exponent).2, name, ?_⟩
  rw [any_order _ (List.reverse_perm _)]
  exact (taken' _ _ name).2

end Token

end Formula

end SheetCalc
