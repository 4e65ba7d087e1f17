import SheetCalc.Formula.Token
import SheetCalc.Label

/-!
# The six symbols

The parentheses and the signs of the operators are no numbers, so what they are taken for depends
only on whether they are labels. Where they are none (`RejectsSymbols`), each symbol is taken for
itself, and a token is an operator exactly if it has the sign of one.
-/

namespace SheetCalc.Formula

/-- The tokens that have a meaning of their own. -/
def symbols : List Text :=
  [openSign, closeSign, Operator.add.sign, Operator.sub.sign, Operator.mul.sign,
    Operator.div.sign]

/-- None of the six symbols is a label. -/
def RejectsSymbols (isLabel : Text → Bool) : Prop :=
  ∀ t ∈ symbols, isLabel t = false

theorem sign_mem_symbols (o : Operator) : (o.sign : Text) ∈ symbols := by
  cases o <;> decide

theorem number?_of_mem_symbols : ∀ t ∈ symbols, Token.number? t = none := by
  decide

/-- No symbol has the form of a cell label. -/
theorem rejectsSymbols_isLabel : RejectsSymbols Label.isLabel := by
  show ∀ t ∈ symbols, Label.isLabel t = false
  decide

theorem sign_ne_openSign (o : Operator) : (o.sign : Text) ≠ openSign := by
  cases o <;> decide

theorem sign_ne_closeSign (o : Operator) : (o.sign : Text) ≠ closeSign := by
  cases o <;> decide

namespace Token

theorem isOperator_iff {t : Text} : isOperator t = true ↔ ∃ o : Operator, t = o.sign := by
  constructor
  · intro h
    obtain ⟨o, found⟩ := Option.isSome_iff_exists.mp h
    exact ⟨o, Operator.sign_of_ofSign? found⟩
  · rintro ⟨o, rfl⟩
    simp [isOperator]

/-- What is a number is no symbol. -/
theorem not_mem_symbols_of_number? {t : Text} {x : Float} (h : number? t = some x) :
    t ∉ symbols := by
  intro there
  rw [number?_of_mem_symbols t there] at h
  cases h

theorem mem_symbols_of_isOperator {t : Text} (h : isOperator t = true) : t ∈ symbols := by
  obtain ⟨o, rfl⟩ := isOperator_iff.mp h
  exact sign_mem_symbols o

theorem isOperator_of_not_mem_symbols {t : Text} (h : t ∉ symbols) : isOperator t = false := by
  refine Bool.eq_false_iff.mpr ?_
  intro sign
  exact h (mem_symbols_of_isOperator sign)

section

variable {isLabel : Text → Bool}

theorem classify_of_number? {t : Text} {x : Float} (h : number? t = some x) :
    classify isLabel t = .number x := by
  unfold classify
  rw [h]

theorem classify_of_isLabel {t : Text} (hn : number? t = none) (hl : isLabel t = true) :
    classify isLabel t = .reference := by
  unfold classify
  rw [hn]
  simp only [hl, if_true]

/-- What a token is taken for says what it is. -/
theorem classify_sound (isLabel : Text → Bool) (t : Text) :
    match classify isLabel t with
    | .number x => number? t = some x
    | .reference => number? t = none ∧ isLabel t = true
    | .openParen => t = openSign
    | .closeParen => t = closeSign
    | .operator o => t = o.sign
    | .unknown => number? t = none ∧ isLabel t = false ∧ t ∉ symbols := by
  unfold classify
  cases hn : number? t with
  | some x => rfl
  | none =>
      cases hl : isLabel t with
      | true => simp
      | false =>
          by_cases opens : t = openSign
          · simp [opens]
          by_cases closes : t = closeSign
          · simp [closes, show closeSign ≠ openSign by decide]
          simp only [if_neg opens, if_neg closes, Bool.false_eq_true, if_false]
          cases found : Operator.ofSign? t with
          | some o => exact Operator.sign_of_ofSign? found
          | none =>
              refine ⟨trivial, trivial, ?_⟩
              intro there
              have noSign (o : Operator) : t ≠ o.sign := by
                rintro rfl
                simp at found
              simp only [symbols, List.mem_cons, List.not_mem_nil, or_false] at there
              rcases there with h | h | h | h | h | h
              · exact opens h
              · exact closes h
              all_goals exact noSign _ h

theorem classify_eq_reference_iff {t : Text} :
    classify isLabel t = .reference ↔ number? t = none ∧ isLabel t = true := by
  constructor
  · intro h
    simpa only [h] using classify_sound isLabel t
  · rintro ⟨hn, hl⟩
    exact classify_of_isLabel hn hl

variable (rejects : RejectsSymbols isLabel)

include rejects

/-- A label is no symbol. -/
theorem not_mem_symbols_of_isLabel {t : Text} (h : isLabel t = true) : t ∉ symbols := by
  intro there
  rw [rejects t there] at h
  cases h

theorem classify_openSign : classify isLabel openSign = .openParen := by
  have noNumber : number? openSign = none := number?_of_mem_symbols openSign (by decide)
  have noLabel : isLabel openSign = false := rejects openSign (by decide)
  simp [classify, noNumber, noLabel]

theorem classify_closeSign : classify isLabel closeSign = .closeParen := by
  have noNumber : number? closeSign = none := number?_of_mem_symbols closeSign (by decide)
  have noLabel : isLabel closeSign = false := rejects closeSign (by decide)
  have apart : closeSign ≠ openSign := by decide
  simp [classify, noNumber, noLabel, apart]

theorem classify_sign (o : Operator) : classify isLabel o.sign = .operator o := by
  have noNumber : number? (o.sign : Text) = none := number?_of_mem_symbols _ (sign_mem_symbols o)
  have noLabel : isLabel o.sign = false := rejects _ (sign_mem_symbols o)
  simp [classify, noNumber, noLabel, sign_ne_openSign, sign_ne_closeSign]

end

end Token

end SheetCalc.Formula
