import SheetCalc.Proofs.Formula.Conservation
import SheetCalc.Proofs.Formula.Origins

/-!
# Malformed formulas

A formula that is malformed in one of the ways of `Malformed` is not evaluated without an error, and
an evaluation without one is `Complete`: it has pushed every operand, applied every operator once,
and left no parenthesis open. What may come between is a look-up that fails and leaves no error
(`evaluate_malformed_or_complete`, `passes_silently`).

An evaluation with a value has carried out its whole plan, so both halves are read off what an
action does that is not broken off: it leaves an operand, it applies nothing but operators, and it
has found what it has looked up.
-/

namespace SheetCalc.Formula

section

variable {σ : Type}

/-- Each of some labels leads to an operand when they are looked up one after the other. -/
def Resolves (r : Resolver σ) : List Text → σ → Prop
  | [], _ => True
  | label :: labels, memory =>
    (∃ x, (r.lookUp label memory).1 = .ok x) ∧ Resolves r labels (r.lookUp label memory).2

/-- Ways in which a formula is malformed, or refers to what is not there. -/
inductive Malformed (r : Resolver σ) (memory : σ) (tokens : List Text) : Prop
  /-- There is no token. -/
  | empty : tokens = [] → Malformed r memory tokens
  /-- There is nothing but a pair of parentheses. -/
  | pair : tokens = [openSign, closeSign] → Malformed r memory tokens
  /-- The last token is an operator. -/
  | trailing {t} : tokens.getLast? = some t → Token.isOperator t = true →
      Malformed r memory tokens
  /-- Two operators stand side by side. -/
  | adjacent {front t u rest} : tokens = front ++ t :: u :: rest → Token.isOperator t = true →
      Token.isOperator u = true → Malformed r memory tokens
  /-- A parenthesis opens directly behind a number. -/
  | juxtaposed {front t x rest} : tokens = front ++ t :: openSign :: rest →
      Token.number? t = some x → Malformed r memory tokens
  /-- A parenthesis is left open. -/
  | unclosed : 0 < leftOpen tokens → Malformed r memory tokens
  /-- There are operators, but not more operands than operators. -/
  | starved : 0 < tokens.countP Token.isOperator →
      tokens.countP (Token.isOperand r.isLabel) ≤ tokens.countP Token.isOperator →
      Malformed r memory tokens
  /-- A reference leads to no operand. -/
  | unresolved : ¬ Resolves r (references r.isLabel tokens) memory → Malformed r memory tokens

/-- A report of an evaluation that has used up its formula. -/
structure Complete (r : Resolver σ) (memory : σ) (tokens : List Text) (report : Report σ) :
    Prop where
  /-- The pass gets through, and what it leaves comes to the result. -/
  passed : ∃ p values, scan r tokens { memory } = (p, none) ∧ p.held.finish = .ok values ∧
    values.length + tokens.countP Token.isOperator =
      tokens.countP (Token.isOperand r.isLabel) ∧
    report.evaluator.result = .top values
  /-- The whole plan has been carried out, and is what the report tells of. -/
  planned : ∃ d, carryOut r (allActions r.isLabel tokens) (Desk.start memory) = .ok d ∧
    report = ⟨⟨.top d.values, {}⟩, d.asked.reverse, none, d.memory⟩
  /-- The plan takes in the operands, one after the other. -/
  operands : (allActions r.isLabel tokens).filterMap Action.operand? =
    tokens.filterMap (Token.operand? r.isLabel)
  /-- Whatever else the plan does is to apply an operator. -/
  applied : ∀ p, Action.apply p ∈ allActions r.isLabel tokens → ∃ o, p = .op o
  /-- It applies the operators of the formula, each of them once. -/
  operators : ((allActions r.isLabel tokens).filterMap Action.operator?).Perm
    (tokens.filterMap Operator.ofSign?)
  /-- The result is the integer zero if there is no operand. -/
  blank : (∀ t ∈ tokens, Token.isOperand r.isLabel t = false) →
    report.evaluator.result.toValue = .int 0
  /-- The result is a float if there is one. -/
  number : (∃ t ∈ tokens, Token.isOperand r.isLabel t = true) →
    ∃ x, report.evaluator.result.toValue = .float x

/-! ## Carrying out a plan to its end -/

/-- Every action leaves an operand. -/
theorem values_ne_nil_of_carryOut {r : Resolver σ} {as : List Action} {d after : Desk σ}
    (h : carryOut r as d = .ok after) (some_action : as ≠ []) : after.values ≠ [] := by
  induction as generalizing d with
  | nil => exact absurd rfl some_action
  | cons a as ih =>
      obtain ⟨d', first, others⟩ := carryOut_cons_ok h
      cases as with
      | cons b bs => exact ih others (List.cons_ne_nil b bs)
      | nil =>
          cases others
          rcases Action.perform_ok first with ⟨x, rfl, rfl⟩ | ⟨label, x, memory, rfl, _, rfl⟩ |
            ⟨p, values, rfl, applied, rfl⟩
          · exact List.cons_ne_nil x _
          · exact List.cons_ne_nil x _
          · -- One value stands in place of two, so there were two before.
            obtain ⟨⟨o, rfl⟩, one_less⟩ := Pending.apply_ok applied
            by_cases short : d.values.length < 2
            · rw [Pending.apply_op_short o short] at applied
              cases applied
            · refine List.ne_nil_of_length_pos ?_
              show 0 < values.length
              omega

theorem applied_of_carryOut {r : Resolver σ} {as : List Action} {d after : Desk σ}
    (h : carryOut r as d = .ok after) {p : Pending} (there : .apply p ∈ as) :
    ∃ o, p = .op o := by
  induction as generalizing d with
  | nil => cases there
  | cons a as ih =>
      obtain ⟨d', first, others⟩ := carryOut_cons_ok h
      rcases List.mem_cons.mp there with rfl | behind
      · rcases Action.perform_ok first with ⟨x, same, _⟩ | ⟨label, x, memory, same, _⟩ |
          ⟨q, values, same, applied, _⟩
        · cases same
        · cases same
        · cases same
          exact (Pending.apply_ok applied).1
      · exact ih others behind

/-- What a plan looks up that is carried out to its end leads to operands. -/
theorem resolves_of_carryOut {r : Resolver σ} {as : List Action} {d after : Desk σ}
    (h : carryOut r as d = .ok after) :
    Resolves r (as.filterMap Action.label?) d.memory := by
  induction as generalizing d with
  | nil => trivial
  | cons a as ih =>
      obtain ⟨d', first, others⟩ := carryOut_cons_ok h
      have rest := ih others
      rcases Action.perform_ok first with ⟨x, rfl, rfl⟩ | ⟨label, x, memory, rfl, found, rfl⟩ |
        ⟨p, values, rfl, _, rfl⟩
      · exact rest
      · refine ⟨⟨x, by rw [found]⟩, ?_⟩
        rw [found]
        exact rest
      · exact rest

end

/-! ## What a plan is made of -/

section

variable {isLabel : Text → Bool}

theorem label?_of_operand? (as : List Action) :
    (as.filterMap Action.operand?).filterMap Action.label? = as.filterMap Action.label? := by
  rw [List.filterMap_filterMap]
  congr 1
  funext a
  cases a <;> rfl

/-- The plan of a formula asks for the labels that it refers to. -/
theorem labels_allActions (rejects : RejectsSymbols isLabel) (tokens : List Text) :
    (allActions isLabel tokens).filterMap Action.label? = references isLabel tokens := by
  rw [← label?_of_operand?, operands_allActions rejects, List.filterMap_filterMap, references,
    ← List.filterMap_eq_filter]
  congr 1
  funext t
  unfold Token.operand?
  cases hn : Token.number? t with
  | some x => simp [Action.label?, Option.guard, hn]
  | none => cases hl : isLabel t <;> simp [Action.label?, Option.guard, hn, hl]

theorem countP_operand (tokens : List Text) :
    (tokens.filterMap (Token.operand? isLabel)).length =
      tokens.countP (Token.isOperand isLabel) := by
  rw [List.length_filterMap_eq_countP]
  congr 1
  funext t
  unfold Token.operand? Token.isOperand
  cases Token.number? t with
  | some x => rfl
  | none => cases isLabel t <;> rfl

theorem countP_notApply (as : List Action) :
    as.countP (!·.isApply) = (as.filterMap Action.operand?).length := by
  rw [List.length_filterMap_eq_countP]
  congr 1
  funext a
  cases a <;> rfl

/-- A plan that applies nothing but operators applies as many as it has. -/
theorem countP_apply {as : List Action} (applied : ∀ p, .apply p ∈ as → ∃ o, p = .op o) :
    as.countP (·.isApply) = (as.filterMap Action.operator?).length := by
  rw [List.length_filterMap_eq_countP]
  refine List.countP_congr ?_
  intro a there
  cases a with
  | apply p =>
      obtain ⟨o, rfl⟩ := applied p there
      exact Iff.rfl
  | _ => exact Iff.rfl

/-- A parenthesis that is left open would be applied at the end. -/
theorem leftOpen_eq_zero (rejects : RejectsSymbols isLabel) {tokens : List Text}
    (applied : ∀ p, .apply p ∈ allActions isLabel tokens → ∃ o, p = .op o) :
    leftOpen tokens = 0 := by
  have counted := count_paren_waiting rejects tokens []
  rw [List.count_nil] at counted
  show tokens.foldl openAfter 0 = 0
  rw [← counted]
  refine List.count_eq_zero.mpr ?_
  intro waits
  have there : Action.apply .paren ∈ allActions isLabel tokens :=
    List.mem_append_right _ (List.mem_map_of_mem waits)
  obtain ⟨o, same⟩ := applied _ there
  cases same

theorem countP_operator (tokens : List Text) :
    (tokens.filterMap Operator.ofSign?).length = tokens.countP Token.isOperator := by
  rw [List.length_filterMap_eq_countP]
  rfl

/-- The plan of a formula with an operand or an operator is not empty. -/
theorem allActions_ne_nil (rejects : RejectsSymbols isLabel) {tokens : List Text}
    (some_known : 0 < tokens.countP (Token.isOperand isLabel) ∨
      0 < tokens.countP Token.isOperator) : allActions isLabel tokens ≠ [] := by
  intro none_planned
  have operands := operands_allActions rejects tokens
  have operators := (operators_allActions rejects tokens).length_eq
  rw [none_planned] at operands operators
  rw [countP_operator] at operators
  rw [← countP_operand, ← operands, ← operators] at some_known
  exact some_known.elim (Nat.lt_irrefl 0) (Nat.lt_irrefl 0)

theorem endsEarly_of_calm {front rest : List Text} {t : Text}
    (calm : Calm isLabel (front ++ t :: rest)) : endsEarly isLabel t rest.head? = false := by
  induction front with
  | nil => exact calm.1
  | cons _ _ ih => exact ih calm.2

end

/-! ## Malformed or complete -/

section

variable {σ : Type}

/-- What a plan leaves that is carried out to its end: the operands, less one for each operator. -/
theorem balance_of_carryOut {r : Resolver σ} (rejects : RejectsSymbols r.isLabel)
    {tokens : List Text} {d after : Desk σ}
    (done : carryOut r (allActions r.isLabel tokens) d = .ok after) :
    after.values.length + tokens.countP Token.isOperator =
      d.values.length + tokens.countP (Token.isOperand r.isLabel) := by
  have left := length_carryOut done
  rwa [countP_apply fun q there => applied_of_carryOut done there,
    (operators_allActions rejects tokens).length_eq, countP_operator, countP_notApply,
    operands_allActions rejects, countP_operand] at left

/-- A pass that comes to a value has used up its formula. -/
theorem complete_of_finish {r : Resolver σ} (rejects : RejectsSymbols r.isLabel)
    {tokens : List Text} {memory : σ} {p : Progress σ} {values : List Float}
    (through : scan r tokens { memory } = (p, none)) (finished : p.held.finish = .ok values) :
    Complete r memory tokens ⟨⟨.top values, {}⟩, p.asked.reverse, none, p.memory⟩ := by
  obtain ⟨_, done⟩ := plan_of_finish through finished
  have applied : ∀ q, .apply q ∈ allActions r.isLabel tokens → ∃ o, q = .op o :=
    fun q there => applied_of_carryOut done there
  have balance : values.length + tokens.countP Token.isOperator =
      tokens.countP (Token.isOperand r.isLabel) := by
    simpa [Desk.start] using balance_of_carryOut rejects done
  refine ⟨⟨p, values, through, finished, balance, rfl⟩, ⟨_, done, rfl⟩,
    operands_allActions rejects tokens, applied, operators_allActions rejects tokens, ?_, ?_⟩
  · intro no_operand
    have none_taken : tokens.countP (Token.isOperand r.isLabel) = 0 := by
      refine List.countP_eq_zero.mpr ?_
      intro t there
      rw [no_operand t there]
      exact Bool.false_ne_true
    have none_left : values = [] := List.eq_nil_of_length_eq_zero (by omega)
    rw [none_left]
    rfl
  · rintro ⟨t, there, operand⟩
    have some_taken : 0 < tokens.countP (Token.isOperand r.isLabel) :=
      List.countP_pos_iff.mpr ⟨t, there, operand⟩
    have some_action := allActions_ne_nil rejects (.inl some_taken)
    have some_left : values ≠ [] := values_ne_nil_of_carryOut done some_action
    cases values with
    | nil => exact absurd rfl some_left
    | cons x rest => exact ⟨x, rfl⟩

/-- A formula that an evaluation gets through to a value is not malformed. -/
theorem not_malformed_of_value {r : Resolver σ} (rejects : RejectsSymbols r.isLabel)
    {tokens : List Text} {memory after : σ} {result : Result} {asked : List Text}
    (h : run r tokens memory = (.value result, asked, after)) : ¬ Malformed r memory tokens := by
  obtain ⟨some_token, no_pair, operand_last, p, values, through, finished, _⟩ := passed_of_value h
  obtain ⟨calm, done⟩ := plan_of_finish through finished
  intro malformed
  -- The first three are excluded at the ends of the evaluation, the next two because the pass is
  -- calm, and the rest because its plan has been carried out.
  cases malformed with
  | empty none_there => exact some_token none_there
  | pair both => exact no_pair both
  | trailing last sign =>
      unfold endsInOperator at operand_last
      rw [last, Option.any_some, sign] at operand_last
      cases operand_last
  | @adjacent front t u rest same sign sign' =>
      rw [same] at calm
      obtain ⟨o, rfl⟩ := Token.isOperator_iff.mp sign
      have goes_on := endsEarly_of_calm calm
      unfold endsEarly at goes_on
      rw [Token.classify_sign rejects, List.head?_cons] at goes_on
      simp only [Option.any_some, sign'] at goes_on
      cases goes_on
  | @juxtaposed front t x rest same number =>
      rw [same] at calm
      have goes_on := endsEarly_of_calm calm
      unfold endsEarly at goes_on
      rw [Token.classify_of_number? number] at goes_on
      simp only [List.head?_cons, decide_true] at goes_on
      cases goes_on
  | unclosed open_left =>
      rw [leftOpen_eq_zero rejects fun q there => applied_of_carryOut done there] at open_left
      exact Nat.lt_irrefl 0 open_left
  | starved some_operator few =>
      have balance := balance_of_carryOut rejects done
      have some_action := allActions_ne_nil rejects (.inr some_operator)
      have some_left := List.length_pos_iff.mpr (values_ne_nil_of_carryOut done some_action)
      simp only [Desk.start, List.length_nil] at balance some_left
      omega
  | unresolved fails =>
      refine fails ?_
      rw [← labels_allActions rejects]
      exact resolves_of_carryOut done

/-- **A formula is malformed or used up.** Let a resolver reject the symbols as labels and fail only
in ways that an evaluation deals with. It gets no malformed formula evaluated without an error, and
where there is no error the formula has been used up, unless the last look-up has failed without
leaving an error. -/
theorem evaluate_malformed_or_complete (r : Resolver σ) (rejects : RejectsSymbols r.isLabel)
    (goes_on : ∀ label memory reason, (r.find label memory).1 ≠ .error (.fatal reason))
    (ev : Evaluator) (tokens : List Text) (memory : σ) :
    let report := ev.evaluate r tokens memory
    let mute := ∃ a, (r.heard tokens memory).getLast? = some a ∧ a.Mute
    report.fatal = none ∧
      (Malformed r memory tokens → report.evaluator.error ≠ {} ∨ mute) ∧
      (report.evaluator.error = {} → Complete r memory tokens report ∨ mute) := by
  intro report mute
  refine ⟨?_, ?_, ?_⟩
  · cases broken : report.fatal with
    | none => rfl
    | some reason =>
        obtain ⟨a, there, refused⟩ := ((accounted r ev tokens memory).escapes reason).mp broken
        obtain ⟨memory', same⟩ := Resolver.mem_answers there
        rw [same] at refused
        exact absurd refused (goes_on a.label memory' reason)
  · intro malformed
    by_cases no_error : report.evaluator.error = {}
    · rcases value_or_mute no_error with ⟨result, value⟩ | silent
      · exact absurd malformed (not_malformed_of_value rejects (Prod.ext value rfl))
      · exact .inr silent
    · exact .inl no_error
  · intro no_error
    rcases value_or_mute no_error with ⟨result, value⟩ | silent
    · left
      show Complete r memory tokens (ev.evaluate r tokens memory)
      unfold Evaluator.evaluate
      rcases ended : run r tokens memory with ⟨ending, asked, after⟩
      rw [ended] at value
      cases value
      obtain ⟨_, _, _, p, values, through, finished, rfl, rfl, rfl⟩ := passed_of_value ended
      exact complete_of_finish rejects through finished
    · exact .inr silent

/-- A sum with an open parenthesis in front of it has an error, and with the closing one behind it
has been used up: other labels than that of its reference lead to failures without a code. -/
theorem evaluate_unclosed_sum :
    let r := Resolver.table Label.isLabel [("A1", { hasFormula := true })]
      (.error (.failure (.other {} none)))
    (Evaluator.evaluate {} r ["(", "2", "+", "A1"] ()).evaluator.error ≠ {} ∧
      Complete r () ["(", "2", "+", "A1", ")"]
        (Evaluator.evaluate {} r ["(", "2", "+", "A1", ")"] ()) := by
  intro r
  have goes_on : ∀ label memory reason, (r.find label memory).1 ≠ .error (.fatal reason) := by
    intro label memory reason refused
    cases absent_of_refused refused
  have judged := evaluate_malformed_or_complete r rejectsSymbols_isLabel goes_on {}
  -- Both ask for the same cell only.
  have told {tokens : List Text} (heard : r.heard tokens () = [r.answer "A1" ()]) :
      ¬ ∃ a, (r.heard tokens ()).getLast? = some a ∧ a.Mute := by
    rintro ⟨a, last, mute⟩
    rw [heard] at last
    cases last
    rcases mute with ⟨reason, broken⟩ | ⟨f, failed, _⟩
    · cases broken
    · cases failed
  constructor
  · exact ((judged ["(", "2", "+", "A1"] ()).2.1 (.unclosed (by decide))).resolve_right
      (told (by rfl))
  · exact ((judged ["(", "2", "+", "A1", ")"] ()).2.2 (by rfl)).resolve_right (told (by rfl))

/-- Where the look-up of its reference fails without a code, a formula that ends in an operator is
evaluated without an error, and has not been used up. -/
theorem passes_silently :
    let r := Resolver.table Label.isLabel [] (.error (.failure (.other {} none)))
    let report := Evaluator.evaluate {} r ["A1", "+"] ()
    RejectsSymbols r.isLabel ∧
      (∀ label memory reason, (r.find label memory).1 ≠ .error (.fatal reason)) ∧
      Malformed r () ["A1", "+"] ∧ report.fatal = none ∧ report.evaluator.error = {} ∧
      ¬ Complete r () ["A1", "+"] report := by
  intro r report
  refine ⟨rejectsSymbols_isLabel, ?_, .trailing rfl (by decide), by rfl, by rfl, ?_⟩
  · intro label memory reason refused
    cases absent_of_refused refused
  · intro complete
    have operand : ∃ t ∈ (["A1", "+"] : List Text), Token.isOperand r.isLabel t = true :=
      ⟨"A1", List.mem_cons_self, by decide⟩
    obtain ⟨x, same⟩ := complete.number operand
    have blank : report.evaluator.result.toValue = .int 0 := by rfl
    rw [blank] at same
    cases same

end

end SheetCalc.Formula
