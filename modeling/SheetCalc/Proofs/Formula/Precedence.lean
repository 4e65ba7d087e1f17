import SheetCalc.Proofs.Formula.Expression

/-!
# Precedence

The pass applies operators late, but in the order of the tree. What the tokens of a phrase make it
do, followed by what waits after them, are the actions of the syntax tree in postfix order
(`Derives.planned`); the invariant is that all that waits of a phrase has the precedence of the
phrase at least, so that the operator or the parenthesis behind it applies exactly that.

So an evaluation of an expression agrees with the meaning of the tree, and goes on doing so when
tokens that mean nothing are put in anywhere and closing parentheses are added at the end
(`evaluate_eq_report`).
-/

namespace SheetCalc.Formula

section

variable {isLabel : Text → Bool}

/-- The least precedence that an operator of a phrase can have outside of parentheses. -/
def Phrase.level : Phrase → Nat
  | .sum => 1
  | .product => 2
  | .factor => 3

/-- The tokens of a phrase are planned in postfix order: what they make the pass do, and then what
waits after them above of what waited before, are the actions of its tree; and all that waits of it
has the precedence of the phrase at least. -/
def Planned (isLabel : Text → Bool) (phrase : Phrase) (e : Expression) (ts : List Text)
    (ps : List Pending) : Prop :=
  ∃ qs : List Operator,
    waiting isLabel ts ps = qs.map .op ++ ps ∧
    actions isLabel ts ps ++ (qs.map Pending.op).map .apply = e.postfixed ∧
    ∀ q ∈ qs, phrase.level ≤ q.precedence

/-- Whether nothing that waits would be applied by an operator of a phrase. -/
def Phrase.Above (phrase : Phrase) (ps : List Pending) : Prop :=
  ∀ p, ps.head? = some p → p.precedence < phrase.level

theorem Phrase.above_nil (phrase : Phrase) : phrase.Above [] := by
  intro p none_there
  cases none_there

theorem Phrase.above_op {phrase : Phrase} {o : Operator} (lower : o.precedence < phrase.level)
    (ps : List Pending) : phrase.Above (.op o :: ps) := by
  intro p top
  cases top
  exact lower

theorem precedence_product : ∀ o ∈ [Operator.mul, .div], o.precedence = Phrase.product.level := by
  decide

theorem precedence_sum : ∀ o ∈ [Operator.add, .sub], o.precedence = Phrase.sum.level := by
  decide

/-- An operator of a phrase applies what waits of its left operand, and nothing else. -/
theorem released_of_level {o : Operator} {phrase : Phrase} (level : o.precedence = phrase.level)
    {qs : List Operator} {ps : List Pending} (tight : ∀ q ∈ qs, phrase.level ≤ q.precedence)
    (above : phrase.Above ps) :
    released o.stops (qs.map .op ++ ps) = (qs.map Pending.op).map .apply ∧
      retained o.stops (qs.map .op ++ ps) = ps := by
  have upper : ∀ q ∈ qs.map Pending.op, o.stops q = false := by
    intro q hq
    obtain ⟨q', there, rfl⟩ := List.mem_map.mp hq
    have := tight q' there
    show decide (q'.precedence < o.precedence) = false
    exact decide_eq_false (by omega)
  have lower : ∀ p, ps.head? = some p → o.stops p = true := by
    intro p hp
    have := above p hp
    exact decide_eq_true (by omega)
  exact ⟨released_append upper lower, retained_append upper lower⟩

theorem no_paren_of_op (qs : List Operator) :
    ∀ q ∈ qs.map Pending.op, (q == Pending.paren) = false := by
  intro q hq
  obtain ⟨o, _, rfl⟩ := List.mem_map.mp hq
  rfl

/-- A closing parenthesis applies what waits of the expression that it ends. -/
theorem released_of_paren (qs : List Operator) (ps : List Pending) :
    released (· == .paren) (qs.map .op ++ .paren :: ps) = (qs.map Pending.op).map .apply ∧
      retained (· == .paren) (qs.map .op ++ .paren :: ps) = .paren :: ps := by
  have lower : ∀ p, (Pending.paren :: ps).head? = some p → (p == Pending.paren) = true := by
    intro p hp
    cases hp
    rfl
  exact ⟨released_append (no_paren_of_op qs) lower, retained_append (no_paren_of_op qs) lower⟩

/-- A phrase of a higher level can stand for one of a lower level. -/
theorem Planned.weaken {phrase wider : Phrase} {e : Expression} {ts : List Text}
    {ps : List Pending} (h : Planned isLabel phrase e ts ps)
    (level : wider.level ≤ phrase.level) : Planned isLabel wider e ts ps := by
  obtain ⟨qs, held, done, tight⟩ := h
  exact ⟨qs, held, done, fun q hq => Nat.le_trans level (tight q hq)⟩

theorem Planned.group (rejects : RejectsSymbols isLabel) {e : Expression} {ts : List Text}
    {ps : List Pending} (h : Planned isLabel .sum e ts (.paren :: ps)) :
    Planned isLabel .factor e (openSign :: ts ++ [closeSign]) ps := by
  obtain ⟨qs, held, done, _⟩ := h
  obtain ⟨applied, kept⟩ := released_of_paren qs ps
  refine ⟨[], ?_, ?_, by simp⟩
  · show waiting isLabel (openSign :: (ts ++ [closeSign])) ps = ps
    rw [waiting, Token.classify_openSign rejects, Kind.waiting, waiting_append, held]
    simp only [waiting, Token.classify_closeSign rejects, Kind.waiting, kept, List.tail_cons]
  · show actions isLabel (openSign :: (ts ++ [closeSign])) ps ++ [] = _
    simp only [actions, Token.classify_openSign rejects, Kind.actions, Kind.waiting,
      actions_append, held, Token.classify_closeSign rejects, applied, List.nil_append,
      List.append_nil, done]

/-- An operator applies what waits of its left operand, and then waits below what waits of its right
one. -/
theorem Planned.binary (rejects : RejectsSymbols isLabel) {o : Operator} {phrase inner : Phrase}
    {left right : Expression} {ts us : List Text} {ps : List Pending}
    (level : o.precedence = phrase.level) (narrower : phrase.level ≤ inner.level)
    (above : phrase.Above ps) (hl : Planned isLabel phrase left ts ps)
    (hr : Planned isLabel inner right us (.op o :: ps)) :
    Planned isLabel phrase (.binary o left right) (ts ++ (o.sign : Text) :: us) ps := by
  obtain ⟨qs, heldLeft, doneLeft, tightLeft⟩ := hl
  obtain ⟨rs, heldRight, doneRight, tightRight⟩ := hr
  obtain ⟨applied, kept⟩ := released_of_level level tightLeft above
  -- The operators of the right operand wait above this one, those of the left one are applied.
  refine ⟨rs ++ [o], ?_, ?_, ?_⟩
  · rw [waiting_append, heldLeft]
    simp only [waiting, Token.classify_sign rejects, Kind.waiting, kept, heldRight,
      List.map_append, List.map_cons, List.map_nil, List.append_assoc, List.singleton_append]
  · rw [actions_append, heldLeft]
    simp only [actions, Token.classify_sign rejects, Kind.actions, Kind.waiting, kept, applied]
    rw [Expression.postfixed, ← doneLeft, ← doneRight]
    simp [List.append_assoc]
  · intro q hq
    rcases List.mem_append.mp hq with h | h
    · exact Nat.le_trans narrower (tightRight q h)
    · rw [List.mem_singleton.mp h]
      exact Nat.le_of_eq level.symm

/-- **Every phrase is planned in postfix order.** -/
theorem Derives.planned (rejects : RejectsSymbols isLabel) {phrase : Phrase} {e : Expression}
    {ts : List Text} (h : Derives isLabel phrase e ts) {ps : List Pending}
    (above : phrase.Above ps) : Planned isLabel phrase e ts ps := by
  induction h generalizing ps with
  | number hn =>
      refine ⟨[], ?_, ?_, by simp⟩
      · simp [waiting, Token.classify_of_number? hn, Kind.waiting]
      · simp [Formula.actions, Token.classify_of_number? hn, Kind.actions, Expression.postfixed]
  | reference hn hl =>
      refine ⟨[], ?_, ?_, by simp⟩
      · simp [waiting, Token.classify_of_isLabel hn hl, Kind.waiting]
      · simp [Formula.actions, Token.classify_of_isLabel hn hl, Kind.actions,
          Expression.postfixed]
  | group _ ih =>
      have bottom : Phrase.sum.Above (.paren :: ps) := by
        intro p hp
        cases hp
        decide
      exact (ih bottom).group rejects
  -- What a phrase of a lower level is above of, one of a higher level is above of as well.
  | factor _ ih => exact (ih fun p hp => Nat.lt_succ_of_lt (above p hp)).weaken (by decide)
  | product _ ih => exact (ih fun p hp => Nat.lt_succ_of_lt (above p hp)).weaken (by decide)
  | @times o left right ts us ho _ _ ihLeft ihRight =>
      have level := precedence_product o ho
      have inner : Phrase.factor.Above (.op o :: ps) := by
        refine Phrase.above_op ?_ ps
        rw [level]
        decide
      exact .binary rejects level (by decide) above (ihLeft above) (ihRight inner)
  | @plus o left right ts us ho _ _ ihLeft ihRight =>
      have level := precedence_sum o ho
      have inner : Phrase.product.Above (.op o :: ps) := by
        refine Phrase.above_op ?_ ps
        rw [level]
        decide
      exact .binary rejects level (by decide) above (ihLeft above) (ihRight inner)

/-! ## What changes nothing -/

theorem classify_of_not_isKnown {t : Text} (h : isKnown isLabel t = false) :
    Token.classify isLabel t = .unknown := by
  unfold isKnown at h
  cases hk : Token.classify isLabel t with
  | unknown => rfl
  | _ =>
      rw [hk] at h
      cases h

theorem waiting_filter (ts : List Text) (ps : List Pending) :
    waiting isLabel (ts.filter (isKnown isLabel)) ps = waiting isLabel ts ps := by
  induction ts generalizing ps with
  | nil => rfl
  | cons t ts ih =>
      cases hk : isKnown isLabel t with
      | true =>
          rw [List.filter_cons_of_pos hk]
          exact ih _
      | false =>
          rw [List.filter_cons_of_neg (by simp [hk]), ih]
          simp only [waiting, classify_of_not_isKnown hk, Kind.waiting]

theorem actions_filter (ts : List Text) (ps : List Pending) :
    actions isLabel (ts.filter (isKnown isLabel)) ps = actions isLabel ts ps := by
  induction ts generalizing ps with
  | nil => rfl
  | cons t ts ih =>
      cases hk : isKnown isLabel t with
      | true =>
          rw [List.filter_cons_of_pos hk]
          simp only [actions, ih]
      | false =>
          rw [List.filter_cons_of_neg (by simp [hk]), ih]
          simp only [actions, classify_of_not_isKnown hk, Kind.actions, Kind.waiting,
            List.nil_append]

theorem endsEarly_of_not_isKnown (rejects : RejectsSymbols isLabel) (t : Text) {u : Text}
    (h : isKnown isLabel u = false) : endsEarly isLabel t (some u) = false := by
  have unknown := classify_of_not_isKnown h
  unfold endsEarly
  cases Token.classify isLabel t with
  | number x =>
      refine decide_eq_false ?_
      intro opens
      rw [Option.some.inj opens, Token.classify_openSign rejects] at unknown
      cases unknown
  | operator o =>
      refine Bool.eq_false_iff.mpr ?_
      intro sign
      obtain ⟨o', rfl⟩ := Token.isOperator_iff.mp sign
      rw [Token.classify_sign rejects] at unknown
      cases unknown
  | _ => rfl

/-- Tokens that mean nothing stand between no two tokens between which the pass would not end. -/
theorem calm_of_filter (rejects : RejectsSymbols isLabel) {ts : List Text}
    (h : Calm isLabel (ts.filter (isKnown isLabel))) : Calm isLabel ts := by
  induction ts with
  | nil => trivial
  | cons t ts ih =>
      cases hk : isKnown isLabel t with
      | false =>
          rw [List.filter_cons_of_neg (by simp [hk])] at h
          refine ⟨?_, ih h⟩
          unfold endsEarly
          rw [classify_of_not_isKnown hk]
      | true =>
          rw [List.filter_cons_of_pos hk] at h
          refine ⟨?_, ih h.2⟩
          cases ts with
          | nil => exact h.1
          | cons u us =>
              cases hu : isKnown isLabel u with
              | false => exact endsEarly_of_not_isKnown rejects t hu
              | true =>
                  have first := h.1
                  rw [List.filter_cons_of_pos hu] at first
                  exact first

theorem calm_closers (rejects : RejectsSymbols isLabel) (n : Nat) :
    Calm isLabel (List.replicate n closeSign) := by
  induction n with
  | zero => trivial
  | succ n ih =>
      refine ⟨?_, ih⟩
      unfold endsEarly
      rw [Token.classify_closeSign rejects]

theorem released_all (qs : List Operator) :
    released (· == .paren) (qs.map .op) = (qs.map Pending.op).map .apply ∧
      retained (· == .paren) (qs.map .op) = [] := by
  have lower : ∀ p, ([] : List Pending).head? = some p → (p == Pending.paren) = true := by
    intro p none_there
    cases none_there
  have applied := released_append (no_paren_of_op qs) lower
  have kept := retained_append (no_paren_of_op qs) lower
  rw [List.append_nil] at applied kept
  exact ⟨applied, kept⟩

/-- Closing parentheses where none is open only apply early what would be applied at the end. -/
theorem actions_closers (rejects : RejectsSymbols isLabel) (n : Nat) (qs : List Operator) :
    ∃ rs : List Operator,
      waiting isLabel (List.replicate n closeSign) (qs.map .op) = rs.map .op ∧
      actions isLabel (List.replicate n closeSign) (qs.map .op) ++
        (rs.map Pending.op).map .apply = (qs.map Pending.op).map .apply := by
  induction n generalizing qs with
  | zero => exact ⟨qs, rfl, rfl⟩
  | succ n ih =>
      -- The first of them applies all that waits, so the others find nothing.
      obtain ⟨applied, kept⟩ := released_all qs
      obtain ⟨rs, held, done⟩ := ih []
      refine ⟨rs, ?_, ?_⟩
      · simp only [List.replicate_succ, waiting, Token.classify_closeSign rejects, Kind.waiting,
          kept, List.tail_nil]
        exact held
      · simp only [List.replicate_succ, actions, Token.classify_closeSign rejects, Kind.actions,
          Kind.waiting, applied, kept, List.tail_nil, List.append_assoc]
        rw [show ([] : List Pending) = [].map Pending.op from rfl, done]
        simp

/-! ## The evaluation of an expression -/

theorem length_postfixed (e : Expression) :
    e.postfixed.countP (!·.isApply) = e.postfixed.countP (·.isApply) + 1 := by
  induction e with
  | number x => rfl
  | reference label => rfl
  | binary o left right ihLeft ihRight =>
      simp only [Expression.postfixed, List.countP_append, ihLeft, ihRight]
      simp only [List.countP_cons, List.countP_nil, Action.isApply]
      simp
      omega

end

section

variable {σ : Type}

/-- What an evaluator keeps of the ending with a fault. -/
theorem ending_of_fault (fault : Fault) :
    fault.ending.error false = fault.error ∧ fault.ending.fatal? = fault.fatal? ∧
      ∀ before, fault.ending.result?.getD before = fault.result before := by
  cases fault with
  | refused r => cases r <;> exact ⟨rfl, rfl, fun _ => rfl⟩
  | _ => exact ⟨rfl, rfl, fun _ => rfl⟩

/-- The tokens of an expression, with unknown ones between them and closing parentheses behind
them, are planned as the expression is. -/
theorem allActions_padded {isLabel : Text → Bool} (rejects : RejectsSymbols isLabel)
    {e : Expression} {ts us : List Text} {n : Nat} (h : Derives isLabel .sum e ts)
    (padded : us.filter (isKnown isLabel) = ts ++ List.replicate n closeSign) :
    allActions isLabel us = e.postfixed ∧
      ∃ rs : List Operator, waiting isLabel us [] = rs.map .op := by
  obtain ⟨qs, held, done, _⟩ := h.planned rejects Phrase.sum.above_nil
  obtain ⟨rs, heldAfter, doneAfter⟩ := actions_closers rejects n qs
  rw [List.append_nil] at held
  have waits : waiting isLabel us [] = rs.map .op := by
    rw [← waiting_filter, padded, waiting_append, held, heldAfter]
  refine ⟨?_, rs, waits⟩
  rw [allActions, waits, ← actions_filter, padded, actions_append, held, List.append_assoc,
    doneAfter, done]

/-- The last token of an expression, or the last closing parenthesis behind it, is no operator, and
no unknown token is one. -/
theorem endsInOperator_padded {isLabel : Text → Bool} (rejects : RejectsSymbols isLabel)
    {e : Expression} {ts us : List Text} {n : Nat} (h : Derives isLabel .sum e ts)
    (padded : us.filter (isKnown isLabel) = ts ++ List.replicate n closeSign) :
    endsInOperator us = false := by
  refine Bool.eq_false_iff.mpr ?_
  intro trailing
  obtain ⟨front, last, rfl, sign⟩ := endsInOperator_iff.mp trailing
  -- An operator is known, so it is the last of the known tokens as well.
  have known : isKnown isLabel last = true := by
    obtain ⟨o, rfl⟩ := Token.isOperator_iff.mp sign
    unfold isKnown
    rw [Token.classify_sign rejects]
  obtain ⟨front', last', rfl, operand⟩ := h.ends rejects
  have ends := congrArg List.getLast? padded
  rw [List.filter_append, List.filter_cons_of_pos known, List.filter_nil,
    List.getLast?_concat] at ends
  cases n with
  | zero =>
      rw [List.replicate_zero, List.append_nil, List.getLast?_concat] at ends
      rw [Option.some.inj ends, operand] at sign
      cases sign
  | succ n =>
      rw [List.replicate_succ', ← List.append_assoc, List.getLast?_concat] at ends
      rw [Option.some.inj ends] at sign
      cases sign

/-- The tokens of an expression, with unknown ones between them and closing parentheses behind
them, are those of no degenerate formula, and the pass goes on to the last of them. -/
theorem wellFormed_padded {isLabel : Text → Bool} (rejects : RejectsSymbols isLabel)
    {e : Expression} {ts us : List Text} {n : Nat} (h : Derives isLabel .sum e ts)
    (padded : us.filter (isKnown isLabel) = ts ++ List.replicate n closeSign) :
    us ≠ [] ∧ us ≠ [openSign, closeSign] ∧ Calm isLabel us := by
  obtain ⟨t, there, operand⟩ := h.exists_operand rejects
  have within : t ∈ us := by
    have kept : t ∈ us.filter (isKnown isLabel) := by simp [padded, there]
    exact (List.mem_filter.mp kept).1
  refine ⟨List.ne_nil_of_mem within, ?_, ?_⟩
  · rintro rfl
    refine operand ?_
    simp only [List.mem_cons, List.not_mem_nil, or_false] at within
    rcases within with rfl | rfl <;> decide
  · refine calm_of_filter rejects ?_
    rw [padded]
    refine h.calm rejects (calm_closers rejects n) ?_
    cases n with
    | zero => simp
    | succ n =>
        intro same
        exact absurd (Option.some.inj same) (by decide)

/-- **An expression is evaluated by its meaning.** Whatever unknown tokens are put between those of
an expression and however many closing parentheses come behind them, an evaluator reports the value
of the syntax tree, or its first fault, from left to right and operands before their operator. -/
theorem evaluate_eq_report (r : Resolver σ) (rejects : RejectsSymbols r.isLabel)
    {e : Expression} {ts us : List Text} {n : Nat} (h : Derives r.isLabel .sum e ts)
    (padded : us.filter (isKnown r.isLabel) = ts ++ List.replicate n closeSign)
    (ev : Evaluator) (memory : σ) :
    ev.evaluate r us memory = e.report r ev memory := by
  obtain ⟨some_token, no_pair, calm⟩ := wellFormed_padded rejects h padded
  have operand_last := endsInOperator_padded rejects h padded
  obtain ⟨planned, rs, waits⟩ := allActions_padded rejects h padded
  -- What waits at the end are operators, and there are operands enough for them.
  have no_paren : (waiting r.isLabel us []).head? ≠ some .paren := by
    rw [waits]
    cases rs with
    | nil => simp
    | cons o rs => simp
  have enough : ∀ d, carryOut r (actions r.isLabel us []) (Desk.start memory) = .ok d →
      waiting r.isLabel us [] ≠ [] → 2 ≤ d.values.length := by
    intro d hd waits_on
    -- The actions so far lack the applications of what waits, and each of them takes a value away.
    have so_far := length_carryOut hd
    have total := length_postfixed e
    rw [← planned, allActions] at total
    obtain ⟨applications, operands⟩ := countP_map_apply (waiting r.isLabel us [])
    rw [List.countP_append, List.countP_append, applications, operands] at total
    have pending := List.length_pos_iff.mpr waits_on
    simp only [Desk.start, List.length_nil] at so_far
    omega
  have run_eq := run_eq_carryOut_all r memory some_token no_pair calm operand_last no_paren enough
  rw [planned, carryOut_postfixed] at run_eq
  unfold Evaluator.evaluate Expression.report
  rw [run_eq, operand_last]
  rcases he : e.eval r memory with ⟨fault | x, asked, memory'⟩
  · obtain ⟨error, fatal, result⟩ := ending_of_fault fault
    simp only [Desk.start, he, error, fatal, result, List.reverse_nil, List.nil_append]
  · simp [Desk.start, he, Desk.halt, Result.top, Ending.result?, Ending.error, Ending.fatal?]

/-- The evaluation of `( 2 / A1 ) * B1` with an unknown token in it and two more closing parentheses
behind it: the division fails before the cell is asked for that holds an error. -/
theorem evaluate_quotient_times_reference :
    let cells : Entries Text CellView :=
      [("A1", { hasFormula := true }), ("B1", { hasFormula := true, error := invalidCell })]
    let r := Resolver.table Label.isLabel cells (.ok {})
    let tokens : List Text := ["(", "2", "?", "/", "A1", ")", "*", "B1", ")", ")"]
    let report := Evaluator.evaluate {} r tokens ()
    report.evaluator.error = divideByZero ∧ report.evaluator.result = .infinite ∧
      report.asked = [("A1" : Text)] ∧ report.fatal = none := by
  intro cells r tokens report
  have two : Token.number? "2" = some 2 := by rfl
  have quotient : Derives Label.isLabel .sum (.binary .div (.number 2) (.reference "A1"))
      ["2", "/", "A1"] :=
    .product (.times (by decide) (.factor (.number two)) (.reference (by decide) (by decide)))
  have grouped : Derives Label.isLabel .product (.binary .div (.number 2) (.reference "A1"))
      ["(", "2", "/", "A1", ")"] :=
    .factor (.group quotient)
  have whole : Derives Label.isLabel .sum
      (.binary .mul (.binary .div (.number 2) (.reference "A1")) (.reference "B1"))
      ["(", "2", "/", "A1", ")", "*", "B1"] :=
    .product (.times (by decide) grouped (.reference (by decide) (by decide)))
  have padded : tokens.filter (isKnown Label.isLabel) =
      (["(", "2", "/", "A1", ")", "*", "B1"] : List Text) ++ List.replicate 2 closeSign := by
    decide +kernel
  have evaluated : report = _ :=
    evaluate_eq_report r rejectsSymbols_isLabel whole padded {} ()
  rw [evaluated]
  exact ⟨by decide +kernel, by rfl, by decide +kernel, by rfl⟩

/-- A look-up that fails may have a code of its own. It is this code that is reported, and not that
of a malformed formula, as for other failures of look-ups. -/
theorem evaluate_own_code :
    let r := Resolver.table Label.isLabel [] (.error (.failure (.other "boom" none)))
    let report := Evaluator.evaluate {} r ["A1"] ()
    RejectsSymbols r.isLabel ∧ Derives r.isLabel .sum (.reference "A1") ["A1"] ∧
      report.fatal = none ∧ report.evaluator.error = "boom" ∧
      report.evaluator.error ≠ invalidFormula :=
  ⟨rejectsSymbols_isLabel, .product (.factor (.reference (by decide) (by decide))), by rfl, by rfl,
    by decide +kernel⟩

end

end SheetCalc.Formula
