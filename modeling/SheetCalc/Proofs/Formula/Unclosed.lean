import SheetCalc.Proofs.Formula.Conservation
import SheetCalc.Proofs.Formula.Precedence
import SheetCalc.Proofs.Formula.References

/-!
# Parentheses that are left open

An open parenthesis is no operator, and the only place where it is applied as one is the end of a
formula. So an evaluation that says that an operator is none has passed this on, or a parenthesis of
its formula is left open (`badOperator_cases`).

Which error is told at the end depends on what waits on top of the innermost open parenthesis. That
is nothing behind an expression without an operator outside of its parentheses, and an operator
behind any other (`waiting_expression`).
-/

namespace SheetCalc.Formula

/-! ## Where a parenthesis is applied -/

/-- What is applied and is no operator is a parenthesis. -/
theorem Pending.paren_of_badOperator {p : Pending} {values : List Float} {token : Text}
    (failed : p.apply values = .error (.badOperator token)) : p = .paren := by
  cases p with
  | paren => rfl
  | op o =>
      by_cases short : values.length < 2
      · rw [apply_op_short o short] at failed
        cases failed
      · rcases values with _ | ⟨right, _ | ⟨left, rest⟩⟩
        · exact absurd Nat.two_pos short
        · exact absurd Nat.one_lt_two short
        · rw [apply_op, apply_eq_value] at failed
          cases value : o.value left right with
          | ok x =>
              rw [value] at failed
              cases failed
          | error fault =>
              rw [value] at failed
              cases failed

theorem Stacks.paren_of_badOperator {stop : Pending → Bool} {values : List Float}
    {ps : List Pending} {token : Text}
    (failed : reduce stop values ps = .error (.badOperator token)) :
    Pending.paren ∈ ps ∧ stop .paren = false := by
  induction ps generalizing values with
  | nil => cases failed
  | cons p ps ih =>
      unfold reduce at failed
      cases hp : stop p with
      | true =>
          rw [hp] at failed
          cases failed
      | false =>
          rw [hp] at failed
          simp only [Bool.false_eq_true, if_false] at failed
          cases applied : p.apply values with
          | ok after =>
              rw [applied] at failed
              obtain ⟨there, goes_on⟩ := ih failed
              exact ⟨List.mem_cons_of_mem _ there, goes_on⟩
          | error f =>
              rw [applied] at failed
              cases failed
              have same := Pending.paren_of_badOperator applied
              subst same
              exact ⟨List.mem_cons_self, hp⟩

theorem Stacks.paren_of_finish {s : Stacks} {token : Text}
    (failed : s.finish = .error (.badOperator token)) : Pending.paren ∈ s.pending := by
  unfold finish at failed
  split at failed
  · cases failed
  · next p ps same =>
      split at failed
      · cases failed
      · cases reduced : reduce (fun _ => false) s.values s.pending with
        | ok after =>
            rw [reduced] at failed
            cases failed
        | error f =>
            rw [reduced] at failed
            cases failed
            exact (paren_of_badOperator reduced).1

section

variable {σ : Type} {r : Resolver σ} {tokens ts : List Text} {memory : σ} {p q : Progress σ}

/-- An operator and a closing parenthesis apply only what waits above the innermost open one. -/
theorem step_ne_badOperator (r : Resolver σ) (t : Text) (next? : Option Text) (p : Progress σ)
    (token : Text) : (step r t next? p).2 ≠ some (.failed (.badOperator token)) := by
  have proceeds {stop : Pending → Bool} (stops : stop .paren = true)
      (change : Stacks → Stacks) :
      (p.proceed ((Stacks.reduce stop p.held.values p.held.pending).map change)).2 ≠
        some (.failed (.badOperator token)) := by
    intro failed
    cases reduced : Stacks.reduce stop p.held.values p.held.pending with
    | ok held =>
        rw [reduced] at failed
        cases failed
    | error f =>
        rw [reduced] at failed
        cases failed
        rw [(Stacks.paren_of_badOperator reduced).2] at stops
        cases stops
  unfold step
  cases Token.classify r.isLabel t with
  | number x =>
      simp only
      split <;> nofun
  | reference =>
      simp only [refer_eq]
      have looked := r.lookUp_eq t p.memory
      rcases found : r.lookUp t p.memory with ⟨ending | x, after⟩
      · rw [found] at looked
        intro same
        cases same
        rcases Answer.operand_error looked.symm with ⟨_, _, same⟩ | ⟨_, _, _, _, same⟩ |
          ⟨_, same | same⟩ <;> cases same
      · nofun
  | openParen => nofun
  | closeParen => exact proceeds rfl _
  | operator o =>
      simp only
      split
      · nofun
      · exact proceeds (stops_paren o) _
  | unknown => nofun

theorem scan_ne_badOperator (r : Resolver σ) (ts : List Text) (p : Progress σ) (token : Text) :
    (scan r ts p).2 ≠ some (.failed (.badOperator token)) := by
  induction ts generalizing p with
  | nil => nofun
  | cons t ts ih =>
      have first := step_ne_badOperator r t ts.head? p token
      unfold scan
      rcases hs : step r t ts.head? p with ⟨p', _ | ending⟩
      · exact ih p'
      · rw [hs] at first
        exact first

/-- What waits behind a pass that gets through is what the plan says. -/
theorem pending_of_scan (through : scan r ts { memory } = (p, none)) :
    p.held.pending = waiting r.isLabel ts [] := by
  have pass := scan_eq_carryOut r ts { memory } (calm_of_scan r through)
  rw [through] at pass
  cases done : carryOut r (actions r.isLabel ts []) (Desk.start memory) with
  | error halt =>
      rw [show ({ memory } : Progress σ).desk = Desk.start memory from rfl, done] at pass
      cases pass
  | ok d =>
      rw [show ({ memory } : Progress σ).desk = Desk.start memory from rfl, done] at pass
      cases pass
      rfl

/-- A parenthesis that is applied has been left open, behind a formula that does not end in an
operator. -/
theorem unclosed_of_badOperator (rejects : RejectsSymbols r.isLabel) {token : Text}
    (failed : (run r tokens memory).1 = .failed (.badOperator token)) :
    0 < leftOpen tokens ∧ endsInOperator tokens = false := by
  rcases vacant_or_scan r tokens memory with ⟨error, vacant⟩ | ⟨some_token, no_pair⟩
  · rw [vacant] at failed
    cases failed
  rw [run_eq_scan r memory some_token no_pair] at failed
  have in_pass := scan_ne_badOperator r tokens { memory } token
  rcases through : scan r tokens { memory } with ⟨p, _ | ending⟩
  · rw [through] at failed
    simp only [close] at failed
    cases last : endsInOperator tokens with
    | true =>
        rw [last] at failed
        cases failed
    | false =>
        rw [last] at failed
        simp only [Bool.false_eq_true, if_false] at failed
        refine ⟨?_, rfl⟩
        have waits : Pending.paren ∈ p.held.pending := by
          cases finished : p.held.finish with
          | ok values =>
              rw [finished] at failed
              cases failed
          | error f =>
              rw [finished] at failed
              cases failed
              exact Stacks.paren_of_finish finished
        rw [pending_of_scan through] at waits
        have counted := count_paren_waiting rejects tokens []
        rw [List.count_nil] at counted
        show 0 < tokens.foldl openAfter 0
        rw [← counted]
        exact List.count_pos_iff.mpr waits
  · rw [through] at failed in_pass
    cases failed
    exact absurd rfl in_pass

/-- An evaluation that says that an operator is none has come to a parenthesis that is left open, or
passes on what a look-up has told. -/
theorem badOperator_cases (rejects : RejectsSymbols r.isLabel) {ev : Evaluator}
    (failed : (ev.evaluate r tokens memory).evaluator.error = invalidOperator) :
    (0 < leftOpen tokens ∧ endsInOperator tokens = false) ∨
      ∃ a ∈ r.heard tokens memory, a.Tells invalidOperator := by
  have left : (run r tokens memory).1.error (endsInOperator tokens) = invalidOperator := failed
  rcases run_cases r tokens memory with ⟨⟨result, value⟩, _⟩ | cause
  · rw [value] at left
    exact absurd left (codes_ne_empty invalidOperator (by decide)).symm
  unfold Resolver.heard
  generalize asked_for : (run r tokens memory).2.1 = asked at cause ⊢
  generalize ended : (run r tokens memory).1 = ending at cause left
  cases cause with
  | itself _ own =>
      refine .inl ?_
      cases own with
      | flawed result => exact absurd left (by decide : invalidFormula ≠ invalidOperator)
      | empty _ => exact absurd left (by decide : emptyFormula ≠ invalidOperator)
      | pair _ => exact absurd left (by decide : missingParentheses ≠ invalidOperator)
      | failed own =>
          cases own with
          | malformed detail => exact absurd left (by decide : invalidFormula ≠ invalidOperator)
          | divisionByZero => exact absurd left (by decide : divideByZero ≠ invalidOperator)
          | badOperator token => exact unclosed_of_badOperator rejects ended
  | @answer before label _ _ led =>
      obtain ⟨_, told⟩ := Answer.tells_of_operand led left (by decide)
      exact .inr ⟨_, r.mem_answers_concat before label memory, told⟩

end

/-! ## Operators outside of parentheses -/

/-- There is an operator outside of all parentheses. -/
def HasOuterOperator (ts : List Text) : Prop :=
  ∃ front rest, ∃ o : Operator, ts = front ++ (o.sign : Text) :: rest ∧ leftOpen front = 0

section

variable {isLabel : Text → Bool} {phrase : Phrase} {e : Expression} {ts : List Text}

theorem Phrase.level_pos (phrase : Phrase) : 0 < phrase.level := by
  cases phrase <;> decide

/-- Nothing but parentheses waits above of which a phrase would apply anything. -/
theorem Phrase.above_paren (phrase : Phrase) (ps : List Pending) : phrase.Above (.paren :: ps) := by
  intro p top
  cases top
  exact phrase.level_pos

/-- An expression closes all parentheses that it opens, and no other. -/
theorem Derives.balanced (rejects : RejectsSymbols isLabel) (h : Derives isLabel phrase e ts)
    (n : Nat) : ts.foldl openAfter n = n := by
  have above : phrase.Above (List.replicate n .paren) := by
    cases n with
    | zero => exact phrase.above_nil
    | succ n => exact phrase.above_paren _
  obtain ⟨qs, held, _, _⟩ := h.planned rejects above
  have counted := count_paren_waiting rejects ts (List.replicate n .paren)
  have no_paren : (qs.map Pending.op).count .paren = 0 := by
    refine List.count_eq_zero.mpr ?_
    intro there
    obtain ⟨o, _, same⟩ := List.mem_map.mp there
    exact Pending.op_ne_paren o same
  rw [held, List.count_append, no_paren, List.count_replicate_self, Nat.zero_add] at counted
  exact counted.symm

theorem openAfter_le {m n : Nat} (le : m ≤ n) (t : Text) : openAfter m t ≤ openAfter n t := by
  unfold openAfter
  split
  · omega
  · split <;> omega

theorem foldl_openAfter_le {m n : Nat} (le : m ≤ n) (ts : List Text) :
    ts.foldl openAfter m ≤ ts.foldl openAfter n := by
  induction ts generalizing m n with
  | nil => exact le
  | cons t ts ih => exact ih (openAfter_le le t)

/-- A parenthesis around an expression is open all the way through. -/
theorem Derives.within (rejects : RejectsSymbols isLabel) (h : Derives isLabel phrase e ts)
    {front rest : List Text} (split : ts = front ++ rest) : 0 < front.foldl openAfter 1 := by
  refine Nat.pos_of_ne_zero ?_
  intro closed
  -- If it were closed by then, it would make no difference behind the expression.
  have without : front.foldl openAfter 0 = 0 := by
    have := foldl_openAfter_le (Nat.zero_le 1) front
    omega
  have with_one := h.balanced rejects 1
  have with_none := h.balanced rejects 0
  rw [split, List.foldl_append, closed] at with_one
  rw [split, List.foldl_append, without] at with_none
  omega

/-- A factor has no operator outside of its parentheses. -/
theorem Derives.not_hasOuterOperator (rejects : RejectsSymbols isLabel)
    (h : Derives isLabel .factor e ts) : ¬ HasOuterOperator ts := by
  rintro ⟨front, rest, o, split, outside⟩
  have operand {t : Text} (no_symbol : t ∉ symbols)
      (alone : [t] = front ++ (o.sign : Text) :: rest) : False := by
    have among : (o.sign : Text) ∈ [t] := by simp [alone]
    rw [← List.mem_singleton.mp among] at no_symbol
    exact no_symbol (sign_mem_symbols o)
  cases h with
  | number hn => exact operand (Token.not_mem_symbols_of_number? hn) split
  | reference _ hl => exact operand (Token.not_mem_symbols_of_isLabel rejects hl) split
  | @group _ ts inner =>
      cases front with
      | nil =>
          rw [List.nil_append, List.cons_append] at split
          exact sign_ne_openSign o (List.cons.inj split).1.symm
      | cons t front =>
          obtain ⟨first, behind⟩ := List.cons.inj split
          subst first
          have depth : front.foldl openAfter 1 = 0 := outside
          -- The operator is none of the parentheses around, so it stands in the expression between.
          rcases List.append_eq_append_iff.mp behind with ⟨more, same, closes⟩ | ⟨more, same, _⟩
          · cases more with
            | nil =>
                rw [List.append_nil] at same
                have open_still := inner.within rejects (List.append_nil ts).symm
                rw [← same] at open_still
                omega
            | cons u more =>
                obtain ⟨_, nothing⟩ := List.cons.inj closes
                cases more with
                | nil => cases nothing
                | cons v more => cases nothing
          · have open_still := inner.within rejects same
            omega

/-- An expression that is no factor is an operator between two phrases, of which the right one binds
closer. -/
theorem Derives.factor_or_binary (h : Derives isLabel phrase e ts) :
    Derives isLabel .factor e ts ∨
      ∃ (left right : Expression) (outer inner : Phrase) (us vs : List Text) (o : Operator),
        ts = us ++ (o.sign : Text) :: vs ∧ Derives isLabel outer left us ∧
          Derives isLabel inner right vs ∧ o.precedence < inner.level := by
  induction h with
  | number hn => exact .inl (.number hn)
  | reference hn hl => exact .inl (.reference hn hl)
  | group inner _ => exact .inl (.group inner)
  | factor _ ih => exact ih
  | product _ ih => exact ih
  | @times o left right us vs ho hl hr _ _ =>
      refine .inr ⟨left, right, .product, .factor, us, vs, o, rfl, hl, hr, ?_⟩
      rw [precedence_product o ho]
      decide
  | @plus o left right us vs ho hl hr _ _ =>
      refine .inr ⟨left, right, .sum, .product, us, vs, o, rfl, hl, hr, ?_⟩
      rw [precedence_sum o ho]
      decide

/-- What waits of an expression behind an open parenthesis is nothing or an operator on top, as it
has an operator outside of its parentheses or not. -/
theorem waiting_expression (rejects : RejectsSymbols isLabel) (h : Derives isLabel .sum e ts)
    (ps : List Pending) :
    ∃ qs : List Operator,
      waiting isLabel ts (.paren :: ps) = qs.map .op ++ .paren :: ps ∧
      actions isLabel ts (.paren :: ps) ++ (qs.map Pending.op).map .apply = e.postfixed ∧
      (qs = [] ↔ ¬ HasOuterOperator ts) := by
  rcases h.factor_or_binary with factor |
    ⟨left, right, outer, inner, us, vs, o, rfl, hl, hr, lower⟩
  · obtain ⟨qs, held, done, tight⟩ := factor.planned rejects (Phrase.above_paren .factor ps)
    -- No operator has the precedence of a factor.
    have none_waits : qs = [] := by
      refine List.eq_nil_iff_forall_not_mem.mpr ?_
      intro q there
      have tight := tight q there
      cases q <;> exact absurd tight (by decide)
    exact ⟨qs, held, done, fun _ => factor.not_hasOuterOperator rejects, fun _ => none_waits⟩
  · obtain ⟨qs, held, done, _⟩ := h.planned rejects (Phrase.above_paren .sum ps)
    refine ⟨qs, held, done, ?_, ?_⟩
    · rintro rfl
      -- The operator waits, or what the right operand has put on top of it.
      rw [waiting_append, waiting, Token.classify_sign rejects] at held
      simp only [Kind.waiting] at held
      obtain ⟨rs, above, _, _⟩ := hr.planned rejects
        (Phrase.above_op lower (retained o.stops (waiting isLabel us (.paren :: ps))))
      rw [above] at held
      cases rs with
      | nil => cases held
      | cons r rs => cases held
    · intro none_outside
      exact absurd ⟨us, vs, o, rfl, hl.balanced rejects 0⟩ none_outside

end

end SheetCalc.Formula
