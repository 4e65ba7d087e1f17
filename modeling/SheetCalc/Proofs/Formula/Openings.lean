import SheetCalc.Proofs.Formula.Unclosed

/-!
# Expressions behind open parentheses

A formula may open parentheses in pieces, each of them bare or behind an operand and an operator,
and then come to an expression without closing any. Where the operands and the expression are
evaluated without error by themselves (`Resolver.CleanInTurn`), the pass gets through with the last
of these parentheses below what waits of the expression (`carryOut_openings`), and that decides
between two errors (`close_left_open`). `evaluate_left_open` is the converse of `badOperator_cases`,
beside it. Neither holds where a look-up tells of the error itself, or fails without leaving one
(`told_without_parenthesis`).
-/

namespace SheetCalc.Formula

/-! ## Pieces that open a parenthesis -/

/-- A piece of a formula that opens a parenthesis. -/
inductive Opening where
  | bare
  /-- Behind an operand and an operator. -/
  | behind (operand : List Text) (o : Operator)

namespace Opening

/-- The tokens of a piece. -/
def tokens : Opening → List Text
  | .bare => [openSign]
  | .behind operand o => operand ++ [(o.sign : Text), openSign]

/-- The operand of a piece, if there is one. -/
def operand? : Opening → Option (List Text)
  | .bare => none
  | .behind operand _ => some operand

end Opening

section

variable {σ : Type}

/-- Formulas are evaluated without error, one after the other. -/
def Resolver.CleanInTurn (r : Resolver σ) : List (List Text) → σ → Prop
  | [], _ => True
  | ts :: tss, memory => r.Clean ts memory ∧ r.CleanInTurn tss (evaluate r ts memory).memory

variable {r : Resolver σ} {e : Expression} {ts us : List Text} {memory : σ}

/-- A look-up that leads to an operand leaves the memory as it is. -/
def Resolver.Steady (r : Resolver σ) : Prop :=
  ∀ label memory x, (r.lookUp label memory).1 = .ok x → (r.find label memory).2 = memory

theorem Resolver.Steady.askAll (steady : r.Steady) {labels : List Text}
    (usable : r.AllUsable labels memory) : r.askAll labels memory = memory := by
  induction labels with
  | nil => rfl
  | cons label labels ih =>
      obtain ⟨x, led⟩ := usable _ List.mem_cons_self
      rw [← r.lookUp_eq] at led
      have kept := steady label memory x led
      show r.askAll labels (r.find label memory).2 = memory
      rw [kept]
      refine ih fun a there => usable a ?_
      show a ∈ r.answer label memory :: r.answers labels (r.find label memory).2
      rw [kept]
      exact List.mem_cons_of_mem _ there

theorem Resolver.Clean.memory_eq (steady : r.Steady) (clean : r.Clean ts memory) :
    (evaluate r ts memory).memory = memory := by
  obtain ⟨result, value⟩ := clean.value
  rcases run_cases r ts memory with ⟨_, usable⟩ | cause
  · show (run r ts memory).2.2 = memory
    rw [memory_run]
    exact steady.askAll usable
  · exact absurd value (cause.not_value result)

/-- Where look-ups leave the memory as it is, it does not matter whether formulas are evaluated one
after the other or each by itself. -/
theorem Resolver.Steady.cleanInTurn (steady : r.Steady) {tss : List (List Text)}
    (each : ∀ ts ∈ tss, r.Clean ts memory) : r.CleanInTurn tss memory := by
  induction tss with
  | nil => trivial
  | cons ts tss ih =>
      have first := each ts List.mem_cons_self
      refine ⟨first, ?_⟩
      rw [first.memory_eq steady]
      exact ih fun other there => each other (List.mem_cons_of_mem _ there)

theorem steady_table (isLabel : Text → Bool) (cells : Entries Text CellView)
    (absent : Except Refusal CellView) : (Resolver.table isLabel cells absent).Steady :=
  fun _ _ _ _ => rfl

/-- A sheet makes a cell only for a reference that is spoilt by it. -/
theorem steady_sheet : Sheet.resolver.Steady := by
  intro label s x led
  have told : (Sheet.resolver.find label s).1 = s.viewOf label := rfl
  show s.touch label = s
  rw [Sheet.touch_eq]
  rw [Resolver.lookUp_eq, Resolver.answer, Answer.operand, told, Sheet.viewOf_eq] at led
  cases inside : s.position label with
  | error e => rfl
  | ok p =>
      cases there : s.cellsOf label with
      | cons c cs => rfl
      | nil =>
          rw [inside, there] at led
          cases led

/-- An expression that is evaluated without error has a value. -/
theorem Derives.eval_of_clean (rejects : RejectsSymbols r.isLabel) (h : Derives r.isLabel .sum e ts)
    (clean : r.Clean ts memory) :
    ∃ x asked, e.eval r memory = (.ok x, asked, (evaluate r ts memory).memory) := by
  obtain ⟨result, value⟩ := clean.value
  obtain ⟨_, _, p, through, ran⟩ := through_of_value value
  rw [show (evaluate r ts memory).memory = (run r ts memory).2.2 from rfl]
  rw [ran] at value ⊢
  cases finished : p.held.finish with
  | error f =>
      simp only [close, finished] at value
      split at value <;> cases value
  | ok values =>
      obtain ⟨_, done⟩ := plan_of_finish through finished
      obtain ⟨qs, held, plan, _⟩ := h.planned rejects Phrase.sum.above_nil
      rw [List.append_nil] at held
      rw [allActions, held, plan, carryOut_postfixed] at done
      rcases evaluated : e.eval r (Desk.start memory).memory with ⟨fault | x, asked, after⟩
      · rw [evaluated] at done
        cases done
      · rw [evaluated] at done
        have same := congrArg Desk.memory (Except.ok.inj done)
        refine ⟨x, asked, ?_⟩
        rw [← show after = p.memory from same]
        exact evaluated

/-- What applications leave is the memory, and what has been asked for. -/
theorem kept_of_applications {ps : List Pending} {d after : Desk σ}
    (done : carryOut r (ps.map .apply) d = .ok after) :
    after.asked = d.asked ∧ after.memory = d.memory := by
  rw [carryOut_map_apply] at done
  cases reduced : Stacks.reduce (fun _ => false) d.values ps with
  | error f =>
      rw [reduced] at done
      cases done
  | ok s =>
      rw [reduced] at done
      cases done
      exact ⟨rfl, rfl⟩

/-- The pass of an expression with a value gets through, with the memory that its evaluation leaves,
and what still waits of it can be applied. -/
theorem carryOut_expression {x : Float} {asked : List Text} {after : σ} {as : List Action}
    {ps : List Pending} {d : Desk σ} (evaluated : e.eval r d.memory = (.ok x, asked, after))
    (plan : as ++ ps.map .apply = e.postfixed) :
    ∃ d' d'', carryOut r as d = .ok d' ∧ d'.memory = after ∧
      carryOut r (ps.map .apply) d' = .ok d'' := by
  have all := carryOut_postfixed r e d
  rw [evaluated, ← plan, carryOut_append] at all
  cases first : carryOut r as d with
  | error halt =>
      rw [first] at all
      cases all
  | ok d' =>
      rw [first] at all
      refine ⟨d', _, rfl, ?_, all⟩
      exact (kept_of_applications all).2.symm

/-- An operator applies some of what waits above a parenthesis, from the top. -/
theorem released_beginning {stop : Pending → Bool} (qs : List Pending) {ps : List Pending}
    (below : ∀ p, ps.head? = some p → stop p = true) :
    ∃ rest : List Pending, released stop (qs ++ ps) ++ rest.map .apply = qs.map .apply := by
  induction qs with
  | nil =>
      have none_above : ∀ q ∈ ([] : List Pending), stop q = false := by
        intro q none_there
        cases none_there
      refine ⟨[], ?_⟩
      rw [released_append none_above below]
      rfl
  | cons q qs ih =>
      cases hq : stop q with
      | true => exact ⟨q :: qs, by simp [released, hq]⟩
      | false =>
          obtain ⟨rest, same⟩ := ih
          refine ⟨rest, ?_⟩
          rw [List.map_cons, ← same]
          simp [released, hq]

/-! ## Behind the pieces -/

/-- The operands of pieces are expressions. -/
def WellFormed (isLabel : Text → Bool) (pieces : List Opening) : Prop :=
  ∀ operand o, Opening.behind operand o ∈ pieces → ∃ d, Derives isLabel .sum d operand

/-- A piece opens a parenthesis, and then it waits on top. -/
theorem carryOut_opening (rejects : RejectsSymbols r.isLabel) {piece : Opening}
    (formed : WellFormed r.isLabel [piece]) {tss : List (List Text)} {d : Desk σ}
    (clean : r.CleanInTurn (piece.operand?.toList ++ tss) d.memory) {ps : List Pending}
    (above : Phrase.sum.Above ps) :
    ∃ d' below, carryOut r (actions r.isLabel piece.tokens ps) d = .ok d' ∧
      waiting r.isLabel piece.tokens ps = .paren :: below ∧ r.CleanInTurn tss d'.memory := by
  cases piece with
  | bare =>
      refine ⟨d, ps, ?_, ?_, clean⟩
      · simp [Opening.tokens, actions, Token.classify_openSign rejects, Kind.actions, carryOut]
      · simp [Opening.tokens, waiting, Token.classify_openSign rejects, Kind.waiting]
  | behind operand o =>
      obtain ⟨e, derives⟩ := formed operand o List.mem_cons_self
      obtain ⟨first, others⟩ := clean
      obtain ⟨x, asked, evaluated⟩ := derives.eval_of_clean rejects first
      obtain ⟨qs, held, plan, _⟩ := derives.planned rejects above
      have stops : ∀ p, ps.head? = some p → o.stops p = true := by
        intro p top
        have lower : p.precedence < 1 := above p top
        have := o.precedence_pos
        exact decide_eq_true (by omega)
      obtain ⟨rest, begun⟩ := released_beginning (qs.map Pending.op) stops
      rw [← begun, ← List.append_assoc] at plan
      obtain ⟨d', _, done, left, _⟩ := carryOut_expression evaluated plan
      refine ⟨d', .op o :: retained o.stops (qs.map .op ++ ps), ?_, ?_, left ▸ others⟩
      · simp only [Opening.tokens, actions_append, held, actions, Token.classify_sign rejects,
          Token.classify_openSign rejects, Kind.actions, List.append_nil]
        exact done
      · simp only [Opening.tokens, waiting_append, held, waiting, Token.classify_sign rejects,
          Token.classify_openSign rejects, Kind.waiting]

/-- Behind pieces, the parenthesis of the last one waits on top. -/
theorem carryOut_openings (rejects : RejectsSymbols r.isLabel) {pieces : List Opening}
    (formed : WellFormed r.isLabel pieces) {tss : List (List Text)} {d : Desk σ}
    (clean : r.CleanInTurn (pieces.filterMap Opening.operand? ++ tss) d.memory)
    {ps : List Pending} (above : Phrase.sum.Above ps) :
    ∃ d' ps', carryOut r (actions r.isLabel (pieces.flatMap Opening.tokens) ps) d = .ok d' ∧
      waiting r.isLabel (pieces.flatMap Opening.tokens) ps = ps' ∧
      r.CleanInTurn tss d'.memory ∧ (pieces = [] ∧ ps' = ps ∨ ∃ below, ps' = .paren :: below) := by
  induction pieces generalizing ps d with
  | nil => exact ⟨d, ps, rfl, rfl, clean, .inl ⟨rfl, rfl⟩⟩
  | cons piece pieces ih =>
      rw [filterMap_cons_toList, List.append_assoc] at clean
      have formed_first : WellFormed r.isLabel [piece] := by
        intro operand o there
        rw [List.mem_singleton] at there
        exact formed operand o (there ▸ List.mem_cons_self)
      have formed_rest : WellFormed r.isLabel pieces :=
        fun operand o there => formed operand o (List.mem_cons_of_mem _ there)
      obtain ⟨d₁, below, done, held, clean_rest⟩ :=
        carryOut_opening rejects formed_first clean above
      obtain ⟨d₂, ps', done_rest, held_rest, clean_last, top⟩ :=
        ih formed_rest clean_rest (Phrase.above_paren .sum below)
      refine ⟨d₂, ps', ?_, ?_, clean_last, .inr ?_⟩
      · rw [List.flatMap_cons, actions_append, carryOut_append, done, held]
        exact done_rest
      · rw [List.flatMap_cons, waiting_append, held]
        exact held_rest
      · rcases top with ⟨_, same⟩ | opened
        · exact ⟨below, same⟩
        · exact opened

/-- The pass does not end early in pieces. -/
theorem calm_openings (rejects : RejectsSymbols r.isLabel) {pieces : List Opening}
    (formed : WellFormed r.isLabel pieces) (calm : Calm r.isLabel ts) :
    Calm r.isLabel (pieces.flatMap Opening.tokens ++ ts) := by
  have opens {us : List Text} (behind : Calm r.isLabel us) : Calm r.isLabel (openSign :: us) := by
    refine ⟨?_, behind⟩
    unfold endsEarly
    rw [Token.classify_openSign rejects]
  induction pieces with
  | nil => exact calm
  | cons piece pieces ih =>
      have rest := ih fun operand o there => formed operand o (List.mem_cons_of_mem _ there)
      rw [List.flatMap_cons, List.append_assoc]
      cases piece with
      | bare => exact opens rest
      | behind operand o =>
          obtain ⟨e, derives⟩ := formed operand o List.mem_cons_self
          simp only [Opening.tokens, List.append_assoc, List.cons_append, List.nil_append]
          refine derives.calm rejects ⟨?_, opens rest⟩ ?_
          · exact endsEarly_of_isOperator rejects o (by decide)
          · intro same
            exact sign_ne_openSign o (Option.some.inj same)

/-! ## The end -/

theorem Stacks.reduce_append {qs : List Pending} {values : List Float} {s : Stacks}
    (reduced : reduce (fun _ => false) values qs = .ok s) (ps : List Pending) :
    reduce (fun _ => false) values (qs ++ ps) = reduce (fun _ => false) s.values ps := by
  induction qs generalizing values with
  | nil =>
      cases reduced
      rfl
  | cons q qs ih =>
      rw [List.cons_append]
      simp only [reduce, Bool.false_eq_true, if_false] at reduced ⊢
      cases applied : q.apply values with
      | error f =>
          rw [applied] at reduced
          cases reduced
      | ok after =>
          rw [applied] at reduced
          exact ih reduced

/-- At the end of a formula, the parenthesis is found open at once if it is on top, and else when it
is applied. -/
theorem close_left_open {qs : List Operator} {below : List Pending} {d after : Desk σ}
    (applied : carryOut r ((qs.map Pending.op).map .apply) d = .ok after) :
    close false ⟨d.values, qs.map .op ++ .paren :: below⟩ =
      .failed (if qs = [] then .unbalanced else .badOperator openSign) := by
  cases qs with
  | nil => rfl
  | cons o qs =>
      rw [carryOut_map_apply] at applied
      cases reduced : Stacks.reduce (fun _ => false) d.values ((o :: qs).map .op) with
      | error f =>
          rw [reduced] at applied
          cases applied
      | ok s =>
          have enough : ¬ d.values.length < 2 := by
            intro short
            simp only [List.map_cons, Stacks.reduce, Pending.apply_op_short o short,
              Bool.false_eq_true, if_false] at reduced
            cases reduced
          have all := Stacks.reduce_append reduced (.paren :: below)
          have no_paren : (Pending.op o == Pending.paren) = false := rfl
          rw [if_neg (List.cons_ne_nil o qs)]
          simp only [close, Stacks.finish, List.map_cons, List.cons_append, no_paren, enough,
            Bool.false_or, decide_false, Bool.false_eq_true, if_false]
          rw [← List.cons_append, ← List.map_cons, all]
          simp only [Stacks.reduce, Pending.apply_paren, Bool.false_eq_true, if_false]
          rfl

/-- An expression behind open parentheses ends in one of two failures. -/
theorem run_left_open (rejects : RejectsSymbols r.isLabel) {pieces : List Opening}
    (some_piece : pieces ≠ []) (formed : WellFormed r.isLabel pieces)
    (h : Derives r.isLabel .sum e ts)
    (clean : r.CleanInTurn (pieces.filterMap Opening.operand? ++ [ts]) memory) :
    ∃ f, (run r (pieces.flatMap Opening.tokens ++ ts) memory).1 = .failed f ∧
      (HasOuterOperator ts → f = .badOperator openSign) ∧
      (¬ HasOuterOperator ts → f = .unbalanced) := by
  obtain ⟨d₁, ps, done₁, held₁, ⟨clean_last, _⟩, top⟩ :=
    carryOut_openings rejects formed (d := Desk.start memory) clean Phrase.sum.above_nil
  obtain ⟨below, rfl⟩ : ∃ below, ps = .paren :: below :=
    top.resolve_left fun no_piece => some_piece no_piece.1
  obtain ⟨x, asked, evaluated⟩ := h.eval_of_clean rejects clean_last
  obtain ⟨qs, held, plan, outer⟩ := waiting_expression rejects h below
  obtain ⟨d₂, d₃, done, _, applied⟩ := carryOut_expression evaluated plan
  obtain ⟨t, there, operand⟩ := h.exists_operand rejects
  obtain ⟨front, last, ends, no_operator⟩ := h.ends rejects
  have some_token : pieces.flatMap Opening.tokens ++ ts ≠ [] :=
    List.ne_nil_of_mem (List.mem_append_right _ there)
  have no_pair : pieces.flatMap Opening.tokens ++ ts ≠ [openSign, closeSign] := by
    intro pair
    have among : t ∈ [openSign, closeSign] := pair ▸ List.mem_append_right _ there
    refine operand ?_
    simp only [List.mem_cons, List.not_mem_nil, or_false] at among
    rcases among with rfl | rfl <;> decide
  have calm_last : Calm r.isLabel ts := by
    have calm : Calm r.isLabel (ts ++ []) := h.calm rejects trivial nofun
    rwa [List.append_nil] at calm
  have operand_last : endsInOperator (pieces.flatMap Opening.tokens ++ ts) = false := by
    rw [ends, ← List.append_assoc]
    simpa [endsInOperator] using no_operator
  rw [run_eq_carryOut r memory some_token no_pair (calm_openings rejects formed calm_last),
    actions_append, carryOut_append, done₁, waiting_append, held₁, operand_last, held]
  simp only [Except.bind, done, Desk.halt, close_left_open applied]
  refine ⟨_, rfl, ?_, ?_⟩
  · intro some_outer
    exact if_neg fun none_waits => outer.mp none_waits some_outer
  · intro none_outer
    exact if_pos (outer.mpr none_outer)

/-- **Which errors a parenthesis that is left open leads to.** An operator is said to be none only
where a parenthesis is left open in front of an operand, unless a look-up has told so. And an
expression behind parentheses that are left open has this error if it has an operator outside of its
own parentheses, and is said to be malformed if it has none. -/
theorem evaluate_left_open (r : Resolver σ) (rejects : RejectsSymbols r.isLabel) (ev : Evaluator)
    (memory : σ) :
    (∀ tokens, (ev.evaluate r tokens memory).evaluator.error = invalidOperator →
      (∀ a ∈ r.heard tokens memory, ¬ a.Tells invalidOperator) →
        0 < leftOpen tokens ∧ endsInOperator tokens = false) ∧
    ∀ pieces e ts, pieces ≠ [] → WellFormed r.isLabel pieces → Derives r.isLabel .sum e ts →
      r.CleanInTurn (pieces.filterMap Opening.operand? ++ [ts]) memory →
        let error := (ev.evaluate r (pieces.flatMap Opening.tokens ++ ts) memory).evaluator.error
        (HasOuterOperator ts → error = invalidOperator) ∧
          (¬ HasOuterOperator ts → error = invalidFormula) := by
  refine ⟨?_, ?_⟩
  · intro tokens failed untold
    rcases badOperator_cases rejects failed with unclosed | ⟨a, there, told⟩
    · exact unclosed
    · exact absurd told (untold a there)
  · intro pieces e ts some_piece formed derives clean error
    obtain ⟨f, failed, outer, no_outer⟩ := run_left_open rejects some_piece formed derives clean
    have coded : error = f.code := by
      show (run r (pieces.flatMap Opening.tokens ++ ts) memory).1.error _ = f.code
      rw [failed]
      rfl
    refine ⟨?_, ?_⟩
    · intro some_outer
      rw [coded, outer some_outer]
      rfl
    · intro none_outer
      rw [coded, no_outer none_outer]
      rfl

/-- Behind `( 2 * (`, the sum of `A1` and `3` has an operator that is none, and `A1` alone makes up
a malformed formula. -/
theorem evaluate_left_open_sum :
    let r := Resolver.table Label.isLabel [("A1", { hasFormula := true })] (.ok {})
    let opened : List Opening := [.bare, .behind ["2"] .mul]
    let formula (ts : List Text) : List Text := opened.flatMap Opening.tokens ++ ts
    let error (ts : List Text) := (Evaluator.evaluate {} r (formula ts) ()).evaluator.error
    error ["A1", "+", "3"] = invalidOperator ∧ error ["A1"] = invalidFormula ∧
      0 < leftOpen (formula ["A1", "+", "3"]) := by
  intro r opened formula error
  have two : Derives Label.isLabel .sum (.number 2) ["2"] :=
    .product (.factor (.number (by rfl)))
  have reference : Derives Label.isLabel .sum (.reference "A1") ["A1"] :=
    .product (.factor (.reference (by decide) (by decide)))
  have sum : Derives Label.isLabel .sum (.binary .add (.reference "A1") (.number 3))
      ["A1", "+", "3"] :=
    .plus (by decide) reference (.factor (.number (by rfl)))
  have formed : WellFormed r.isLabel opened := by
    intro operand o there
    simp only [opened, List.mem_cons, List.not_mem_nil, or_false, Opening.behind.injEq,
      reduceCtorEq, false_or] at there
    obtain ⟨rfl, rfl⟩ := there
    exact ⟨_, two⟩
  have reports : r.Reports := reports_table Label.isLabel _ {}
  have in_turn {ts : List Text} (no_error : (evaluate r ts ()).evaluator.error = {}) :
      r.CleanInTurn (opened.filterMap Opening.operand? ++ [ts]) () := by
    refine Resolver.Steady.cleanInTurn (steady_table _ _ _) ?_
    intro other there
    simp only [opened, List.filterMap_cons, List.filterMap_nil, Opening.operand?, List.cons_append,
      List.nil_append, List.mem_cons, List.not_mem_nil, or_false] at there
    rcases there with rfl | rfl
    · exact reports.clean (by rfl)
    · exact reports.clean no_error
  obtain ⟨unclosed, told⟩ := evaluate_left_open r rejectsSymbols_isLabel {} ()
  have outer : HasOuterOperator ["A1", "+", "3"] := ⟨["A1"], ["3"], .add, rfl, by decide⟩
  have no_outer : ¬ HasOuterOperator ["A1"] :=
    Derives.not_hasOuterOperator rejectsSymbols_isLabel (.reference (by decide) (by decide))
  have failed := (told opened _ _ (List.cons_ne_nil _ _) formed sum (in_turn (by rfl))).1 outer
  refine ⟨failed, ?_, (unclosed _ failed ?_).1⟩
  · exact (told opened _ _ (List.cons_ne_nil _ _) formed reference (in_turn (by rfl))).2 no_outer
  · have heard : r.heard (formula ["A1", "+", "3"]) () = [r.answer "A1" ()] := by rfl
    intro a there
    rw [heard, List.mem_singleton] at there
    subst there
    rintro (⟨cell, found, same⟩ | ⟨f, refused, _⟩)
    · cases found
      exact absurd same (by decide)
    · cases refused

/-- A look-up that fails tells of a bad operator where no parenthesis is open and no cell has this
error; and where it fails without a code or breaks off, there is no error behind a parenthesis that
is left open, as there is none without it. -/
theorem told_without_parenthesis :
    let refuses (refusal : Refusal) := Resolver.table Label.isLabel [] (.error refusal)
    let error (refusal : Refusal) (tokens : List Text) :=
      (Evaluator.evaluate {} (refuses refusal) tokens ()).evaluator.error
    let reference : List Text := ["A1"]
    let opened : List Text := [Opening.bare].flatMap Opening.tokens ++ reference
    let telling : Refusal := .failure (.badOperator "?")
    let silent : Refusal := .failure (.other {} none)
    let broken : Refusal := .fatal "RuntimeError"
    Derives Label.isLabel .sum (.reference "A1") reference ∧
      (error telling reference = invalidOperator ∧ leftOpen reference = 0 ∧
        ∀ a ∈ (refuses telling).heard reference (), ∀ cell, a.found = .ok cell →
          cell.error ≠ invalidOperator) ∧
      (error silent reference = {} ∧ error silent opened = {}) ∧
      error broken reference = {} ∧ error broken opened = {} := by
  intro refuses error reference opened telling silent broken
  refine ⟨.product (.factor (.reference (by decide) (by decide))), ⟨by rfl, by decide, ?_⟩,
    ⟨by rfl, by rfl⟩, by rfl, by rfl⟩
  exact fun a there cell found => absurd found (unfound_of_no_cells there cell)

end

end SheetCalc.Formula
