import SheetCalc.Formula.Evaluation
import SheetCalc.Proofs.Formula.Symbols

/-!
# The plan of a formula

Which operators the pass applies, and when, depends on the tokens alone and on no value. `actions`
is what the pass does to its operands, in order, and `waiting` is what waits on the stack of
operators when it is through; `carryOut` does the actions. The pass of a formula is the carrying out
of its actions (`scan_eq_carryOut`), unless it ends early between two tokens of which the second
must not follow the first (`Calm`), and so is the whole evaluation (`run_eq_carryOut`).

Everything that is said about the order of applications and look-ups is said about `actions`;
everything that is said about values and memory goes through `carryOut`.
-/

namespace SheetCalc.Formula

/-! ## Actions -/

/-- What a pass does to its operands: it takes in a number or the operand that a reference stands
for, or it applies what waits. -/
inductive Action where
  | number (x : Float)
  | reference (label : Text)
  | apply (p : Pending)
  deriving Inhabited

/-- What actions work on: the operands, the labels asked for (the last one first), and the
memory. -/
structure Desk (σ : Type) where
  values : List Float := []
  asked : List Text := []
  memory : σ

/-- How an evaluation has ended, after asking for which labels, and what has become of the
memory. -/
abbrev Halt (σ : Type) := Ending × List Text × σ

section

variable {σ : Type}

/-- An ending reached at a desk. -/
def Desk.halt (d : Desk σ) (ending : Ending) : Halt σ :=
  (ending, d.asked.reverse, d.memory)

/-- The operand that a label stands for, or how the look-up of it ends. -/
def Resolver.lookUp (r : Resolver σ) (label : Text) (memory : σ) : Except Ending Float × σ :=
  match r.find label memory with
  | (.ok cell, memory) => (cell.operand label, memory)
  | (.error refusal, memory) => (.error (.refused refusal), memory)

/-- A look-up changes the memory by asking for the label. -/
theorem Resolver.lookUp_memory (r : Resolver σ) (label : Text) (memory : σ) :
    (r.lookUp label memory).2 = (r.find label memory).2 := by
  unfold lookUp
  rcases r.find label memory with ⟨refusal | cell, memory⟩ <;> rfl

/-- A look-up leads to what the resolver says of the label. -/
theorem Resolver.lookUp_congr {τ : Type} {r : Resolver σ} {r' : Resolver τ} {label : Text}
    {memory : σ} {memory' : τ} (same : (r'.find label memory').1 = (r.find label memory).1) :
    (r'.lookUp label memory').1 = (r.lookUp label memory).1 := by
  unfold lookUp
  generalize r.find label memory = left at same
  generalize r'.find label memory' = right at same
  obtain ⟨answer, after⟩ := left
  obtain ⟨_, after'⟩ := right
  cases same
  cases answer <;> rfl

/-- A reference puts the operand on top that its look-up leads to, or ends the pass as it says. -/
theorem refer_eq (r : Resolver σ) (label : Text) (p : Progress σ) :
    refer r label p =
      match r.lookUp label p.memory with
      | (.ok x, memory) => (⟨p.held.pushValue x, label :: p.asked, memory⟩, none)
      | (.error ending, memory) => (⟨p.held, label :: p.asked, memory⟩, some ending) := by
  unfold refer Resolver.lookUp
  rcases r.find label p.memory with ⟨refusal | cell, memory⟩
  · rfl
  · simp only
    cases cell.operand label <;> rfl

/-- The desk after a look-up, where the operand that it has led to is put. -/
def Desk.take (d : Desk σ) (label : Text) : Except Ending Float × σ → Except (Halt σ) (Desk σ)
  | (.ok x, memory) => .ok ⟨x :: d.values, label :: d.asked, memory⟩
  | (.error ending, memory) => .error (ending, (label :: d.asked).reverse, memory)

/-- Does what an action says. -/
def Action.perform (r : Resolver σ) (d : Desk σ) : Action → Except (Halt σ) (Desk σ)
  | .number x => .ok { d with values := x :: d.values }
  | .reference label => d.take label (r.lookUp label d.memory)
  | .apply p =>
    match p.apply d.values with
    | .ok values => .ok { d with values }
    | .error f => .error (d.halt (.failed f))

/-- Does what actions say, one after the other. -/
def carryOut (r : Resolver σ) : List Action → Desk σ → Except (Halt σ) (Desk σ)
  | [], d => .ok d
  | a :: as, d => (a.perform r d).bind (carryOut r as)

theorem carryOut_append (r : Resolver σ) (as bs : List Action) (d : Desk σ) :
    carryOut r (as ++ bs) d = (carryOut r as d).bind (carryOut r bs) := by
  induction as generalizing d with
  | nil => rfl
  | cons a as ih =>
      show (a.perform r d).bind (carryOut r (as ++ bs)) = _
      unfold carryOut
      cases a.perform r d with
      | error h => rfl
      | ok d => exact ih d

theorem carryOut_singleton (r : Resolver σ) (a : Action) (d : Desk σ) :
    carryOut r [a] d = a.perform r d := by
  show (a.perform r d).bind (carryOut r []) = a.perform r d
  cases a.perform r d <;> rfl

end

/-! ## Applying what waits -/

theorem Pending.op_ne_paren (o : Operator) : Pending.op o ≠ .paren := by
  intro same
  cases same

theorem Pending.apply_paren (values : List Float) :
    Pending.paren.apply values = .error (.badOperator openSign) := by
  have noOperator : Operator.ofSign? openSign = none := by decide
  simp only [Pending.apply, applySign, Pending.sign, noOperator]

theorem Pending.apply_op (o : Operator) (left right : Float) (rest : List Float) :
    (Pending.op o).apply (right :: left :: rest) = (o.apply left right).map (· :: rest) := by
  simp only [Pending.apply, applySign, Pending.sign, Operator.ofSign?_sign]
  cases o.apply left right <;> rfl

theorem Pending.apply_op_short (o : Operator) {values : List Float} (short : values.length < 2) :
    (Pending.op o).apply values = .error (.missingOperand o.sign) := by
  simp only [Pending.apply, applySign, Pending.sign, Operator.ofSign?_sign]
  rcases values with _ | ⟨right, _ | ⟨left, rest⟩⟩
  · rfl
  · rfl
  · simp only [List.length_cons] at short
    omega

/-- What is applied without a failure is an operator, and it puts one value in place of two. -/
theorem Pending.apply_ok {p : Pending} {values after : List Float}
    (h : p.apply values = .ok after) : (∃ o, p = .op o) ∧ after.length + 1 = values.length := by
  cases p with
  | paren =>
      rw [apply_paren] at h
      cases h
  | op o =>
      refine ⟨⟨o, rfl⟩, ?_⟩
      rcases values with _ | ⟨right, _ | ⟨left, rest⟩⟩
      · rw [apply_op_short o (by simp)] at h
        cases h
      · rw [apply_op_short o (by simp)] at h
        cases h
      · rw [apply_op] at h
        cases hv : o.apply left right with
        | error f =>
            rw [hv] at h
            cases h
        | ok x =>
            rw [hv] at h
            cases h
            rfl

/-- Whether an action applies what waits. -/
def Action.isApply : Action → Bool
  | .apply _ => true
  | _ => false

section

variable {σ : Type}

/-- What an action does that is not broken off. -/
theorem Action.perform_ok {r : Resolver σ} {a : Action} {d after : Desk σ}
    (h : a.perform r d = .ok after) :
    (∃ x, a = .number x ∧ after = { d with values := x :: d.values }) ∨
    (∃ label x memory, a = .reference label ∧ r.lookUp label d.memory = (.ok x, memory) ∧
      after = ⟨x :: d.values, label :: d.asked, memory⟩) ∨
    (∃ p values, a = .apply p ∧ p.apply d.values = .ok values ∧
      after = { d with values }) := by
  cases a with
  | number x =>
      cases h
      exact .inl ⟨x, rfl, rfl⟩
  | reference label =>
      simp only [Action.perform] at h
      rcases found : r.lookUp label d.memory with ⟨ending | x, memory⟩
      · rw [found] at h
        cases h
      · rw [found] at h
        cases h
        exact .inr (.inl ⟨label, x, memory, rfl, found, rfl⟩)
  | apply p =>
      simp only [Action.perform] at h
      cases hv : p.apply d.values with
      | error f =>
          rw [hv] at h
          cases h
      | ok values =>
          rw [hv] at h
          cases h
          exact .inr (.inr ⟨p, values, rfl, hv, rfl⟩)

theorem carryOut_cons_ok {r : Resolver σ} {a : Action} {as : List Action} {d after : Desk σ}
    (h : carryOut r (a :: as) d = .ok after) :
    ∃ d', a.perform r d = .ok d' ∧ carryOut r as d' = .ok after := by
  unfold carryOut at h
  cases first : a.perform r d with
  | error halt =>
      rw [first] at h
      cases h
  | ok d' =>
      rw [first] at h
      exact ⟨d', rfl, h⟩

theorem Action.length_perform {r : Resolver σ} {a : Action} {d after : Desk σ}
    (h : a.perform r d = .ok after) :
    after.values.length + (if a.isApply then 1 else 0) =
      d.values.length + (if a.isApply then 0 else 1) := by
  rcases Action.perform_ok h with ⟨x, rfl, rfl⟩ | ⟨label, x, memory, rfl, _, rfl⟩ |
    ⟨p, values, rfl, applied, rfl⟩
  · rfl
  · rfl
  · exact (Pending.apply_ok applied).2

/-- An operand adds a value and an application takes one away. -/
theorem length_carryOut {r : Resolver σ} {as : List Action} {d after : Desk σ}
    (h : carryOut r as d = .ok after) :
    after.values.length + as.countP (·.isApply) =
      d.values.length + as.countP (!·.isApply) := by
  induction as generalizing d with
  | nil =>
      cases h
      rfl
  | cons a as ih =>
      obtain ⟨d', first, others⟩ := carryOut_cons_ok h
      have step := Action.length_perform first
      have rest := ih others
      simp only [List.countP_cons]
      cases ha : a.isApply <;> simp [ha] at step ⊢ <;> omega

end

theorem countP_map_apply (ps : List Pending) :
    (ps.map Action.apply).countP (·.isApply) = ps.length ∧
      (ps.map Action.apply).countP (!·.isApply) = 0 := by
  induction ps with
  | nil => exact ⟨rfl, rfl⟩
  | cons p ps ih =>
      obtain ⟨applications, operands⟩ := ih
      rw [List.map_cons, List.countP_cons_of_pos (by rfl),
        List.countP_cons_of_neg Bool.false_ne_true, applications, operands]
      exact ⟨rfl, rfl⟩

/-! ## The plan -/

/-- What is applied of what waits, from the top down to the first of which `stop` holds. -/
def released (stop : Pending → Bool) (ps : List Pending) : List Action :=
  (ps.takeWhile (!stop ·)).map .apply

/-- What goes on waiting when what waits is applied down to the first of which `stop` holds. -/
def retained (stop : Pending → Bool) (ps : List Pending) : List Pending :=
  ps.dropWhile (!stop ·)

/-- Where an operator stops the application of what waits. -/
def Operator.stops (o : Operator) (p : Pending) : Bool :=
  p.precedence < o.precedence

theorem released_append {stop : Pending → Bool} {qs ps : List Pending}
    (above : ∀ q ∈ qs, stop q = false) (below : ∀ p, ps.head? = some p → stop p = true) :
    released stop (qs ++ ps) = qs.map .apply := by
  have top : ps.takeWhile (!stop ·) = [] := by
    cases ps with
    | nil => rfl
    | cons p ps => simp [below p rfl]
  have all : ∀ q ∈ qs, (!stop q) = true := by
    intro q hq
    simp [above q hq]
  rw [released, List.takeWhile_append_of_pos all, top, List.append_nil]

theorem retained_append {stop : Pending → Bool} {qs ps : List Pending}
    (above : ∀ q ∈ qs, stop q = false) (below : ∀ p, ps.head? = some p → stop p = true) :
    retained stop (qs ++ ps) = ps := by
  have top : ps.dropWhile (!stop ·) = ps := by
    cases ps with
    | nil => rfl
    | cons p ps => simp [below p rfl]
  have all : ∀ q ∈ qs, (!stop q) = true := by
    intro q hq
    simp [above q hq]
  rw [retained, List.dropWhile_append_of_pos all, top]

/-- What a token makes the pass do. -/
def Kind.actions (token : Text) (ps : List Pending) : Kind → List Action
  | .number x => [.number x]
  | .reference => [.reference token]
  | .openParen => []
  | .closeParen => released (· == .paren) ps
  | .operator o => released o.stops ps
  | .unknown => []

/-- What waits after a token. -/
def Kind.waiting (ps : List Pending) : Kind → List Pending
  | .number _ => ps
  | .reference => ps
  | .openParen => .paren :: ps
  | .closeParen => (retained (· == .paren) ps).tail
  | .operator o => .op o :: retained o.stops ps
  | .unknown => ps

section

variable (isLabel : Text → Bool)

/-- What waits after tokens. -/
def waiting : List Text → List Pending → List Pending
  | [], ps => ps
  | t :: ts, ps => waiting ts ((Token.classify isLabel t).waiting ps)

/-- What tokens make the pass do. -/
def actions : List Text → List Pending → List Action
  | [], _ => []
  | t :: ts, ps =>
    let kind := Token.classify isLabel t
    kind.actions t ps ++ actions ts (kind.waiting ps)

theorem waiting_append (ts us : List Text) (ps : List Pending) :
    waiting isLabel (ts ++ us) ps = waiting isLabel us (waiting isLabel ts ps) := by
  induction ts generalizing ps with
  | nil => rfl
  | cons t ts ih => exact ih _

theorem actions_append (ts us : List Text) (ps : List Pending) :
    actions isLabel (ts ++ us) ps =
      actions isLabel ts ps ++ actions isLabel us (waiting isLabel ts ps) := by
  induction ts generalizing ps with
  | nil => rfl
  | cons t ts ih =>
      simp only [List.cons_append, actions, waiting, ih, List.append_assoc]

/-- What a formula makes the evaluation do, up to the application of what waits at the end. -/
def allActions (tokens : List Text) : List Action :=
  actions isLabel tokens [] ++ (waiting isLabel tokens []).map .apply

/-! ## Where a pass ends early -/

/-- Whether the pass ends at a token because of the one that follows. -/
def endsEarly (token : Text) (next? : Option Text) : Bool :=
  match Token.classify isLabel token with
  | .number _ => next? = some openSign
  | .operator _ => next?.any Token.isOperator
  | _ => false

/-- No token makes the pass end because of the one that follows. -/
def Calm : List Text → Prop
  | [] => True
  | t :: ts => endsEarly isLabel t ts.head? = false ∧ Calm ts

end

/-! ## The pass carries out the plan -/

section

variable {σ : Type}

/-- What an evaluation has on its desk. -/
def Progress.desk (p : Progress σ) : Desk σ :=
  ⟨p.held.values, p.asked, p.memory⟩

/-- A desk with what waits beside it. -/
def Desk.waitingWith (d : Desk σ) (ps : List Pending) : Progress σ :=
  ⟨⟨d.values, ps⟩, d.asked, d.memory⟩

/-- Where a pass goes on, or how it has ended. -/
def Progress.reached : Progress σ × Option Ending → Except (Halt σ) (Progress σ)
  | (p, none) => .ok p
  | (p, some ending) => .error (p.desk.halt ending)

theorem reached_scan_cons (r : Resolver σ) (t : Text) (ts : List Text) (p : Progress σ) :
    Progress.reached (scan r (t :: ts) p) =
      (Progress.reached (step r t ts.head? p)).bind fun p => Progress.reached (scan r ts p) := by
  rw [scan]
  rcases step r t ts.head? p with ⟨p, _ | ending⟩ <;> rfl

/-- Reducing applies what is released, and what is retained goes on waiting. -/
theorem reached_proceed_reduce (r : Resolver σ) (p : Progress σ) (stop : Pending → Bool)
    (after : List Pending → List Pending) (values : List Float) (ps : List Pending) :
    Progress.reached (p.proceed
        ((Stacks.reduce stop values ps).map fun s => { s with pending := after s.pending })) =
      (carryOut r (released stop ps) ⟨values, p.asked, p.memory⟩).map
        (·.waitingWith (after (retained stop ps))) := by
  induction ps generalizing values with
  | nil => rfl
  | cons q qs ih =>
      unfold Stacks.reduce
      -- Either nothing is released any more, or the first of what waits and all that follows it.
      cases hq : stop q with
      | true =>
          have none_released : released stop (q :: qs) = [] := by simp [released, hq]
          have all_retained : retained stop (q :: qs) = q :: qs := by simp [retained, hq]
          rw [none_released, all_retained]
          rfl
      | false =>
          have first : released stop (q :: qs) = .apply q :: released stop qs := by
            simp [released, hq]
          have rest : retained stop (q :: qs) = retained stop qs := by
            simp [retained, hq]
          rw [first, rest]
          simp only [carryOut, Action.perform, Bool.false_eq_true, if_false]
          cases q.apply values with
          | error f => rfl
          | ok values => exact ih values

theorem reached_refer (r : Resolver σ) (label : Text) (p : Progress σ) :
    Progress.reached (refer r label p) =
      ((Action.reference label).perform r p.desk).map (·.waitingWith p.held.pending) := by
  rw [refer_eq]
  simp only [Action.perform, Progress.desk]
  rcases r.lookUp label p.memory with ⟨ending | x, memory⟩ <;> rfl

/-- A step does what its token says, unless it ends the pass. -/
theorem step_eq_carryOut (r : Resolver σ) (t : Text) (next? : Option Text) (p : Progress σ)
    (calm : endsEarly r.isLabel t next? = false) :
    Progress.reached (step r t next? p) =
      (carryOut r ((Token.classify r.isLabel t).actions t p.held.pending) p.desk).map
        (·.waitingWith ((Token.classify r.isLabel t).waiting p.held.pending)) := by
  unfold endsEarly at calm
  unfold step
  cases hk : Token.classify r.isLabel t with
  | number x =>
      rw [hk] at calm
      simp only [decide_eq_false_iff_not] at calm
      simp only [if_neg calm]
      rfl
  | reference =>
      simp only [Kind.actions, Kind.waiting, carryOut_singleton]
      exact reached_refer r t p
  | openParen => rfl
  | closeParen =>
      exact reached_proceed_reduce r p (· == .paren) List.tail p.held.values p.held.pending
  | operator o =>
      rw [hk] at calm
      simp only at calm
      simp only [calm, Bool.false_eq_true, if_false]
      exact reached_proceed_reduce r p o.stops (.op o :: ·) p.held.values p.held.pending
  | unknown => rfl

/-- The pass carries out the plan, and what waits at the end is what the plan says. -/
theorem scan_eq_carryOut (r : Resolver σ) (ts : List Text) (p : Progress σ)
    (calm : Calm r.isLabel ts) :
    Progress.reached (scan r ts p) =
      (carryOut r (actions r.isLabel ts p.held.pending) p.desk).map
        (·.waitingWith (waiting r.isLabel ts p.held.pending)) := by
  induction ts generalizing p with
  | nil => rfl
  | cons t ts ih =>
      rw [reached_scan_cons, step_eq_carryOut r t ts.head? p calm.1]
      unfold actions waiting
      rw [carryOut_append]
      -- Both break off at the first token, or go on from the same desk with the same waiting.
      cases carryOut r ((Token.classify r.isLabel t).actions t p.held.pending) p.desk with
      | error h => rfl
      | ok d =>
          exact ih (d.waitingWith _) calm.2

/-- A pass that gets through has met no two tokens between which it ends. -/
theorem calm_of_scan (r : Resolver σ) {ts : List Text} {p q : Progress σ}
    (through : scan r ts p = (q, none)) : Calm r.isLabel ts := by
  induction ts generalizing p with
  | nil => trivial
  | cons t ts ih =>
      rw [scan] at through
      cases hs : step r t ts.head? p with
      | mk p' ending =>
          rw [hs] at through
          cases ending with
          | some ending => cases through
          | none =>
              refine ⟨?_, ih through⟩
              unfold step at hs
              unfold endsEarly
              -- Only a number and an operator look at the token behind them.
              cases hk : Token.classify r.isLabel t with
              | number x =>
                  rw [hk] at hs
                  simp only [Prod.mk.injEq, ite_eq_right_iff, reduceCtorEq, imp_false] at hs
                  simpa using hs.2
              | operator o =>
                  rw [hk] at hs
                  cases early : ts.head?.any Token.isOperator with
                  | false => rfl
                  | true =>
                      simp only [early, if_true] at hs
                      cases hs
              | reference => rfl
              | openParen => rfl
              | closeParen => rfl
              | unknown => rfl

/-! ## The end of a formula -/

theorem endsInOperator_iff {tokens : List Text} :
    endsInOperator tokens = true ↔
      ∃ front t, tokens = front ++ [t] ∧ Token.isOperator t = true := by
  unfold endsInOperator
  constructor
  · intro h
    cases found : tokens.getLast? with
    | none => simp [found] at h
    | some t =>
        obtain ⟨front, rfl⟩ := List.getLast?_eq_some_iff.mp found
        exact ⟨front, t, rfl, by simpa [found] using h⟩
  · rintro ⟨front, t, rfl, sign⟩
    simpa using sign

/-- The desk that an evaluation begins with. -/
def Desk.start (memory : σ) : Desk σ :=
  { memory }

/-- The evaluation of a formula that is not degenerate is its pass, or what is said at its end. -/
theorem run_eq_scan (r : Resolver σ) {tokens : List Text} (memory : σ) (some_token : tokens ≠ [])
    (no_pair : tokens ≠ [openSign, closeSign]) :
    run r tokens memory =
      match scan r tokens { memory } with
      | (p, some ending) => (ending, p.asked.reverse, p.memory)
      | (p, none) => (close (endsInOperator tokens) p.held, p.asked.reverse, p.memory) :=
  (if_neg some_token).trans (if_neg no_pair)

/-- A degenerate formula is found vacant at once, and over any other there is a pass. -/
theorem vacant_or_scan (r : Resolver σ) (tokens : List Text) (memory : σ) :
    (∃ error, run r tokens memory = (.vacant error, [], memory)) ∨
      tokens ≠ [] ∧ tokens ≠ [openSign, closeSign] := by
  by_cases some_token : tokens = []
  · exact .inl ⟨emptyFormula, if_pos some_token⟩
  by_cases no_pair : tokens = [openSign, closeSign]
  · exact .inl ⟨missingParentheses, (if_neg some_token).trans (if_pos no_pair)⟩
  · exact .inr ⟨some_token, no_pair⟩

/-- An evaluation carries out the plan of its formula and then closes. -/
theorem run_eq_carryOut (r : Resolver σ) {tokens : List Text} (memory : σ)
    (some_token : tokens ≠ []) (no_pair : tokens ≠ [openSign, closeSign])
    (calm : Calm r.isLabel tokens) :
    run r tokens memory =
      match carryOut r (actions r.isLabel tokens []) (Desk.start memory) with
      | .ok d => d.halt (close (endsInOperator tokens) ⟨d.values, waiting r.isLabel tokens []⟩)
      | .error h => h := by
  have pass := scan_eq_carryOut r tokens { memory } calm
  rw [run_eq_scan r memory some_token no_pair]
  rw [show ({ memory } : Progress σ).desk = Desk.start memory from rfl] at pass
  -- The pass gets through exactly if its actions are carried out, and `pass` excludes the rest.
  rcases hs : scan r tokens { memory } with ⟨q, _ | ending⟩
  · cases hc : carryOut r (actions r.isLabel tokens []) (Desk.start memory) with
    | error h =>
        rw [hs, hc] at pass
        cases pass
    | ok d =>
        rw [hs, hc] at pass
        cases pass
        rfl
  · cases hc : carryOut r (actions r.isLabel tokens []) (Desk.start memory) with
    | error h =>
        rw [hs, hc] at pass
        cases pass
        rfl
    | ok d =>
        rw [hs, hc] at pass
        cases pass

/-- Applying all that waits is reducing without a stop. -/
theorem carryOut_map_apply (r : Resolver σ) (ps : List Pending) (d : Desk σ) :
    carryOut r (ps.map .apply) d =
      match Stacks.reduce (fun _ => false) d.values ps with
      | .ok s => .ok { d with values := s.values }
      | .error f => .error (d.halt (.failed f)) := by
  induction ps generalizing d with
  | nil => rfl
  | cons p ps ih =>
      simp only [List.map_cons, carryOut, Action.perform, Stacks.reduce, Bool.false_eq_true,
        if_false]
      cases p.apply d.values with
      | error f => rfl
      | ok values => exact ih { d with values }

/-- A formula that does not end in an operator does all that its plan says up to the end, if what
waits at the end is neither a parenthesis nor short of operands. -/
theorem run_eq_carryOut_all (r : Resolver σ) {tokens : List Text} (memory : σ)
    (some_token : tokens ≠ []) (no_pair : tokens ≠ [openSign, closeSign])
    (calm : Calm r.isLabel tokens) (operand_last : endsInOperator tokens = false)
    (no_paren : (waiting r.isLabel tokens []).head? ≠ some .paren)
    (enough : ∀ d, carryOut r (actions r.isLabel tokens []) (Desk.start memory) = .ok d →
      waiting r.isLabel tokens [] ≠ [] → 2 ≤ d.values.length) :
    run r tokens memory =
      match carryOut r (allActions r.isLabel tokens) (Desk.start memory) with
      | .ok d => d.halt (.value (.top d.values))
      | .error h => h := by
  rw [run_eq_carryOut r memory some_token no_pair calm, allActions, carryOut_append]
  cases hc : carryOut r (actions r.isLabel tokens []) (Desk.start memory) with
  | error h => rfl
  | ok d =>
      have short := enough d hc
      simp only [Except.bind, carryOut_map_apply, operand_last, close, Bool.false_eq_true, if_false,
        Stacks.finish]
      cases hw : waiting r.isLabel tokens [] with
      | nil => rfl
      | cons p ps =>
          rw [hw] at short no_paren
          have top : (p == Pending.paren) = false := by simpa using no_paren
          have two : ¬ d.values.length < 2 := by
            have := short (List.cons_ne_nil p ps)
            omega
          simp only [top, two, Bool.false_or, decide_false, Bool.false_eq_true, if_false]
          cases Stacks.reduce (fun _ => false) d.values (p :: ps) <;> rfl

end

end SheetCalc.Formula
