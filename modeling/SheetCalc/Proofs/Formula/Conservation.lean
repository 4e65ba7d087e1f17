import SheetCalc.Proofs.Formula.Plan

/-!
# What an evaluation uses up

Nothing is lost in the plan of a formula, however malformed it is. Every operand is taken in once
and in its place (`operands_allActions`), every operator is applied once (`operators_allActions`),
and as many parentheses wait at the end as are left open (`count_paren_waiting`).
-/

namespace SheetCalc.Formula

/-! ## Operands, operators and parentheses of a plan -/

/-- What an action takes in as an operand: the action itself, unless it applies what waits. -/
def Action.operand? : Action → Option Action
  | .apply _ => none
  | a => some a

/-- The label that an action asks for. -/
def Action.label? : Action → Option Text
  | .reference label => some label
  | _ => none

/-- The operator that waits, if what waits is one. -/
def Pending.operator? : Pending → Option Operator
  | .op o => some o
  | .paren => none

/-- The operator that an action applies. -/
def Action.operator? : Action → Option Operator
  | .apply p => p.operator?
  | _ => none

/-- The operand that a token is. -/
def Token.operand? (isLabel : Text → Bool) (t : Text) : Option Action :=
  match Token.number? t with
  | some x => some (.number x)
  | none => if isLabel t then some (.reference t) else none

/-- Whether a token is a number or a reference. -/
def Token.isOperand (isLabel : Text → Bool) (t : Text) : Bool :=
  (Token.number? t).isSome || isLabel t

/-- How many parentheses are open behind a token. A closing parenthesis where none is open closes
none. -/
def openAfter (count : Nat) (t : Text) : Nat :=
  if t = openSign then count + 1 else if t = closeSign then count - 1 else count

/-- How many parentheses of a formula are left open. -/
def leftOpen (tokens : List Text) : Nat :=
  tokens.foldl openAfter 0

section

variable {isLabel : Text → Bool}

theorem filterMap_cons_toList {α β : Type} (f : α → Option β) (a : α) (as : List α) :
    (a :: as).filterMap f = (f a).toList ++ as.filterMap f := by
  rw [List.filterMap_cons]
  cases f a <;> rfl

theorem filterMap_released (stop : Pending → Bool) (ps : List Pending) :
    (released stop ps).filterMap Action.operand? = [] := by
  unfold released
  rw [List.filterMap_map]
  exact List.filterMap_eq_nil_iff.mpr fun p _ => rfl

theorem Token.operand?_of_mem_symbols (rejects : RejectsSymbols isLabel) {t : Text}
    (h : t ∈ symbols) : Token.operand? isLabel t = none := by
  unfold Token.operand?
  rw [number?_of_mem_symbols t h, rejects t h]
  rfl

/-- What a token makes the pass take in is the operand that it is. -/
theorem operand?_actions (rejects : RejectsSymbols isLabel) (t : Text) (ps : List Pending) :
    ((Token.classify isLabel t).actions t ps).filterMap Action.operand? =
      (Token.operand? isLabel t).toList := by
  have sound := Token.classify_sound isLabel t
  cases hk : Token.classify isLabel t with
  | number x =>
      rw [hk] at sound
      unfold Token.operand?
      rw [show Token.number? t = some x from sound]
      rfl
  | reference =>
      rw [hk] at sound
      unfold Token.operand?
      rw [sound.1, if_pos sound.2]
      rfl
  | openParen =>
      rw [hk] at sound
      rw [show t = openSign from sound, Token.operand?_of_mem_symbols rejects (by decide)]
      rfl
  | closeParen =>
      rw [hk] at sound
      rw [show t = closeSign from sound, Token.operand?_of_mem_symbols rejects (by decide)]
      exact filterMap_released _ ps
  | operator o =>
      rw [hk] at sound
      rw [show t = o.sign from sound, Token.operand?_of_mem_symbols rejects (sign_mem_symbols o)]
      exact filterMap_released _ ps
  | unknown =>
      rw [hk] at sound
      unfold Token.operand?
      rw [sound.1, sound.2.1]
      rfl

theorem operands_actions (rejects : RejectsSymbols isLabel) (ts : List Text)
    (ps : List Pending) :
    (actions isLabel ts ps).filterMap Action.operand? =
      ts.filterMap (Token.operand? isLabel) := by
  induction ts generalizing ps with
  | nil => rfl
  | cons t ts ih =>
      unfold actions
      rw [List.filterMap_append, operand?_actions rejects, ih, ← filterMap_cons_toList]

/-- The operands of a formula are taken in one after the other. -/
theorem operands_allActions (rejects : RejectsSymbols isLabel) (tokens : List Text) :
    (allActions isLabel tokens).filterMap Action.operand? =
      tokens.filterMap (Token.operand? isLabel) := by
  rw [allActions, List.filterMap_append, operands_actions rejects, List.filterMap_map]
  have rest : (waiting isLabel tokens []).filterMap (Action.operand? ∘ .apply) = [] :=
    List.filterMap_eq_nil_iff.mpr fun p _ => rfl
  rw [rest, List.append_nil]

theorem operators_released (stop : Pending → Bool) (ps : List Pending) :
    (released stop ps).filterMap Action.operator? ++
        (retained stop ps).filterMap Pending.operator? =
      ps.filterMap Pending.operator? := by
  have same : (Action.operator? ∘ .apply : Pending → Option Operator) = Pending.operator? := rfl
  rw [released, retained, List.filterMap_map, same, ← List.filterMap_append,
    List.takeWhile_append_dropWhile]

/-- The parenthesis that a closing one takes away is no operator. -/
theorem operators_tail_retained (ps : List Pending) :
    (retained (· == .paren) ps).tail.filterMap Pending.operator? =
      (retained (· == .paren) ps).filterMap Pending.operator? := by
  induction ps with
  | nil => rfl
  | cons p ps ih =>
      cases p with
      | paren => rfl
      | op o => exact ih

theorem ofSign?_of_not_mem_symbols {t : Text} (h : t ∉ symbols) :
    Operator.ofSign? t = none := by
  cases found : Operator.ofSign? t with
  | none => rfl
  | some o =>
      rw [Operator.sign_of_ofSign? found] at h
      exact absurd (sign_mem_symbols o) h

/-- A token makes the pass apply or put off the operators that wait and the one that it is. -/
theorem operator?_actions (t : Text) (ps : List Pending) (rejects : RejectsSymbols isLabel) :
    (((Token.classify isLabel t).actions t ps).filterMap Action.operator? ++
        ((Token.classify isLabel t).waiting ps).filterMap Pending.operator?).Perm
      (ps.filterMap Pending.operator? ++ (Operator.ofSign? t).toList) := by
  have sound := Token.classify_sound isLabel t
  cases hk : Token.classify isLabel t with
  | number x =>
      rw [hk] at sound
      rw [ofSign?_of_not_mem_symbols (Token.not_mem_symbols_of_number? sound),
        Option.toList_none, List.append_nil]
      exact List.Perm.refl _
  | reference =>
      rw [hk] at sound
      rw [ofSign?_of_not_mem_symbols (Token.not_mem_symbols_of_isLabel rejects sound.2),
        Option.toList_none, List.append_nil]
      exact List.Perm.refl _
  | openParen =>
      rw [hk] at sound
      rw [show t = openSign from sound, show Operator.ofSign? openSign = none by decide,
        Option.toList_none, List.append_nil]
      exact List.Perm.refl _
  | closeParen =>
      rw [hk] at sound
      rw [show t = closeSign from sound, show Operator.ofSign? closeSign = none by decide]
      simp only [Kind.actions, Kind.waiting, operators_tail_retained, operators_released]
      simp
  | operator o =>
      rw [hk] at sound
      rw [show t = o.sign from sound, Operator.ofSign?_sign]
      simp only [Kind.actions, Kind.waiting]
      rw [List.filterMap_cons_some (show Pending.operator? (.op o) = some o from rfl)]
      rw [← operators_released o.stops ps]
      exact List.perm_middle.trans (List.perm_append_singleton _ _).symm
  | unknown =>
      rw [hk] at sound
      rw [ofSign?_of_not_mem_symbols sound.2.2, Option.toList_none, List.append_nil]
      exact List.Perm.refl _

/-- Every operator of a formula is applied once or waits once. -/
theorem operators_perm (rejects : RejectsSymbols isLabel) (ts : List Text)
    (ps : List Pending) :
    ((actions isLabel ts ps).filterMap Action.operator? ++
        (waiting isLabel ts ps).filterMap Pending.operator?).Perm
      (ps.filterMap Pending.operator? ++ ts.filterMap Operator.ofSign?) := by
  induction ts generalizing ps with
  | nil => simp [actions, waiting]
  | cons t ts ih =>
      -- What the first token puts off is applied by later ones, so only the order can differ.
      have first := operator?_actions t ps rejects
      have rest := ih ((Token.classify isLabel t).waiting ps)
      rw [filterMap_cons_toList, ← List.append_assoc]
      simp only [actions, waiting, List.filterMap_append, List.append_assoc]
      have both := (rest.append_left _).trans
        (List.append_assoc _ _ _ ▸ first.append_right (ts.filterMap Operator.ofSign?))
      simpa only [List.append_assoc] using both

/-- Every operator of a formula is applied once. -/
theorem operators_allActions (rejects : RejectsSymbols isLabel) (tokens : List Text) :
    ((allActions isLabel tokens).filterMap Action.operator?).Perm
      (tokens.filterMap Operator.ofSign?) := by
  have same : (Action.operator? ∘ .apply : Pending → Option Operator) = Pending.operator? := rfl
  have all := operators_perm rejects tokens []
  rwa [allActions, List.filterMap_append, List.filterMap_map, same]

/-! ## Open parentheses -/

theorem count_paren_retained {stop : Pending → Bool} (stops : stop .paren = true)
    (ps : List Pending) : (retained stop ps).count .paren = ps.count .paren := by
  induction ps with
  | nil => rfl
  | cons p ps ih =>
      cases hp : stop p with
      | true => simp [retained, hp]
      | false =>
          have operator : p ≠ .paren := by
            rintro rfl
            rw [stops] at hp
            cases hp
          have dropped : retained stop (p :: ps) = retained stop ps := by simp [retained, hp]
          rw [dropped, ih, List.count_cons_of_ne operator]

theorem count_paren_tail_retained (ps : List Pending) :
    (retained (· == .paren) ps).tail.count .paren = ps.count .paren - 1 := by
  induction ps with
  | nil => rfl
  | cons p ps ih =>
      cases p with
      | paren =>
          rw [List.count_cons_self]
          rfl
      | op o =>
          rw [List.count_cons_of_ne (Pending.op_ne_paren o)]
          exact ih

theorem stops_paren (o : Operator) : o.stops .paren = true :=
  decide_eq_true (Operator.precedence_pos o)

theorem openAfter_openSign (count : Nat) : openAfter count openSign = count + 1 :=
  if_pos rfl

theorem openAfter_closeSign (count : Nat) : openAfter count closeSign = count - 1 :=
  (if_neg (by decide)).trans (if_pos rfl)

theorem openAfter_sign (count : Nat) (o : Operator) : openAfter count o.sign = count :=
  (if_neg (sign_ne_openSign o)).trans (if_neg (sign_ne_closeSign o))

/-- What is no symbol opens and closes nothing. -/
theorem openAfter_of_not_mem_symbols {t : Text} (h : t ∉ symbols) (count : Nat) :
    openAfter count t = count := by
  unfold openAfter
  rw [if_neg, if_neg]
  · rintro rfl
    exact h (by decide)
  · rintro rfl
    exact h (by decide)

/-- As many parentheses wait as are open. -/
theorem count_paren_waiting (rejects : RejectsSymbols isLabel) (ts : List Text)
    (ps : List Pending) :
    (waiting isLabel ts ps).count .paren = ts.foldl openAfter (ps.count .paren) := by
  induction ts generalizing ps with
  | nil => rfl
  | cons t ts ih =>
      rw [waiting, ih, List.foldl_cons]
      congr 1
      have sound := Token.classify_sound isLabel t
      cases hk : Token.classify isLabel t with
      | number x =>
          rw [hk] at sound
          exact (openAfter_of_not_mem_symbols (Token.not_mem_symbols_of_number? sound) _).symm
      | reference =>
          rw [hk] at sound
          have no_symbol := Token.not_mem_symbols_of_isLabel rejects sound.2
          exact (openAfter_of_not_mem_symbols no_symbol _).symm
      | openParen =>
          rw [hk] at sound
          rw [show t = openSign from sound]
          exact List.count_cons_self
      | closeParen =>
          rw [hk] at sound
          rw [show t = closeSign from sound]
          exact count_paren_tail_retained ps
      | operator o =>
          rw [hk] at sound
          rw [show t = o.sign from sound, openAfter_sign]
          simp only [Kind.waiting]
          rw [List.count_cons_of_ne (Pending.op_ne_paren o), count_paren_retained (stops_paren o)]
      | unknown =>
          rw [hk] at sound
          exact (openAfter_of_not_mem_symbols sound.2.2 _).symm

end

end SheetCalc.Formula
