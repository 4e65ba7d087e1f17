import Mathlib.Data.List.Chain
import SheetCalc.Proofs.Formula.Rounds

/-!
# What waits is in order

At every point that the rounds of a pass lead to, what waits is in order (`pass_in_order`): there is
nothing but open parentheses and operators, as many parentheses as are open, and above each of them
operators of higher and higher precedence, of which there are two at most. One round preserves this
(`Point.inOrder_advance`), since nothing is released that could be a parenthesis, and an operator is
put only on top of what it does not release.
-/

namespace SheetCalc.Formula

/-! ## What waits is in order -/

/-- The signs that wait where so many parentheses are open are in order. -/
structure InOrder (count : Nat) (signs : List Text) : Prop where
  /-- Nothing waits but open parentheses and operators. -/
  symbols : ∀ s ∈ signs, s = openSign ∨ Token.isOperator s = true
  /-- As many parentheses wait as are open. -/
  parens : signs.count openSign = count
  /-- What waits directly on top of a sign has a higher precedence, or it is a parenthesis. -/
  rising : signs.IsChain fun above below =>
    above = openSign ∨ Token.precedence below < Token.precedence above

/-- An operator has one of two precedences. -/
theorem Token.precedence_of_isOperator {s : Text} (sign : Token.isOperator s = true) :
    0 < Token.precedence s ∧ Token.precedence s ≤ 2 := by
  obtain ⟨o, rfl⟩ := Token.isOperator_iff.mp sign
  rw [Token.precedence_sign]
  cases o <;> decide

section

variable {count : Nat} {signs rest : List Text} {s t : Text}

/-- An operator on top is taken away. -/
theorem InOrder.released (order : InOrder count (s :: rest)) (no_paren : s ≠ openSign) :
    InOrder count rest := by
  obtain ⟨symbols, parens, rising⟩ := order
  rw [List.count_cons_of_ne no_paren] at parens
  exact ⟨fun s' there => symbols s' (List.mem_cons_of_mem s there), parens, rising.tail⟩

/-- A parenthesis is put on top. -/
theorem InOrder.opened (order : InOrder count signs) : InOrder (count + 1) (openSign :: signs) := by
  refine ⟨List.forall_mem_cons.mpr ⟨.inl rfl, order.symbols⟩, ?_,
    order.rising.cons fun _ _ => .inl rfl⟩
  rw [List.count_cons_self, order.parens]

/-- A parenthesis on top is taken away, if there is one. -/
theorem InOrder.closed (order : InOrder count signs) (settled : ∀ s ∈ signs.head?, s = openSign) :
    InOrder (count - 1) signs.tail := by
  refine ⟨fun s there => order.symbols s (List.mem_of_mem_tail there), ?_, order.rising.tail⟩
  rw [← order.parens]
  cases signs with
  | nil => rfl
  | cons s rest =>
      rw [settled s rfl, List.count_cons_self]
      rfl

/-- An operator is put on top of a sign of lower precedence. -/
theorem InOrder.pushed (order : InOrder count signs) {o : Operator}
    (settled : ∀ s ∈ signs.head?, Token.precedence s < o.precedence) :
    InOrder count ((o.sign : Text) :: signs) := by
  have sign : Token.isOperator o.sign = true := Token.isOperator_iff.mpr ⟨o, rfl⟩
  refine ⟨List.forall_mem_cons.mpr ⟨.inr sign, order.symbols⟩, ?_, ?_⟩
  · rw [List.count_cons_of_ne (sign_ne_openSign o), order.parens]
  · refine order.rising.cons fun s top => .inr ?_
    rw [Token.precedence_sign]
    exact settled s top

/-- Signs one above the other without a parenthesis among them are operators of higher and higher
precedence, and there are two of them at most. -/
theorem InOrder.segment (order : InOrder count signs) {segment : List Text}
    (within : segment <:+: signs) (no_paren : openSign ∉ segment) :
    segment.Pairwise (fun above below => Token.precedence below < Token.precedence above) ∧
      segment.length ≤ 2 := by
  have operator : ∀ s ∈ segment, Token.isOperator s = true := by
    intro s there
    rcases order.symbols s (within.subset there) with rfl | sign
    · exact absurd there no_paren
    · exact sign
  have together : segment.IsChain fun above below =>
      above = openSign ∨ Token.precedence below < Token.precedence above := by
    obtain ⟨above, below, rfl⟩ := within
    exact order.rising.left_of_append.right_of_append
  have rising : (segment.map Token.precedence).IsChain (· > ·) := by
    refine (List.isChain_map _).mpr (together.imp_of_mem_imp ?_)
    rintro above below there _ (rfl | lower)
    · exact absurd there no_paren
    · exact lower
  have falling := List.pairwise_map.mp (List.isChain_iff_pairwise.mp rising)
  refine ⟨falling, ?_⟩
  -- Three operators would need three precedences.
  rcases segment with _ | ⟨a, _ | ⟨b, _ | ⟨c, rest⟩⟩⟩
  · exact Nat.zero_le 2
  · exact Nat.le_succ 1
  · exact Nat.le_refl 2
  · have highest := (Token.precedence_of_isOperator (operator a (by simp))).2
    have lowest := (Token.precedence_of_isOperator (operator c (by simp))).1
    have first := (List.pairwise_cons.mp falling).1 b (by simp)
    have second := (List.pairwise_cons.mp (List.pairwise_cons.mp falling).2).1 c (by simp)
    omega

end

/-! ## One round -/

section

variable {isLabel : Text → Bool} {count : Nat} {signs : List Text} {t : Text}

/-- No open parenthesis is released. -/
theorem Token.ne_openSign_of_releases {s : Text} (released : releases isLabel t s = true) :
    s ≠ openSign := by
  rintro rfl
  cases kind : classify isLabel t with
  | closeParen =>
      rw [releases_closeParen kind, bne_self_eq_false] at released
      cases released
  | operator o =>
      rw [releases_operator kind, precedence_openSign, decide_eq_true_iff] at released
      exact absurd (Operator.precedence_pos o) (Nat.not_lt.mpr released)
  | _ =>
      unfold releases at released
      rw [kind] at released
      cases released

/-- A token that releases nothing leaves the signs in order when it is taken in. -/
theorem InOrder.takenIn (rejects : RejectsSymbols isLabel) (order : InOrder count signs)
    (settled : ∀ s ∈ signs.head?, Token.releases isLabel t s = false) :
    InOrder (openAfter count t) ((Token.classify isLabel t).signs t signs) := by
  have sound := Token.classify_sound isLabel t
  cases kind : Token.classify isLabel t with
  | number x =>
      rw [kind] at sound
      rw [openAfter_of_not_mem_symbols (Token.not_mem_symbols_of_number? sound)]
      exact order
  | reference =>
      rw [kind] at sound
      rw [openAfter_of_not_mem_symbols (Token.not_mem_symbols_of_isLabel rejects sound.2)]
      exact order
  | openParen =>
      rw [kind] at sound
      rw [show t = openSign from sound, openAfter_openSign]
      exact order.opened
  | closeParen =>
      rw [kind] at sound
      rw [show t = closeSign from sound, openAfter_closeSign]
      refine order.closed fun s top => ?_
      have stays := settled s top
      rwa [Token.releases_closeParen kind, bne_eq_false_iff_eq] at stays
  | operator o =>
      rw [kind] at sound
      rw [show t = o.sign from sound, openAfter_sign]
      refine order.pushed fun s top => ?_
      have stays := settled s top
      rwa [Token.releases_operator kind, decide_eq_false_iff_not, Nat.not_le] at stays
  | unknown =>
      rw [kind] at sound
      rw [openAfter_of_not_mem_symbols sound.2.2]
      exact order

end

namespace Point

variable {σ : Type} {r : Resolver σ} {P Q : Point σ}

/-- **One round keeps what waits in order.** -/
theorem inOrder_advance (rejects : RejectsSymbols r.isLabel)
    (order : InOrder (leftOpen P.taken) P.signs) (round : P.advance r = .ok Q) :
    InOrder (leftOpen Q.taken) Q.signs := by
  obtain ⟨t, ts, _, ⟨s, waits, releases, taken, _⟩ | ⟨settled, taken, _, signs⟩⟩ := advance_ok round
  · rw [waits] at order
    rw [taken]
    exact order.released (Token.ne_openSign_of_releases releases)
  · rw [taken, signs, leftOpen, List.foldl_append]
    exact order.takenIn rejects settled

/-- Nothing waits where a pass begins. -/
theorem inOrder_start (tokens : List Text) (memory : σ) :
    InOrder (leftOpen (start tokens memory).taken) (start tokens memory).signs :=
  ⟨nofun, rfl, .nil⟩

theorem inOrder_rounds (rejects : RejectsSymbols r.isLabel) {n : Nat}
    (order : InOrder (leftOpen P.taken) P.signs) (led : rounds r n P = .ok Q) :
    InOrder (leftOpen Q.taken) Q.signs := by
  refine rounds_preserve (fun Q => InOrder (leftOpen Q.taken) Q.signs) ?_ order led
  exact fun _ _ order round => inOrder_advance rejects order round

end Point

/-! ## All points of a pass -/

/-- What is said of a point of the pass over a formula. -/
structure Point.OfPass {σ : Type} (r : Resolver σ) (tokens : List Text) (memory : σ) (P : Point σ) :
    Prop where
  /-- The tokens are those of the formula. -/
  whole : P.taken ++ P.ahead = tokens
  /-- The evaluation has come to the point, and goes on from there to where it ends. -/
  passed : ∃ p, P.Holds p ∧
    Progress.reached (scan r P.ahead p) = Progress.reached (scan r tokens { memory })
  /-- Nothing waits but open parentheses and operators. -/
  symbols : ∀ s ∈ P.signs, s = openSign ∨ Token.isOperator s = true
  /-- As many parentheses wait as the tokens so far have left open. -/
  parens : P.signs.count openSign = leftOpen P.taken
  /-- Between parentheses, above the last and below the first one precedences rise to the top, so
  that no more than two operators wait there. -/
  segments : ∀ segment, segment <:+: P.signs → openSign ∉ segment →
    segment.Pairwise (fun above below => Token.precedence below < Token.precedence above) ∧
      segment.length ≤ 2
  /-- What is applied is an operator. -/
  applied : ∀ s, P.due? r.isLabel = some s → Token.isOperator s = true

section

variable {σ : Type} {r : Resolver σ}

/-- What is due waits on top, and is released. -/
theorem Point.due_cases {P : Point σ} {s : Text} (due : P.due? r.isLabel = some s) :
    s ∈ P.signs ∧ ∃ t, Token.releases r.isLabel t s = true := by
  unfold due? at due
  split at due
  · next t _ s' _ _ waits =>
      split at due
      · next releases =>
          cases due
          rw [waits]
          exact ⟨List.mem_cons_self, t, releases⟩
      · cases due
  · cases due

/-- **What waits is in order all through a pass.** The rounds come to the end of the pass, and at
every point that they lead to the stack holds nothing but open parentheses and operators, as many
parentheses as are open, and above and below them operators of rising precedence. So nothing is
applied in a pass but operators. -/
theorem pass_in_order (r : Resolver σ) (rejects : RejectsSymbols r.isLabel) (tokens : List Text)
    (memory : σ) :
    (∃ n P, Point.rounds r n (.start tokens memory) = .ok P ∧
        P.advance r = .error (scan r tokens { memory }).2) ∧
      ∀ n P, Point.rounds r n (.start tokens memory) = .ok P → P.OfPass r tokens memory := by
  have begins := Point.holds_start tokens memory
  refine ⟨?_, ?_⟩
  · obtain ⟨n, P, ending, led, ended⟩ := Point.rounds_end r (.start tokens memory)
    exact ⟨n, P, led, ended.trans (congrArg _ (Point.ending_of_rounds begins led ended).symm)⟩
  · intro n P led
    have order := Point.inOrder_rounds rejects (Point.inOrder_start tokens memory) led
    refine ⟨Point.tokens_rounds led, Point.holds_rounds begins led, order.symbols, order.parens,
      fun _ within no_paren => order.segment within no_paren, ?_⟩
    intro s due
    obtain ⟨waits, t, releases⟩ := Point.due_cases due
    exact (order.symbols s waits).resolve_left (Token.ne_openSign_of_releases releases)

/-- Before the parenthesis of `A1 + A1 * (A1 - A1 / A1)` is closed, two operators wait on each side
of the open one, and the quotient is applied first. -/
theorem pass_in_order_nested :
    let r := Resolver.table Label.isLabel [("A1", { hasFormula := true })] (.ok {})
    let tokens : List Text := ["A1", "+", "A1", "*", "(", "A1", "-", "A1", "/", "A1", ")"]
    ∃ P, Point.rounds r 10 (.start tokens ()) = .ok P ∧
      P.signs = [("/" : Text), "-", "(", "*", "+"] ∧ P.due? r.isLabel = some "/" ∧
      P.OfPass r tokens () := by
  intro r tokens
  have led : ((Point.rounds r 10 (.start tokens ())).toOption.map fun P =>
      (P.signs, P.due? r.isLabel)) =
      some ([("/" : Text), "-", "(", "*", "+"], some ("/" : Text)) := by
    decide +kernel
  cases come : Point.rounds r 10 (.start tokens ()) with
  | error ending =>
      rw [come] at led
      cases led
  | ok P =>
      rw [come] at led
      obtain ⟨signs, due⟩ := Prod.mk.inj (Option.some.inj led)
      exact ⟨P, rfl, signs, due, (pass_in_order r rejectsSymbols_isLabel tokens ()).2 10 P come⟩

end

end SheetCalc.Formula
