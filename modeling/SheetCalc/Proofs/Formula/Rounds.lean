import SheetCalc.Proofs.Formula.Conservation
import SheetCalc.Proofs.Procedure

/-!
# The rounds of a pass

The pass over a formula goes in rounds (`Point.advance`): as long as the token ahead releases the
sign that waits on top, this sign is applied, one in a round, and then the token is taken in. Each
round takes a sign away or a token in, so they come to an end (`Point.rounds_end`), and what a
single round preserves holds at every point that they lead to (`Point.rounds_preserve`).

The rounds are the pass (`Point.holds_rounds`): each goes on with it where it was
(`Point.holds_advance`), and the last one has its ending (`Point.ending_of_rounds`).
-/

namespace SheetCalc.Formula

/-! ## Points and rounds -/

/-- A point of the pass over a formula: the tokens that have been taken in and those that are ahead,
the operands and the signs that wait (the top of each first), the labels asked for (the last one
first), and the memory. -/
structure Point (σ : Type) where
  taken : List Text := []
  ahead : List Text
  values : List Float := []
  signs : List Text := []
  asked : List Text := []
  memory : σ

/-- Whether a token has a sign applied that waits on top, before it is taken in itself: a closing
parenthesis any but an open one, and an operator any of no lower precedence. -/
def Token.releases (isLabel : Text → Bool) (token sign : Text) : Bool :=
  match classify isLabel token with
  | .closeParen => sign != openSign
  | .operator _ => precedence token ≤ precedence sign
  | _ => false

/-- The signs that wait when a token has been taken in. -/
def Kind.signs (token : Text) (signs : List Text) : Kind → List Text
  | .openParen | .operator _ => token :: signs
  | .closeParen => signs.tail
  | _ => signs

namespace Point

variable {σ : Type}

/-- Where the pass over a formula begins. -/
def start (tokens : List Text) (memory : σ) : Point σ :=
  { ahead := tokens, memory }

/-- The sign on top, if the token ahead releases it. -/
def due? (isLabel : Text → Bool) (P : Point σ) : Option Text :=
  match P.ahead, P.signs with
  | t :: _, s :: _ => if Token.releases isLabel t s then some s else none
  | _, _ => none

/-- Applies the sign on top, which is given. -/
def applyTop (P : Point σ) (s : Text) : Except Ending (Point σ) :=
  match applySign s P.values with
  | ⟨values, none⟩ => .ok { P with values, signs := P.signs.tail }
  | ⟨_, some f⟩ => .error (.failed f)

/-- Takes in the token ahead, when it releases nothing any more. -/
def takeIn (r : Resolver σ) (t : Text) (ts : List Text) (P : Point σ) : Except Ending (Point σ) :=
  let kind := Token.classify r.isLabel t
  let next := { P with taken := P.taken ++ [t], ahead := ts, signs := kind.signs t P.signs }
  match kind with
  | .number x => .ok { next with values := x :: P.values }
  | .reference =>
    match r.lookUp t P.memory with
    | (.ok x, memory) => .ok { next with values := x :: P.values, asked := t :: P.asked, memory }
    | (.error ending, _) => .error ending
  | _ => .ok next

/-- The result with which a token ends the pass because of the one behind it. -/
def flawed (isLabel : Text → Bool) (t : Text) (P : Point σ) : Result :=
  match Token.classify isLabel t with
  | .number x => .number x
  | _ => .top P.values

/-- One round of the pass. It leads to another point, or to the end of the pass: behind all tokens,
or at one of them with an ending. -/
def advance (r : Resolver σ) (P : Point σ) : Except (Option Ending) (Point σ) :=
  match P.ahead with
  | [] => .error none
  | t :: ts =>
    if endsEarly r.isLabel t ts.head? then .error (some (.flawed (P.flawed r.isLabel t)))
    else
      match P.due? r.isLabel with
      | some s => (P.applyTop s).mapError some
      | none => (P.takeIn r t ts).mapError some

/-- So many rounds. -/
def rounds (r : Resolver σ) : Nat → Point σ → Except (Option Ending) (Point σ)
  | 0, P => .ok P
  | n + 1, P => do rounds r n (← P.advance r)

/-- A round comes to the end of the tokens, or to a token that ends the pass because of the one
behind it, or applies the sign on top, or takes in the token ahead, which then releases nothing. -/
theorem advance_cases (r : Resolver σ) (P : Point σ) :
    (P.ahead = [] ∧ P.advance r = .error none) ∨
      ∃ t ts, P.ahead = t :: ts ∧
        ((endsEarly r.isLabel t ts.head? = true ∧
            P.advance r = .error (some (.flawed (P.flawed r.isLabel t)))) ∨
          endsEarly r.isLabel t ts.head? = false ∧
            ((∃ s rest, P.signs = s :: rest ∧ Token.releases r.isLabel t s = true ∧
                P.advance r = (P.applyTop s).mapError some) ∨
              (∀ s ∈ P.signs.head?, Token.releases r.isLabel t s = false) ∧
                P.advance r = (P.takeIn r t ts).mapError some)) := by
  rcases P with ⟨taken, _ | ⟨t, ts⟩, values, signs, asked, memory⟩
  · exact .inl ⟨rfl, rfl⟩
  · refine .inr ⟨t, ts, rfl, ?_⟩
    unfold advance
    cases early : endsEarly r.isLabel t ts.head? with
    | true => exact .inl ⟨rfl, by simp only [early, if_true]⟩
    | false =>
        refine .inr ⟨rfl, ?_⟩
        simp only [early, Bool.false_eq_true, if_false, due?]
        rcases signs with _ | ⟨s, rest⟩
        · exact .inr ⟨nofun, rfl⟩
        · cases releases : Token.releases r.isLabel t s with
          | true => exact .inl ⟨s, rest, rfl, releases, by simp only [releases, if_true]⟩
          | false =>
              refine .inr ⟨?_, by simp only [releases, Bool.false_eq_true, if_false]⟩
              rintro s' top
              cases top
              exact releases

/-- What there is when the sign on top has been applied. -/
theorem applyTop_ok {P Q : Point σ} {s : Text} (applied : P.applyTop s = .ok Q) :
    Q.taken = P.taken ∧ Q.ahead = P.ahead ∧ Q.signs = P.signs.tail := by
  unfold applyTop at applied
  split at applied
  · cases applied
    exact ⟨rfl, rfl, rfl⟩
  · cases applied

/-- What there is when a token has been taken in. -/
theorem takeIn_ok {r : Resolver σ} {P Q : Point σ} {t : Text} {ts : List Text}
    (taken : P.takeIn r t ts = .ok Q) :
    Q.taken = P.taken ++ [t] ∧ Q.ahead = ts ∧
      Q.signs = (Token.classify r.isLabel t).signs t P.signs := by
  unfold takeIn at taken
  simp only at taken
  split at taken
  · cases taken
    exact ⟨rfl, rfl, rfl⟩
  · split at taken
    · cases taken
      exact ⟨rfl, rfl, rfl⟩
    · cases taken
  · cases taken
    exact ⟨rfl, rfl, rfl⟩

/-- What a round does that leads to another point: it takes the sign on top away, or it takes the
token ahead in. -/
theorem advance_ok {r : Resolver σ} {P Q : Point σ} (round : P.advance r = .ok Q) :
    ∃ t ts, P.ahead = t :: ts ∧
      ((∃ s, P.signs = s :: Q.signs ∧ Token.releases r.isLabel t s = true ∧ Q.taken = P.taken ∧
          Q.ahead = t :: ts) ∨
        ((∀ s ∈ P.signs.head?, Token.releases r.isLabel t s = false) ∧ Q.taken = P.taken ++ [t] ∧
          Q.ahead = ts ∧ Q.signs = (Token.classify r.isLabel t).signs t P.signs)) := by
  rcases advance_cases r P with ⟨_, ended⟩ | ⟨t, ts, ahead, ⟨_, ended⟩ | ⟨_, applies | takes⟩⟩
  · rw [ended] at round
    cases round
  · rw [ended] at round
    cases round
  · obtain ⟨s, rest, waits, releases, applies⟩ := applies
    obtain ⟨taken, same, signs⟩ :=
      applyTop_ok (Procedure.mapError_ok_iff.mp (applies.symm.trans round))
    rw [waits] at signs
    exact ⟨t, ts, ahead, .inl ⟨s, by rw [waits, signs]; rfl, releases, taken, same.trans ahead⟩⟩
  · obtain ⟨settled, takes⟩ := takes
    obtain ⟨taken, behind, signs⟩ :=
      takeIn_ok (Procedure.mapError_ok_iff.mp (takes.symm.trans round))
    exact ⟨t, ts, ahead, .inr ⟨settled, taken, behind, signs⟩⟩

/-- What one round preserves holds wherever rounds lead to. -/
theorem rounds_preserve {r : Resolver σ} (holds : Point σ → Prop)
    (preserved : ∀ P Q, holds P → P.advance r = .ok Q → holds Q) {n : Nat} {P Q : Point σ}
    (first : holds P) (led : rounds r n P = .ok Q) : holds Q := by
  induction n generalizing P with
  | zero =>
      cases led
      exact first
  | succ n ih =>
      obtain ⟨P', round, others⟩ := Procedure.bind_ok_iff.mp led
      exact ih (preserved P P' first round) others

/-- The tokens that have been taken in and those that are ahead are those of the formula. -/
theorem tokens_advance {r : Resolver σ} {P Q : Point σ} (round : P.advance r = .ok Q) :
    Q.taken ++ Q.ahead = P.taken ++ P.ahead := by
  obtain ⟨t, ts, ahead, ⟨_, _, _, taken, same⟩ | ⟨_, taken, behind, _⟩⟩ := advance_ok round
  · rw [taken, same, ahead]
  · rw [taken, behind, ahead, List.append_assoc]
    rfl

theorem tokens_rounds {r : Resolver σ} {n : Nat} {P Q : Point σ} (led : rounds r n P = .ok Q) :
    Q.taken ++ Q.ahead = P.taken ++ P.ahead := by
  refine rounds_preserve (fun Q => Q.taken ++ Q.ahead = P.taken ++ P.ahead) ?_ rfl led
  exact fun _ _ same round => (tokens_advance round).trans same

/-- What is still to be done at a point: two rounds at most for each token, and one for each
sign. -/
def remaining (P : Point σ) : Nat :=
  2 * P.ahead.length + P.signs.length

theorem remaining_advance {r : Resolver σ} {P Q : Point σ} (round : P.advance r = .ok Q) :
    Q.remaining < P.remaining := by
  have one_more (kind : Kind) (t : Text) (signs : List Text) :
      (kind.signs t signs).length ≤ signs.length + 1 := by
    cases kind <;> simp [Kind.signs]
    omega
  unfold remaining
  obtain ⟨t, ts, ahead, ⟨s, waits, _, _, same⟩ | ⟨_, _, behind, signs⟩⟩ := advance_ok round
  · rw [same, ahead, waits, List.length_cons, List.length_cons]
    omega
  · have := one_more (Token.classify r.isLabel t) t P.signs
    rw [behind, ahead, signs, List.length_cons]
    omega

/-- The rounds come to an end. -/
theorem rounds_end (r : Resolver σ) (P : Point σ) :
    ∃ n Q ending, rounds r n P = .ok Q ∧ Q.advance r = .error ending := by
  induction todo : P.remaining using Nat.strongRecOn generalizing P with
  | ind m ih =>
      subst todo
      cases round : P.advance r with
      | error ending => exact ⟨0, P, ending, rfl, round⟩
      | ok P' =>
          obtain ⟨n, Q, ending, led, ended⟩ := ih P'.remaining (remaining_advance round) P' rfl
          exact ⟨n + 1, Q, ending, Procedure.bind_ok_iff.mpr ⟨P', round, led⟩, ended⟩

end Point

/-! ## The rounds are the pass -/

theorem Token.precedence_openSign : Token.precedence openSign = 0 := by
  decide

theorem Token.precedence_sign (o : Operator) : Token.precedence o.sign = o.precedence := by
  unfold Token.precedence
  rw [Operator.ofSign?_sign]

theorem Pending.precedence_sign (q : Pending) : Token.precedence q.sign = q.precedence := by
  cases q with
  | paren => exact Token.precedence_openSign
  | op o => exact Token.precedence_sign o

theorem Pending.sign_eq_openSign_iff {q : Pending} : q.sign = openSign ↔ q = .paren := by
  cases q with
  | paren => exact ⟨fun _ => rfl, fun _ => rfl⟩
  | op o => exact ⟨fun same => absurd same (sign_ne_openSign o), nofun⟩

theorem released_cons (stop : Pending → Bool) {q : Pending} (goes_on : stop q = false)
    (ps : List Pending) :
    released stop (q :: ps) = .apply q :: released stop ps ∧
      retained stop (q :: ps) = retained stop ps := by
  simp [released, retained, goes_on]

section

variable {isLabel : Text → Bool} {t : Text}

theorem Token.releases_closeParen (kind : classify isLabel t = .closeParen) (s : Text) :
    releases isLabel t s = (s != openSign) := by
  unfold releases
  rw [kind]

theorem Token.releases_operator {o : Operator} (kind : classify isLabel t = .operator o)
    (s : Text) : releases isLabel t s = decide (o.precedence ≤ precedence s) := by
  have sign : t = o.sign := by
    simpa only [kind] using classify_sound isLabel t
  unfold releases
  rw [kind, sign, precedence_sign]

/-- What a token releases is the first that it makes the pass apply. -/
theorem Kind.actions_of_releases {q : Pending} (releases : Token.releases isLabel t q.sign = true)
    (ps : List Pending) :
    (Token.classify isLabel t).actions t (q :: ps) =
        .apply q :: (Token.classify isLabel t).actions t ps ∧
      (Token.classify isLabel t).waiting (q :: ps) = (Token.classify isLabel t).waiting ps := by
  cases kind : Token.classify isLabel t with
  | closeParen =>
      rw [Token.releases_closeParen kind, bne_iff_ne, ne_eq, Pending.sign_eq_openSign_iff]
        at releases
      obtain ⟨first, others⟩ := released_cons (· == .paren) (beq_false_of_ne releases) ps
      exact ⟨first, congrArg List.tail others⟩
  | operator o =>
      rw [Token.releases_operator kind, decide_eq_true_iff, Pending.precedence_sign] at releases
      have goes_on : o.stops q = false := decide_eq_false (Nat.not_lt.mpr releases)
      obtain ⟨first, others⟩ := released_cons o.stops goes_on ps
      exact ⟨first, congrArg (Pending.op o :: ·) others⟩
  | _ =>
      unfold Token.releases at releases
      rw [kind] at releases
      cases releases

end

/-- An evaluation has come to a point: it holds the operands and the signs that wait there, and has
asked for the same labels. -/
structure Point.Holds {σ : Type} (P : Point σ) (p : Progress σ) : Prop where
  values : p.held.values = P.values
  signs : p.held.pending.map Pending.sign = P.signs
  asked : p.asked = P.asked
  memory : p.memory = P.memory

section

variable {σ : Type} {r : Resolver σ} {t : Text} {next? : Option Text} {p : Progress σ}

/-- The ending that a pass has reached, if it has ended. -/
def Progress.ending? : Except (Halt σ) (Progress σ) → Option Ending
  | .ok _ => none
  | .error halt => some halt.1

theorem Progress.ending?_reached (after : Progress σ × Option Ending) :
    Progress.ending? (Progress.reached after) = after.2 := by
  rcases after with ⟨q, _ | ending⟩ <;> rfl

/-- Where a token releases what waits on top, its step applies that and goes on as from below it. -/
theorem reached_step_of_releases (values : List Float) {q : Pending} (ps : List Pending)
    (asked : List Text) (memory : σ) (calm : endsEarly r.isLabel t next? = false)
    (releases : Token.releases r.isLabel t q.sign = true) :
    Progress.reached (step r t next? ⟨⟨values, q :: ps⟩, asked, memory⟩) =
      match applySign q.sign values with
      | ⟨after, none⟩ => Progress.reached (step r t next? ⟨⟨after, ps⟩, asked, memory⟩)
      | ⟨_, some f⟩ => .error (.failed f, asked.reverse, memory) := by
  obtain ⟨first, others⟩ := Kind.actions_of_releases releases ps
  rw [step_eq_carryOut r t next? _ calm, first, others, carryOut]
  simp only [Action.perform, Progress.desk, Pending.apply]
  rcases applySign q.sign values with ⟨after, _ | f⟩
  · exact (step_eq_carryOut r t next? ⟨⟨after, ps⟩, asked, memory⟩ calm).symm
  · rfl

/-- A token that ends the pass ends it whatever is behind. -/
theorem scan_of_step_ended {ts : List Text} {ending : Ending}
    (ended : (step r t ts.head? p).2 = some ending) : (scan r (t :: ts) p).2 = some ending := by
  unfold scan
  rcases stepped : step r t ts.head? p with ⟨q, _ | other⟩
  · rw [stepped] at ended
    cases ended
  · rw [stepped] at ended
    exact ended

theorem Stacks.reduce_of_stops {stop : Pending → Bool} {ps : List Pending}
    (stops : ∀ p ∈ ps.head?, stop p = true) (values : List Float) :
    reduce stop values ps = .ok ⟨values, ps⟩ := by
  cases ps with
  | nil => rfl
  | cons p ps =>
      unfold reduce
      rw [stops p rfl]
      rfl

end

namespace Point

variable {σ : Type} {r : Resolver σ} {P Q : Point σ} {p : Progress σ} {t : Text} {ts : List Text}

/-- A token that ends the pass because of the one behind it does so with the result that stands
there. -/
theorem step_of_endsEarly (holds : P.Holds p) {next? : Option Text}
    (early : endsEarly r.isLabel t next? = true) :
    (step r t next? p).2 = some (.flawed (P.flawed r.isLabel t)) := by
  unfold endsEarly at early
  unfold step flawed
  cases kind : Token.classify r.isLabel t with
  | number x =>
      rw [kind] at early
      simp only [decide_eq_true_iff] at early
      simp only [if_pos early]
  | operator o =>
      rw [kind] at early
      simp only at early
      simp only [early, if_true, holds.values]
  | _ =>
      rw [kind] at early
      cases early

/-- Where a token releases nothing, its step takes it in. -/
theorem step_of_settled (holds : P.Holds p) (calm : endsEarly r.isLabel t ts.head? = false)
    (settled : ∀ s ∈ P.signs.head?, Token.releases r.isLabel t s = false) :
    match P.takeIn r t ts with
    | .ok Q => ∃ q, step r t ts.head? p = (q, none) ∧ Q.Holds q
    | .error ending => (step r t ts.head? p).2 = some ending := by
  obtain ⟨taken, ahead, values, signs, asked, memory⟩ := P
  obtain ⟨⟨values, pending⟩, asked, memory⟩ := p
  obtain ⟨rfl, rfl, rfl, rfl⟩ := holds
  have sound := Token.classify_sound r.isLabel t
  have stays : ∀ q ∈ pending.head?, Token.releases r.isLabel t q.sign = false := by
    intro q top
    exact settled q.sign (by simp [List.head?_map, Option.mem_def.mp top])
  unfold endsEarly at calm
  unfold takeIn step
  cases kind : Token.classify r.isLabel t with
  | number x =>
      rw [kind] at calm
      simp only [decide_eq_false_iff_not] at calm
      simp only [if_neg calm]
      exact ⟨_, rfl, rfl, rfl, rfl, rfl⟩
  | reference =>
      simp only [refer_eq]
      rcases r.lookUp t memory with ⟨ending | x, after⟩
      · rfl
      · exact ⟨_, rfl, rfl, rfl, rfl, rfl⟩
  | openParen =>
      rw [kind] at sound
      exact ⟨_, rfl, rfl, congrArg (· :: _) sound.symm, rfl, rfl⟩
  | closeParen =>
      have stops : ∀ q ∈ pending.head?, (q == Pending.paren) = true := by
        intro q top
        have stays := stays q top
        rw [Token.releases_closeParen kind, bne_eq_false_iff_eq, Pending.sign_eq_openSign_iff]
          at stays
        exact beq_iff_eq.mpr stays
      simp only [Stacks.closeParen, Stacks.reduce_of_stops stops]
      exact ⟨_, rfl, rfl, List.map_tail, rfl, rfl⟩
  | operator o =>
      rw [kind] at calm sound
      have stops : ∀ q ∈ pending.head?, (decide (q.precedence < o.precedence)) = true := by
        intro q top
        have stays := stays q top
        rw [Token.releases_operator kind, decide_eq_false_iff_not, Nat.not_le,
          Pending.precedence_sign] at stays
        exact decide_eq_true stays
      simp only at calm
      simp only [calm, Bool.false_eq_true, if_false, Stacks.pushOperator,
        Stacks.reduce_of_stops stops]
      exact ⟨_, rfl, rfl, congrArg (· :: _) (show t = o.sign from sound).symm, rfl, rfl⟩
  | unknown => exact ⟨_, rfl, rfl, rfl, rfl, rfl⟩

/-- Where a token releases the sign on top, its step applies this sign and goes on from there. -/
theorem step_of_releases (holds : P.Holds p) {next? : Option Text} {s : Text} {rest : List Text}
    (calm : endsEarly r.isLabel t next? = false) (waits : P.signs = s :: rest)
    (releases : Token.releases r.isLabel t s = true) :
    match P.applyTop s with
    | .ok Q => ∃ q, Q.Holds q ∧
        Progress.reached (step r t next? q) = Progress.reached (step r t next? p)
    | .error ending => (step r t next? p).2 = some ending := by
  obtain ⟨taken, ahead, values, signs, asked, memory⟩ := P
  obtain ⟨⟨values, pending⟩, asked, memory⟩ := p
  obtain ⟨rfl, rfl, rfl, rfl⟩ := holds
  obtain ⟨q, ps, rfl, rfl, rfl⟩ := List.map_eq_cons_iff.mp waits
  have stepped := reached_step_of_releases values ps asked memory calm releases
  unfold applyTop
  rcases applied : applySign q.sign values with ⟨after, _ | f⟩
  · rw [applied] at stepped
    exact ⟨⟨⟨after, ps⟩, asked, memory⟩, ⟨rfl, rfl, rfl, rfl⟩, stepped.symm⟩
  · rw [applied] at stepped
    rw [← Progress.ending?_reached, stepped]
    rfl

/-- **A round goes on with the pass.** Where an evaluation has come to a point, it comes to the next
one, and from there to the same end; and a round that ends leads to the ending of the pass. -/
theorem holds_advance (holds : P.Holds p) :
    match P.advance r with
    | .ok Q => ∃ q, Q.Holds q ∧
        Progress.reached (scan r Q.ahead q) = Progress.reached (scan r P.ahead p)
    | .error ending => (scan r P.ahead p).2 = ending := by
  rcases advance_cases r P with ⟨ahead, ended⟩ | ⟨t, ts, ahead, ⟨early, ended⟩ | ⟨calm, round⟩⟩
  · rw [ended, ahead]
    rfl
  · rw [ended, ahead]
    exact scan_of_step_ended (step_of_endsEarly holds early)
  · rcases round with ⟨s, rest, waits, releases, applies⟩ | ⟨settled, takes⟩
    · have stepped := step_of_releases holds calm waits releases
      rw [applies]
      cases applied : P.applyTop s with
      | ok Q =>
          rw [applied] at stepped
          obtain ⟨q, holds, same⟩ := stepped
          refine ⟨q, holds, ?_⟩
          rw [(applyTop_ok applied).2.1, ahead, reached_scan_cons, reached_scan_cons, same]
      | error ending =>
          rw [applied] at stepped
          rw [ahead]
          exact scan_of_step_ended stepped
    · have stepped := step_of_settled holds calm settled
      rw [takes]
      cases taken : P.takeIn r t ts with
      | ok Q =>
          rw [taken] at stepped
          obtain ⟨q, stepped, holds⟩ := stepped
          refine ⟨q, holds, ?_⟩
          rw [ahead, (takeIn_ok taken).2.1, reached_scan_cons, stepped]
          rfl
      | error ending =>
          rw [taken] at stepped
          rw [ahead]
          exact scan_of_step_ended stepped

theorem holds_start (tokens : List Text) (memory : σ) : (start tokens memory).Holds { memory } :=
  ⟨rfl, rfl, rfl, rfl⟩

/-- **The rounds are the pass.** An evaluation that has come to a point comes to all points that the
rounds lead to from there. -/
theorem holds_rounds (holds : P.Holds p) {n : Nat} (led : rounds r n P = .ok Q) :
    ∃ q, Q.Holds q ∧
      Progress.reached (scan r Q.ahead q) = Progress.reached (scan r P.ahead p) := by
  refine rounds_preserve (fun Q => ∃ q, Q.Holds q ∧
    Progress.reached (scan r Q.ahead q) = Progress.reached (scan r P.ahead p)) ?_
    ⟨p, holds, rfl⟩ led
  rintro Q Q' ⟨q, holds, same⟩ round
  have next := holds_advance (r := r) holds
  rw [round] at next
  obtain ⟨q', holds, on⟩ := next
  exact ⟨q', holds, on.trans same⟩

/-- The round behind all others ends as the pass does. -/
theorem ending_of_rounds (holds : P.Holds p) {n : Nat} {ending : Option Ending}
    (led : rounds r n P = .ok Q) (ended : Q.advance r = .error ending) :
    (scan r P.ahead p).2 = ending := by
  obtain ⟨q, holds, same⟩ := holds_rounds holds led
  have last := holds_advance (r := r) holds
  rw [ended] at last
  rw [← last, ← Progress.ending?_reached, same.symm, Progress.ending?_reached]

end Point

end SheetCalc.Formula
