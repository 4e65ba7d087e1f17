import SheetCalc.Proofs.Formula.Expression
import SheetCalc.Proofs.Formula.Origins

/-!
# The references of a formula

An evaluation asks for the labels that its formula refers to in the order of its tokens, until it
ends (`asked_scan_append`). What it has asked for is therefore a beginning of its references, and it
is all of them if it ends with a value.

Only a number and an operator look at the token behind them, and none of the two asks for anything.
So an evaluation that a reference has ended does not depend on what comes behind that reference
(`run_append_of_answered`). `asked_in_order` puts both together.
-/

namespace SheetCalc.Formula

section

variable {σ : Type} {r : Resolver σ} {tokens ts more : List Text} {memory : σ} {p q : Progress σ}
  {ending : Ending}

/-! ## The order of asking -/

theorem reverse_references_singleton (isLabel : Text → Bool) (t : Text) :
    (references isLabel [t]).reverse = references isLabel [t] := by
  unfold references
  rw [List.filter_singleton]
  cases (Token.number? t).isNone && isLabel t <;> rfl

/-- A pass asks for the references of its tokens from the first one on, and for all of them if it
does not end. -/
theorem asked_scan_append (r : Resolver σ) (ts : List Text) (p : Progress σ) :
    ∃ later, (scan r ts p).1.asked.reverse ++ later = p.asked.reverse ++ references r.isLabel ts ∧
      ((scan r ts p).2 = none → later = []) := by
  induction ts generalizing p with
  | nil => exact ⟨[], rfl, fun _ => rfl⟩
  | cons t ts ih =>
      have first := asked_step r t ts.head? p
      have split_off : references r.isLabel (t :: ts) =
          references r.isLabel [t] ++ references r.isLabel ts :=
        List.filter_append [t] ts
      unfold scan
      rw [split_off]
      rcases hs : step r t ts.head? p with ⟨p', _ | ending⟩
      · rw [hs] at first
        obtain ⟨later, same, all⟩ := ih p'
        refine ⟨later, ?_, all⟩
        rw [same, first, List.reverse_append, reverse_references_singleton, List.append_assoc]
      · rw [hs] at first
        refine ⟨references r.isLabel ts, ?_, ?_⟩
        · rw [first, List.reverse_append, reverse_references_singleton, List.append_assoc]
        · intro through
          cases through

/-- What an evaluation asks for is a beginning of its references. -/
theorem asked_is_beginning (r : Resolver σ) (tokens : List Text) (memory : σ) :
    (run r tokens memory).2.1 <+: references r.isLabel tokens := by
  rcases vacant_or_scan r tokens memory with ⟨error, vacant⟩ | ⟨some_token, no_pair⟩
  · rw [vacant]
    exact List.nil_prefix
  rw [asked_run_eq r some_token no_pair]
  obtain ⟨later, same, _⟩ := asked_scan_append r tokens { memory }
  exact ⟨later, same⟩

/-- An evaluation with a value has asked for all of its references. -/
theorem asked_eq_of_value {result : Result} (value : (run r tokens memory).1 = .value result) :
    (run r tokens memory).2.1 = references r.isLabel tokens := by
  obtain ⟨_, _, p, through, ran⟩ := through_of_value value
  obtain ⟨later, same, all⟩ := asked_scan_append r tokens { memory }
  rw [through] at same all
  rw [all rfl, List.append_nil] at same
  rw [ran]
  exact same

/-! ## What comes behind the last look-up -/

/-- An ending that a look-up leads to. -/
def Ending.Answered : Ending → Prop
  | .failed (.badReference _ _) | .refused _ => True
  | _ => False

theorem not_answered_of_own {f : Failure} (own : f.Own) : ¬ (Ending.failed f).Answered := by
  cases own <;> exact id

/-- A step that a look-up has ended does not depend on the token behind it. -/
theorem step_of_answered {t : Text} {next? : Option Text}
    (ends : step r t next? p = (q, some ending)) (answered : ending.Answered)
    (other? : Option Text) :
    step r t other? p = (q, some ending) := by
  have proceeds {after : Except Failure Stacks} (own : ∀ f, after = .error f → f.Own) :
      p.proceed after ≠ (q, some ending) := by
    intro stopped
    cases after with
    | ok held => cases stopped
    | error f =>
        cases stopped
        exact not_answered_of_own (own f rfl) answered
  unfold step at ends ⊢
  cases hk : Token.classify r.isLabel t with
  | number x =>
      rw [hk] at ends
      simp only at ends
      split at ends
      · cases ends
        exact answered.elim
      · cases ends
  | reference =>
      rw [hk] at ends
      exact ends
  | openParen =>
      rw [hk] at ends
      exact ends
  | closeParen =>
      rw [hk] at ends
      exact ends
  | operator o =>
      rw [hk] at ends
      simp only at ends
      split at ends
      · cases ends
        exact answered.elim
      · exact absurd ends (proceeds (own_of_map fun _ failed => Stacks.own_of_reduce failed))
  | unknown =>
      rw [hk] at ends
      exact ends

theorem scan_append_of_answered (ends : scan r ts p = (q, some ending))
    (answered : ending.Answered) (more : List Text) : scan r (ts ++ more) p = (q, some ending) := by
  induction ts generalizing p with
  | nil => cases ends
  | cons t ts ih =>
      rw [List.cons_append]
      unfold scan at ends ⊢
      rcases hs : step r t ts.head? p with ⟨p', _ | early⟩
      · rw [hs] at ends
        cases ts with
        | nil => cases ends
        | cons u us =>
            rw [List.head?_cons] at hs
            rw [List.cons_append, List.head?_cons, hs]
            exact ih ends
      · rw [hs] at ends
        cases ends
        rw [step_of_answered hs answered]

/-- What is said at the end of a formula has nothing to do with look-ups. -/
theorem not_answered_close (trailing : Bool) (s : Stacks) : ¬ (close trailing s).Answered := by
  unfold close
  cases trailing with
  | true => exact id
  | false =>
      simp only [Bool.false_eq_true, if_false]
      cases finished : s.finish with
      | ok values => exact id
      | error f => exact not_answered_of_own (Stacks.own_of_finish finished)

/-- An evaluation that a look-up has ended is that of a formula that is not degenerate. -/
theorem scan_of_answered (answered : (run r tokens memory).1.Answered) :
    tokens ≠ [] ∧ tokens ≠ [openSign, closeSign] ∧
      ∃ q ending, scan r tokens { memory } = (q, some ending) ∧ ending.Answered := by
  rcases vacant_or_scan r tokens memory with ⟨error, vacant⟩ | ⟨some_token, no_pair⟩
  · rw [vacant] at answered
    exact answered.elim
  refine ⟨some_token, no_pair, ?_⟩
  rw [run_eq_scan r memory some_token no_pair] at answered
  rcases ends : scan r tokens { memory } with ⟨q, _ | ending⟩
  · rw [ends] at answered
    exact absurd answered (not_answered_close _ _)
  · rw [ends] at answered
    exact ⟨q, ending, rfl, answered⟩

/-- **An evaluation that a look-up has ended does not depend on what comes behind it.** -/
theorem run_append_of_answered (rejects : RejectsSymbols r.isLabel)
    (answered : (run r tokens memory).1.Answered) (more : List Text) :
    run r (tokens ++ more) memory = run r tokens memory := by
  obtain ⟨some_token, no_pair, q, ending, ends, by_look_up⟩ := scan_of_answered answered
  have longer := scan_append_of_answered ends by_look_up more
  have some_more : tokens ++ more ≠ [] := by
    intro none_there
    exact some_token (List.append_eq_nil_iff.mp none_there).1
  -- The pass of a pair of parentheses meets no look-up.
  have no_pair_more : tokens ++ more ≠ [openSign, closeSign] := by
    intro pair
    rw [pair] at longer
    simp only [scan, step, Token.classify_openSign rejects, Token.classify_closeSign rejects]
      at longer
    cases longer
  rw [run_eq_scan r memory some_more no_pair_more, longer, run_eq_scan r memory some_token no_pair,
    ends]

/-! ## Spoilt references -/

/-- The cell of an answer holds an error that is passed on, or has no formula. -/
def Answer.Spoilt (a : Answer) : Prop :=
  ∃ cell, a.found = .ok cell ∧
    ((cell.error ≠ {} ∧ cell.error ≠ emptyFormula) ∨ cell.hasFormula = false)

theorem Answer.Spoilt.operand {a : Answer} (spoilt : a.Spoilt) :
    ∃ code, a.operand = .error (.failed (.badReference a.label code)) := by
  obtain ⟨cell, found, why⟩ := spoilt
  unfold Answer.operand
  rw [found]
  simp only [operand_eq_worth]
  unfold CellView.worth
  by_cases held : cell.error ≠ {} ∧ cell.error ≠ emptyFormula
  · rw [if_pos held]
    exact ⟨cell.error, rfl⟩
  · rw [if_neg held, if_pos (why.resolve_left held)]
    exact ⟨invalidCell, rfl⟩

/-- An evaluation ends at a spoilt reference. -/
theorem badReference_of_spoilt (spoilt : ∃ a ∈ r.heard tokens memory, a.Spoilt) :
    ∃ label code, (run r tokens memory).1 = .failed (.badReference label code) := by
  obtain ⟨a, there, spoilt⟩ := spoilt
  obtain ⟨code, led⟩ := spoilt.operand
  have not_usable : ¬ a.Usable := by
    rintro ⟨x, operand⟩
    rw [led] at operand
    cases operand
  unfold Resolver.heard at there
  rcases run_cases r tokens memory with ⟨_, usable⟩ | cause
  · exact absurd (usable a there) not_usable
  generalize (run r tokens memory).2.1 = asked at cause there
  generalize (run r tokens memory).1 = ending at cause
  cases cause with
  | itself usable _ => exact absurd (usable a there) not_usable
  | @answer before label _ usable ends =>
      rw [r.answers_concat] at there
      rcases List.mem_append.mp there with earlier | last
      · exact absurd (usable a earlier) not_usable
      · rw [← List.mem_singleton.mp last, led] at ends
        cases ends
        exact ⟨a.label, code, rfl⟩

/-- **An evaluation asks in the order of its formula, and stops where a reference is spoilt.** What
it asks for is a beginning of its references. Where it leaves no error it is all of them, or the
last look-up has failed without leaving one. And where a reference is spoilt, whatever comes behind
the formula changes nothing. -/
theorem asked_in_order (r : Resolver σ) (rejects : RejectsSymbols r.isLabel) (ev : Evaluator)
    (tokens : List Text) (memory : σ) :
    (ev.evaluate r tokens memory).asked <+: references r.isLabel tokens ∧
      ((ev.evaluate r tokens memory).evaluator.error = {} →
        (ev.evaluate r tokens memory).asked = references r.isLabel tokens ∨
          ∃ a, (r.heard tokens memory).getLast? = some a ∧ a.Mute) ∧
      ((∃ a ∈ r.heard tokens memory, a.Spoilt) →
        ∀ more, ev.evaluate r (tokens ++ more) memory = ev.evaluate r tokens memory) := by
  refine ⟨asked_is_beginning r tokens memory, ?_, ?_⟩
  · intro clean
    rcases value_or_mute clean with ⟨result, value⟩ | mute
    · exact .inl (asked_eq_of_value value)
    · exact .inr mute
  · intro spoilt more
    obtain ⟨label, code, ends⟩ := badReference_of_spoilt spoilt
    have answered : (run r tokens memory).1.Answered := by
      rw [ends]
      trivial
    have same := run_append_of_answered rejects answered more
    -- The error of a reference is told whether the formula ends in an operator or not.
    unfold Evaluator.evaluate
    rw [same]
    rcases ran : run r tokens memory with ⟨ending, asked, after⟩
    rw [ran] at ends
    cases ends
    rfl

/-- Where `B1` holds an error, `A1 + B1` has asked for both cells, and an operator behind it or an
open parenthesis changes nothing. `A1 + 7` leaves no error, since it gets what it asks for. -/
theorem asked_of_sum :
    let cells : Entries Text CellView :=
      [("A1", { hasFormula := true }), ("B1", { hasFormula := true, error := divideByZero })]
    let r := Resolver.table Label.isLabel cells (.ok {})
    let sum : List Text := ["A1", "+", "B1"]
    let shift : List Text := ["A1", "+", "7"]
    (Evaluator.evaluate {} r sum ()).asked = [("A1" : Text), "B1"] ∧
      Evaluator.evaluate {} r (sum ++ [("-" : Text)]) () = Evaluator.evaluate {} r sum () ∧
      Evaluator.evaluate {} r (sum ++ [("(" : Text), "C1"]) () = Evaluator.evaluate {} r sum () ∧
      (Evaluator.evaluate {} r shift ()).asked = references r.isLabel shift := by
  intro cells r sum shift
  have asked : (run r sum ()).2.1 = [("A1" : Text), "B1"] := by rfl
  have spoilt : ∃ a ∈ r.heard sum (), a.Spoilt := by
    refine ⟨r.answer "B1" (), ?_, _, rfl, .inl (by decide)⟩
    unfold Resolver.heard
    rw [asked]
    exact List.mem_cons_of_mem _ List.mem_cons_self
  have settled := (asked_in_order r rejectsSymbols_isLabel {} sum ()).2.2 spoilt
  have clean := (asked_in_order r rejectsSymbols_isLabel {} shift ()).2.1 (by rfl)
  refine ⟨asked, settled _, settled _, ?_⟩
  rcases clean with all | ⟨a, last, mute⟩
  · exact all
  · have heard : (r.heard shift ()).getLast? = some (r.answer "A1" ()) := by rfl
    rw [heard] at last
    cases last
    rcases mute with ⟨reason, broken⟩ | ⟨f, failed, _⟩
    · cases broken
    · cases failed

/-- A look-up that breaks off, or fails with the empty code, leaves no error, and then the
references behind it have not been asked for. -/
theorem asked_of_mute_reference :
    let broken := Resolver.table Label.isLabel [] (.error (.fatal "RuntimeError"))
    let silent := Resolver.table Label.isLabel [] (.error (.failure (.other {} none)))
    let sum : List Text := ["A1", "+", "B1"]
    ((Evaluator.evaluate {} broken sum ()).evaluator.error = {} ∧
        (Evaluator.evaluate {} broken sum ()).asked ≠ references broken.isLabel sum) ∧
      (Evaluator.evaluate {} silent sum ()).evaluator.error = {} ∧
        (Evaluator.evaluate {} silent sum ()).fatal = none ∧
        (Evaluator.evaluate {} silent sum ()).asked ≠ references silent.isLabel sum := by
  decide +kernel

end

end SheetCalc.Formula
