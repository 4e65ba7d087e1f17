import SheetCalc.Journal.Log
import SheetCalc.Proofs.Files

/-!
# How reading the log fails

A log is not read if there is something wrong with its file or with what stands on its lines
(`LogError.OfLog`), or if fewer than no bytes are to be read of it. The second is noticed only where
there is a log to be read (`values_of_beyondEnd`). Everywhere else events are selected and counted,
or the log is to blame (`select_failsBy`, `tally_failsBy`).
-/

namespace SheetCalc

variable {ε α β : Type}

/-! ## Reasons of failures -/

/-- If there is no result, a property holds of the reason. -/
def FailsBy (P : ε → Prop) (r : Except ε α) : Prop :=
  ∀ e, r = .error e → P e

section

variable {P : ε → Prop}

theorem failsBy_ok (a : α) : FailsBy P (.ok a) := fun _ failed => nomatch failed

theorem failsBy_error {e : ε} (reason : P e) : FailsBy P (.error e : Except ε α) := by
  intro _ failed
  cases failed
  exact reason

theorem FailsBy.bind {r : Except ε α} {f : α → Except ε β} (first : FailsBy P r)
    (rest : ∀ a, r = .ok a → FailsBy P (f a)) : FailsBy P (r >>= f) := by
  cases r with
  | error e => exact failsBy_error (first e rfl)
  | ok a => exact rest a rfl

theorem FailsBy.map {r : Except ε α} (first : FailsBy P r) (f : α → β) : FailsBy P (r.map f) := by
  cases r with
  | error e => exact failsBy_error (first e rfl)
  | ok a => exact failsBy_ok (f a)

theorem failsBy_mapError {ε' : Type} {f : ε' → ε} (reason : ∀ e, P (f e)) (r : Except ε' α) :
    FailsBy P (r.mapError f) := by
  cases r with
  | error e => exact failsBy_error (reason e)
  | ok a => exact failsBy_ok a

theorem failsBy_foldlM {γ : Type} {f : β → γ → Except ε β} (step : ∀ b c, FailsBy P (f b c))
    (cs : List γ) (b : β) : FailsBy P (cs.foldlM f b) := by
  induction cs generalizing b with
  | nil => exact failsBy_ok b
  | cons c cs ih =>
      rw [List.foldlM_cons]
      exact (step b c).bind fun after _ => ih after

end

namespace Journal

/-- What is wrong with the log itself, and not with the number of bytes that are to be read of
it. -/
def LogError.OfLog : LogError → Prop
  | .badTail | .tailOutOfRange => False
  | _ => True

/-- A log is there, and fewer than no bytes of it are to be read. -/
def Log.BeyondEnd (log : Log) (fs : Files) : Prop :=
  log.tail < 0 ∧ ∃ node, fs.find log.path.text = .ok node

/-! ## Reading -/

theorem readLines_failsBy (lines : List (List Char)) (done : List Value) :
    FailsBy LogError.OfLog (Log.readLines done lines) := by
  induction lines generalizing done with
  | nil => exact failsBy_ok _
  | cons line lines ih =>
      unfold Log.readLines
      split
      · exact ih done
      · split
        · exact ih _
        · exact ih done
        · exact failsBy_error trivial
        · exact failsBy_error trivial

section

variable {log : Log} {fs : Files}

theorem values_failsBy (within : ¬ log.BeyondEnd fs) : FailsBy LogError.OfLog (log.values fs) := by
  unfold Log.values
  refine (failsBy_mapError (fun _ => trivial) _).bind fun there _ => ?_
  cases there with
  | false => exact failsBy_ok []
  | true =>
      refine (failsBy_mapError (fun _ => trivial) _).bind fun node found => ?_
      have not_negative : ¬ log.tail < 0 := by
        intro negative
        refine within ⟨negative, node, ?_⟩
        cases leads : fs.find log.path.text with
        | error e =>
            rw [leads] at found
            cases found
        | ok other =>
            rw [leads] at found
            cases found
            rfl
      simp only [if_neg not_negative]
      exact (failsBy_mapError (fun _ => trivial) _).bind fun bytes _ => readLines_failsBy _ []

/-- Fewer than no bytes cannot be read. -/
theorem values_of_beyondEnd (beyond : log.BeyondEnd fs) :
    ∃ e, log.values fs = .error e ∧ ¬ e.OfLog := by
  obtain ⟨negative, node, found⟩ := beyond
  have has : fs.has log.path = .ok true := by rw [Files.has, found]
  have failed : log.values fs = .error
      (if Log.largestOffset < (node.size - log.tail).toNat then .tailOutOfRange else .badTail) := by
    unfold Log.values
    simp only [has, found, if_pos negative]
    rfl
  refine ⟨_, failed, ?_⟩
  split
  · exact id
  · exact id

/-- Without a log there are no events, however many bytes are to be read of it. -/
theorem values_of_absent (absent : fs.has log.path = .ok false) : log.values fs = .ok [] := by
  unfold Log.values
  rw [absent]
  rfl

end

/-! ## Selecting and counting -/

theorem fieldOf_failsBy (name : String) (v : Value) : FailsBy LogError.OfLog (fieldOf name v) := by
  unfold fieldOf
  split
  · exact failsBy_ok _
  · exact failsBy_error trivial

theorem fieldFits_failsBy (name : String) (wanted : Text) (v : Value) :
    FailsBy LogError.OfLog (fieldFits name wanted v) := by
  unfold fieldFits
  split
  · exact failsBy_ok true
  · exact (fieldOf_failsBy name v).map _

theorem labelFits_failsBy (wanted : Text) (v : Value) :
    FailsBy LogError.OfLog (labelFits wanted v) := by
  unfold labelFits
  split
  · exact failsBy_ok true
  · refine (fieldOf_failsBy "context" v).bind fun context? _ => ?_
    cases context? with
    | none => exact failsBy_ok false
    | some context => exact fieldFits_failsBy "label" wanted context

theorem fits_failsBy (f : Filter) (v : Value) : FailsBy LogError.OfLog (f.fits v) := by
  unfold Filter.fits
  refine (fieldFits_failsBy _ _ v).bind fun level _ => ?_
  cases level with
  | false => exact failsBy_ok false
  | true =>
      refine (fieldFits_failsBy _ _ v).bind fun type _ => ?_
      cases type with
      | false => exact failsBy_ok false
      | true =>
          refine (labelFits_failsBy _ v).bind fun label _ => ?_
          cases label with
          | false => exact failsBy_ok false
          | true => exact fieldFits_failsBy _ _ v

theorem selectFrom_failsBy (f : Filter) (wanted : Int) (vs done : List Value) :
    FailsBy LogError.OfLog (selectFrom f wanted done vs) := by
  induction vs generalizing done with
  | nil => exact failsBy_ok _
  | cons v vs ih =>
      unfold selectFrom
      refine (fits_failsBy f v).bind fun fits _ => ?_
      cases fits with
      | false => exact ih done
      | true =>
          simp only [if_true]
          split
          · exact failsBy_ok _
          · exact ih (v :: done)

theorem count_failsBy (counts : Entries Key Nat) (v : Value) :
    FailsBy LogError.OfLog (count counts v) := by
  have outcome (field : Option Value) : FailsBy LogError.OfLog (isOutcome field) := by
    unfold isOutcome
    split
    · exact failsBy_ok false
    · split
      · exact failsBy_ok _
      · exact failsBy_ok false
      · exact failsBy_error trivial
  have key (field : Option Value) : FailsBy LogError.OfLog (outcomeKey field) := by
    unfold outcomeKey
    split
    · exact failsBy_ok _
    · split
      · split
        · exact failsBy_ok _
        · exact failsBy_error trivial
      · exact failsBy_ok _
  unfold count
  refine (fieldOf_failsBy _ v).bind fun type _ => (outcome type).bind fun counted _ => ?_
  cases counted with
  | false => exact failsBy_ok counts
  | true => exact (fieldOf_failsBy _ v).bind fun code _ => (key code).bind fun _ _ => failsBy_ok _

section

variable {log : Log} {fs : Files}

/-- What is done with the events of a log of which fewer than no bytes are to be read is not
done. -/
theorem bind_values_of_beyondEnd (beyond : log.BeyondEnd fs)
    (f : List Value → Except LogError α) : ∃ e, log.values fs >>= f = .error e ∧ ¬ e.OfLog := by
  obtain ⟨e, failed, blame⟩ := values_of_beyondEnd beyond
  refine ⟨e, ?_, blame⟩
  rw [failed]
  rfl

/-- Events are selected, or the log is to blame. -/
theorem select_failsBy (within : ¬ log.BeyondEnd fs) (f : Filter) (limit : Int) :
    FailsBy LogError.OfLog (select log fs f limit) :=
  (values_failsBy within).bind fun _ _ => selectFrom_failsBy _ _ _ _

/-- Events are counted, or the log is to blame. -/
theorem tally_failsBy (within : ¬ log.BeyondEnd fs) : FailsBy LogError.OfLog (tally log fs) :=
  (values_failsBy within).bind fun _ _ => failsBy_foldlM count_failsBy _ _

end

end Journal

end SheetCalc
