/-!
# Procedures

A procedure changes a state and may fail. What it has done to the state before it fails stays done.
What comes behind a part of it goes on with the state that this part has left, and is left out if it
has failed (`run_bind`). Of a computation without a state the results alone are said (`bind_ok_iff`,
`bind_error_iff`).
-/

namespace SheetCalc.Procedure

variable {ε σ α β : Type}

theorem run_bind (x : ExceptT ε (StateM σ) α) (f : α → ExceptT ε (StateM σ) β) (s : σ) :
    (x >>= f).run s = match x.run s with
      | (.ok a, after) => (f a).run after
      | (.error e, after) => (.error e, after) := by
  have unfolded : (x >>= f).run s =
      (ExceptT.bindCont f (x.run s).1 : StateM σ (Except ε β)) (x.run s).2 := rfl
  rw [unfolded]
  rcases x.run s with ⟨_ | _, _⟩ <;> rfl

theorem run_bind_ok {x : ExceptT ε (StateM σ) α} {s after : σ} {a : α}
    (ran : x.run s = (.ok a, after)) (f : α → ExceptT ε (StateM σ) β) :
    (x >>= f).run s = (f a).run after := by
  rw [run_bind, ran]

theorem run_bind_error {x : ExceptT ε (StateM σ) α} {s after : σ} {e : ε}
    (ran : x.run s = (.error e, after)) (f : α → ExceptT ε (StateM σ) β) :
    (x >>= f).run s = (.error e, after) := by
  rw [run_bind, ran]

/-- When a procedure fails, what is done about it goes on with the state that it has left. -/
theorem run_tryCatch (x : ExceptT ε (StateM σ) α) (handle : ε → ExceptT ε (StateM σ) α) (s : σ) :
    (tryCatch x handle).run s = match x.run s with
      | (.ok a, after) => (.ok a, after)
      | (.error e, after) => (handle e).run after := by
  have unfolded : (tryCatch x handle).run s =
      ((match (x.run s).1 with
        | .ok a => pure (.ok a)
        | .error e => handle e) : StateM σ (Except ε α)) (x.run s).2 := rfl
  rw [unfolded]
  rcases x.run s with ⟨_ | _, _⟩ <;> rfl

/-! ## Computations without a state -/

theorem bind_ok_iff {x : Except ε α} {f : α → Except ε β} {b : β} :
    x >>= f = .ok b ↔ ∃ a, x = .ok a ∧ f a = .ok b := by
  cases x with
  | error e =>
      constructor
      · nofun
      · rintro ⟨a, none_there, _⟩
        cases none_there
  | ok a =>
      constructor
      · exact fun went => ⟨a, rfl, went⟩
      · rintro ⟨_, ⟨⟩, went⟩
        exact went

theorem bind_error_iff {x : Except ε α} {f : α → Except ε β} {e : ε} :
    x >>= f = .error e ↔ x = .error e ∨ ∃ a, x = .ok a ∧ f a = .error e := by
  cases x <;> simp [bind, Except.bind]

theorem mapError_ok_iff {ε' : Type} {x : Except ε α} {f : ε → ε'} {a : α} :
    x.mapError f = .ok a ↔ x = .ok a := by
  cases x with
  | error e => exact ⟨nofun, nofun⟩
  | ok b =>
      constructor <;>
        · rintro ⟨⟩
          rfl

theorem mapError_error_iff {ε' : Type} {x : Except ε α} {f : ε → ε'} {e : ε'} :
    x.mapError f = .error e ↔ ∃ e', x = .error e' ∧ f e' = e := by
  cases x with
  | error e' =>
      constructor
      · rintro ⟨⟩
        exact ⟨e', rfl, rfl⟩
      · rintro ⟨_, ⟨⟩, rfl⟩
        rfl
  | ok b => exact ⟨nofun, nofun⟩

end SheetCalc.Procedure
