import SheetCalc.Text

/-!
# Control sequences

A control sequence tells a terminal how to show what comes behind it: an escape, a bracket, numbers
and a letter. `withoutControls` takes the control sequences out of a text that no terminal shows.
What is only the beginning of one stays, and so does a text without escapes
(`withoutControls_eq_self`).
-/

namespace SheetCalc.Text

/-- Whether a code point is the character that every control sequence begins with. -/
def isEscape (p : CodePoint) : Bool :=
  p.val == 0x1b

/-- Whether a code point may stand between the bracket and the letter: a digit, a semicolon or a
question mark. -/
def isParameter (p : CodePoint) : Bool :=
  (0x30 ≤ p.val && p.val ≤ 0x39) || p.val == 0x3b || p.val == 0x3f

/-- Whether a code point is a letter of ASCII. -/
def isAsciiLetter (p : CodePoint) : Bool :=
  (0x41 ≤ p.val && p.val ≤ 0x5a) || (0x61 ≤ p.val && p.val ≤ 0x7a)

/-- How far a control sequence has come: not begun, behind its first character, or behind the
bracket. -/
inductive Stage where
  | none
  | escape
  | bracket
  deriving DecidableEq, Repr, Inhabited

/-- Goes on behind what is kept and the beginning of a control sequence, both given backwards. -/
def dropControls (kept begun : List CodePoint) (stage : Stage) : List CodePoint → List CodePoint
  | [] => (begun ++ kept).reverse
  | p :: rest =>
    if stage = .bracket && isAsciiLetter p then dropControls kept [] .none rest
    else if stage = .bracket && isParameter p then dropControls kept (p :: begun) .bracket rest
    else if stage = .escape && p == .ofChar '[' then dropControls kept (p :: begun) .bracket rest
    else if isEscape p then dropControls (begun ++ kept) [p] .escape rest
    else dropControls (p :: (begun ++ kept)) [] .none rest

/-- A text without the control sequences in it. -/
def withoutControls (t : Text) : Text :=
  ⟨dropControls [] [] .none t.points⟩

theorem dropControls_eq_append (kept ps : List CodePoint) (h : ∀ p ∈ ps, isEscape p = false) :
    dropControls kept [] .none ps = kept.reverse ++ ps := by
  induction ps generalizing kept with
  | nil => simp [dropControls]
  | cons p rest ih =>
    have first := h p List.mem_cons_self
    have others := ih (p :: kept) fun q hq => h q (List.mem_cons_of_mem p hq)
    simp [dropControls, first, others]

/-- A text without an escape in it stays as it is. -/
theorem withoutControls_eq_self {t : Text} (h : ∀ p ∈ t.points, isEscape p = false) :
    t.withoutControls = t := by
  rw [withoutControls, dropControls_eq_append [] t.points h]
  rfl

end SheetCalc.Text
