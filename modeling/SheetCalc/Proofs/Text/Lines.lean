import SheetCalc.Text.Blank
import SheetCalc.Text.Lines

/-!
# The lines of a text

A line feed ends a line whatever stands around it, so the lines of a text are those up to a line
feed and those behind it (`lines_append_break`). A line holds no characters but those of the text
(`mem_of_mem_lines`), and what is put in front of a text changes its first line alone, if it ends no
line itself (`tail_lines_append`).
-/

namespace SheetCalc.Text

/-! ## The cases of cutting -/

theorem linesAfter_append (done more : List (List Char)) (begun cs : List Char) :
    linesAfter (done ++ more) begun cs = more.reverse ++ linesAfter done begun cs := by
  fun_induction linesAfter done begun cs with
  | case1 done begun =>
      unfold linesAfter
      split <;> simp
  | case2 done begun rest ih =>
      rw [linesAfter]
      exact ih
  | case3 done begun c rest no_pair ends ih =>
      rw [linesAfter.eq_3 _ _ _ _ no_pair, if_pos ends]
      exact ih
  | case4 done begun c rest no_pair goes_on ih =>
      rw [linesAfter.eq_3 _ _ _ _ no_pair, if_neg goes_on]
      exact ih

theorem linesAfter_eq (done : List (List Char)) (begun cs : List Char) :
    linesAfter done begun cs = done.reverse ++ linesAfter [] begun cs :=
  linesAfter_append [] done begun cs

theorem linesAfter_pair (begun rest : List Char) :
    linesAfter [] begun ('\r' :: '\n' :: rest) = begun.reverse :: lines rest := by
  rw [linesAfter, linesAfter_eq]
  rfl

theorem linesAfter_end (begun : List Char) {c : Char} {rest : List Char}
    (ends : isLineEnd c = true) (no_pair : c = '\r' → rest.head? ≠ some '\n') :
    linesAfter [] begun (c :: rest) = begun.reverse :: lines rest := by
  have apart : ∀ rest' : List Char, c = '\r' → rest = '\n' :: rest' → False := by
    rintro rest' back rfl
    exact no_pair back rfl
  rw [linesAfter.eq_3 _ _ _ _ apart, if_pos ends, linesAfter_eq]
  rfl

theorem linesAfter_feed (begun rest : List Char) :
    linesAfter [] begun ('\n' :: rest) = begun.reverse :: lines rest :=
  linesAfter_end begun (by decide) fun same => absurd same (by decide)

theorem isLineEnd_return : isLineEnd '\r' = true := by decide

theorem linesAfter_other (begun : List Char) {c : Char} (rest : List Char)
    (goes_on : isLineEnd c = false) :
    linesAfter [] begun (c :: rest) = linesAfter [] (c :: begun) rest := by
  have apart : ∀ rest' : List Char, c = '\r' → rest = '\n' :: rest' → False := by
    rintro rest' rfl _
    rw [isLineEnd_return] at goes_on
    cases goes_on
  rw [linesAfter.eq_3 _ _ _ _ apart, if_neg (by simp [goes_on])]

/-- What holds of the cutting of a text, wherever a line has begun, follows from the four cases of
its beginning: there is none, it is the pair that ends a line, a character that does, or any
other. -/
theorem lines_induction {P : List Char → List Char → Prop} (nil : ∀ begun, P begun [])
    (pair : ∀ begun rest, P [] rest → P begun ('\r' :: '\n' :: rest))
    (ends : ∀ begun c rest, isLineEnd c = true → (c = '\r' → rest.head? ≠ some '\n') →
      P [] rest → P begun (c :: rest))
    (other : ∀ begun c rest, isLineEnd c = false → P (c :: begun) rest → P begun (c :: rest))
    (begun cs : List Char) : P begun cs := by
  refine linesAfter.induct (fun _ begun cs => P begun cs) (fun _ => nil)
    (fun _ begun rest ih => pair begun rest ih) ?_ ?_ [] begun cs
  · intro _ begun c rest no_pair line_end ih
    refine ends begun c rest line_end ?_ ih
    intro back head
    obtain ⟨rest', rfl⟩ : ∃ rest', rest = '\n' :: rest' := by
      cases rest with
      | nil => cases head
      | cons d rest' => exact ⟨rest', by rw [Option.some.inj head]⟩
    exact no_pair rest' back rfl
  · intro _ begun c rest _ goes_on ih
    exact other begun c rest (by simpa using goes_on) ih

/-! ## Lines of parts of a text -/

/-- The lines of a text are those up to a line feed and those behind it. -/
theorem lines_append_break (cs rest : List Char) :
    lines (cs ++ '\n' :: rest) = lines (cs ++ ['\n']) ++ lines rest := by
  -- The line that has begun is any, since it grows along the text.
  have after : ∀ begun cs : List Char, linesAfter [] begun (cs ++ '\n' :: rest) =
      linesAfter [] begun (cs ++ ['\n']) ++ lines rest := by
    refine lines_induction ?_ ?_ ?_ ?_
    · intro begun
      rw [List.nil_append, List.nil_append, linesAfter_feed, linesAfter_feed]
      rfl
    · intro begun cs ih
      show linesAfter [] begun ('\r' :: '\n' :: (cs ++ '\n' :: rest)) =
        linesAfter [] begun ('\r' :: '\n' :: (cs ++ ['\n'])) ++ lines rest
      rw [linesAfter_pair, linesAfter_pair, List.cons_append]
      exact congrArg _ ih
    · intro begun c cs ends no_pair ih
      rw [List.cons_append, List.cons_append]
      cases cs with
      | nil =>
          -- The character and the line feed may be the pair that ends a line.
          by_cases back : c = '\r'
          · subst back
            show linesAfter [] begun ('\r' :: '\n' :: rest) =
              linesAfter [] begun ('\r' :: '\n' :: []) ++ lines rest
            rw [linesAfter_pair, linesAfter_pair]
            rfl
          · rw [linesAfter_end begun ends fun same => absurd same back,
              linesAfter_end begun ends fun same => absurd same back, List.cons_append]
            exact congrArg _ ih
      | cons d cs =>
          have apart (more : List Char) : c = '\r' → (d :: cs ++ more).head? ≠ some '\n' := no_pair
          rw [linesAfter_end begun ends (apart _), linesAfter_end begun ends (apart _),
            List.cons_append]
          exact congrArg _ ih
    · intro begun c cs goes_on ih
      rw [List.cons_append, List.cons_append, linesAfter_other begun _ goes_on,
        linesAfter_other begun _ goes_on]
      exact ih
  exact after [] cs

/-- A line holds no characters but those of the text. -/
theorem mem_of_mem_lines {cs line : List Char} (there : line ∈ lines cs) {c : Char}
    (inside : c ∈ line) : c ∈ cs := by
  have after : ∀ begun cs line : List Char, line ∈ linesAfter [] begun cs → ∀ c ∈ line,
      c ∈ begun ∨ c ∈ cs := by
    intro begun cs
    refine lines_induction (P := fun begun cs => ∀ line ∈ linesAfter [] begun cs, ∀ c ∈ line,
      c ∈ begun ∨ c ∈ cs) ?_ ?_ ?_ ?_ begun cs
    · intro begun line there c inside
      unfold linesAfter at there
      split at there
      · cases there
      · rw [List.reverse_singleton, List.mem_singleton] at there
        subst there
        exact .inl (List.mem_reverse.mp inside)
    · intro begun rest ih line there c inside
      rw [linesAfter_pair] at there
      rcases List.mem_cons.mp there with rfl | behind
      · exact .inl (List.mem_reverse.mp inside)
      · rcases ih line behind c inside with none_begun | later
        · cases none_begun
        · exact .inr (List.mem_cons_of_mem _ (List.mem_cons_of_mem _ later))
    · intro begun d rest ends no_pair ih line there c inside
      rw [linesAfter_end begun ends no_pair] at there
      rcases List.mem_cons.mp there with rfl | behind
      · exact .inl (List.mem_reverse.mp inside)
      · rcases ih line behind c inside with none_begun | later
        · cases none_begun
        · exact .inr (List.mem_cons_of_mem _ later)
    · intro begun d rest goes_on ih line there c inside
      rw [linesAfter_other begun _ goes_on] at there
      rcases ih line there c inside with before | later
      · rcases List.mem_cons.mp before with rfl | before
        · exact .inr List.mem_cons_self
        · exact .inl before
      · exact .inr (List.mem_cons_of_mem _ later)
  rcases after [] cs line there c inside with none_begun | there
  · cases none_begun
  · exact there

theorem linesAfter_of_no_end {cs : List Char} (goes_on : ∀ c ∈ cs, isLineEnd c = false)
    (begun rest : List Char) :
    linesAfter [] begun (cs ++ rest) = linesAfter [] (cs.reverse ++ begun) rest := by
  induction cs generalizing begun with
  | nil => rfl
  | cons c cs ih =>
      rw [List.cons_append, linesAfter_other begun _ (goes_on c List.mem_cons_self),
        ih fun d there => goes_on d (List.mem_cons_of_mem _ there)]
      simp

/-- Characters none of which ends a line are one line up to a line feed. -/
theorem lines_of_no_end {cs : List Char} (goes_on : ∀ c ∈ cs, isLineEnd c = false) :
    lines (cs ++ ['\n']) = [cs] := by
  unfold lines
  rw [linesAfter_of_no_end goes_on, linesAfter_feed, List.append_nil, List.reverse_reverse]
  rfl

/-- Characters none of which ends a line change the first line alone that they stand in front of. -/
theorem tail_lines_append {xs ys : List Char} (goes_on : ∀ c ∈ xs, isLineEnd c = false)
    (some_char : ys ≠ []) : (lines (xs ++ ys)).tail = (lines ys).tail := by
  -- Past the first line nothing tells any more what it has begun with.
  have begun_alike : ∀ begun ys : List Char, ys ≠ [] → ∀ other : List Char,
      (linesAfter [] begun ys).tail = (linesAfter [] other ys).tail := by
    refine lines_induction ?_ ?_ ?_ ?_
    · intro begun none_there
      exact absurd rfl none_there
    · intro begun rest _ _ other
      rw [linesAfter_pair, linesAfter_pair]
      rfl
    · intro begun c rest ends no_pair _ _ other
      rw [linesAfter_end begun ends no_pair, linesAfter_end other ends no_pair]
      rfl
    · intro begun c rest goes_on ih _ other
      rw [linesAfter_other begun _ goes_on, linesAfter_other other _ goes_on]
      cases rest with
      | nil => rfl
      | cons d rest => exact ih (List.cons_ne_nil d rest) (c :: other)
  unfold lines
  rw [linesAfter_of_no_end goes_on]
  exact begun_alike _ ys some_char []

theorem lines_ne_nil {cs : List Char} (some_char : cs ≠ []) : lines cs ≠ [] := by
  have after : ∀ begun cs : List Char, begun ≠ [] ∨ cs ≠ [] → linesAfter [] begun cs ≠ [] := by
    refine lines_induction ?_ ?_ ?_ ?_
    · rintro begun (some_begun | none_there)
      · unfold linesAfter
        cases begun with
        | nil => exact absurd rfl some_begun
        | cons c begun => simp
      · exact absurd rfl none_there
    · intro begun rest _ _
      rw [linesAfter_pair]
      exact List.cons_ne_nil _ _
    · intro begun c rest ends no_pair _ _
      rw [linesAfter_end begun ends no_pair]
      exact List.cons_ne_nil _ _
    · intro begun c rest goes_on ih _
      rw [linesAfter_other begun _ goes_on]
      exact ih (.inl (List.cons_ne_nil c begun))
  exact after [] cs (.inr some_char)

end SheetCalc.Text
