import SheetCalc.Proofs.Formula.Plan

/-!
# What an evaluation reads

An evaluation sees of the memory only what looking up the labels that it asks for leads to. So two
resolvers over different memories in which these labels go on leading to the same (`Agree`) bring it
to the same ending, by way of the same labels (`run_alike`). And it changes the memory only by
asking: what becomes of the memory is what asking for those labels makes of it (`memory_run`).
-/

namespace SheetCalc.Formula

/-- The labels that a formula refers to, in the order of its tokens. -/
def references (isLabel : Text → Bool) (tokens : List Text) : List Text :=
  tokens.filter fun t => (Token.number? t).isNone && isLabel t

theorem mem_references {isLabel : Text → Bool} {tokens : List Text} {t : Text} :
    t ∈ references isLabel tokens ↔ t ∈ tokens ∧ Token.classify isLabel t = .reference := by
  unfold references
  rw [List.mem_filter, Token.classify_eq_reference_iff, Bool.and_eq_true, Option.isNone_iff_eq_none]

section

variable {σ τ : Type}

/-- Some labels lead to the same with two resolvers on related memories, and the memories stay
related when one of these labels is asked for. -/
structure Agree (r : Resolver σ) (r' : Resolver τ) (labels : List Text) (R : σ → τ → Prop) :
    Prop where
  isLabel : r'.isLabel = r.isLabel
  found : ∀ label ∈ labels, ∀ m m', R m m' → (r'.lookUp label m').1 = (r.lookUp label m).1
  kept : ∀ label ∈ labels, ∀ m m', R m m' → R (r.find label m).2 (r'.find label m').2

/-- Two evaluations have come equally far, on related memories. -/
structure Alike (R : σ → τ → Prop) (p : Progress σ) (q : Progress τ) : Prop where
  held : q.held = p.held
  asked : q.asked = p.asked
  memory : R p.memory q.memory

variable {R : σ → τ → Prop} {p : Progress σ} {q : Progress τ}

theorem Alike.proceed (alike : Alike R p q) (after : Except Failure Stacks) :
    (q.proceed after).2 = (p.proceed after).2 ∧
      Alike R (p.proceed after).1 (q.proceed after).1 := by
  cases after with
  | ok held => exact ⟨rfl, ⟨rfl, alike.asked, alike.memory⟩⟩
  | error f => exact ⟨rfl, alike⟩

variable {r : Resolver σ} {r' : Resolver τ} {labels : List Text}

theorem refer_alike (agree : Agree r r' labels R) {label : Text} (there : label ∈ labels)
    (alike : Alike R p q) :
    (refer r' label q).2 = (refer r label p).2 ∧
      Alike R (refer r label p).1 (refer r' label q).1 := by
  have found := agree.found label there p.memory q.memory alike.memory
  have kept := agree.kept label there p.memory q.memory alike.memory
  rw [← r.lookUp_memory, ← r'.lookUp_memory] at kept
  rw [refer_eq, refer_eq, alike.held, alike.asked]
  -- From here on only the operands count, which are equal, and the related memories behind them.
  generalize r.lookUp label p.memory = left at found kept
  generalize r'.lookUp label q.memory = right at found kept
  obtain ⟨operand, m⟩ := left
  obtain ⟨_, m'⟩ := right
  cases found
  cases operand with
  | error ending => exact ⟨rfl, ⟨rfl, rfl, kept⟩⟩
  | ok x => exact ⟨rfl, ⟨rfl, rfl, kept⟩⟩

theorem step_alike (agree : Agree r r' labels R) {t : Text} (next? : Option Text)
    (there : Token.classify r.isLabel t = .reference → t ∈ labels) (alike : Alike R p q) :
    (step r' t next? q).2 = (step r t next? p).2 ∧
      Alike R (step r t next? p).1 (step r' t next? q).1 := by
  unfold step
  rw [agree.isLabel, alike.held]
  cases hk : Token.classify r.isLabel t with
  | number x => exact ⟨rfl, ⟨rfl, alike.asked, alike.memory⟩⟩
  | reference => exact refer_alike agree (there hk) alike
  | openParen => exact ⟨rfl, ⟨rfl, alike.asked, alike.memory⟩⟩
  | closeParen => exact alike.proceed _
  | operator o =>
      simp only
      split
      · exact ⟨rfl, alike⟩
      · exact alike.proceed _
  | unknown => exact ⟨rfl, alike⟩

/-- A token asks for itself if it is a reference, and for nothing else. -/
theorem asked_step (r : Resolver σ) (t : Text) (next? : Option Text) (p : Progress σ) :
    (step r t next? p).1.asked = references r.isLabel [t] ++ p.asked := by
  have proceeds (after : Except Failure Stacks) : (p.proceed after).1.asked = p.asked := by
    cases after <;> rfl
  have none_asked (other : Token.classify r.isLabel t ≠ .reference) :
      references r.isLabel [t] = [] := by
    rw [List.eq_nil_iff_forall_not_mem]
    intro label asked
    obtain ⟨same, referring⟩ := mem_references.mp asked
    exact other (List.mem_singleton.mp same ▸ referring)
  unfold step
  cases hk : Token.classify r.isLabel t with
  | reference =>
      have itself : references r.isLabel [t] = [t] := by
        obtain ⟨no_number, label⟩ := Token.classify_eq_reference_iff.mp hk
        simp [references, no_number, label]
      rw [itself]
      simp only [refer_eq]
      rcases r.lookUp t p.memory with ⟨ending | x, memory⟩ <;> rfl
  | closeParen =>
      rw [none_asked (by rw [hk]; nofun)]
      exact proceeds _
  | operator o =>
      rw [none_asked (by rw [hk]; nofun)]
      simp only
      split
      · rfl
      · exact proceeds _
  | _ =>
      rw [none_asked (by rw [hk]; nofun)]
      rfl

/-- A pass asks only for labels that its tokens refer to. -/
theorem asked_scan (r : Resolver σ) (ts : List Text) (p : Progress σ) :
    ∃ more, (scan r ts p).1.asked = more ++ p.asked ∧
      ∀ label ∈ more, label ∈ references r.isLabel ts := by
  induction ts generalizing p with
  | nil => exact ⟨[], rfl, fun _ none_there => nomatch none_there⟩
  | cons t ts ih =>
      have first := asked_step r t ts.head? p
      have split_off : references r.isLabel (t :: ts) =
          references r.isLabel [t] ++ references r.isLabel ts :=
        List.filter_append [t] ts
      unfold scan
      rw [split_off]
      rcases hs : step r t ts.head? p with ⟨p', _ | ending⟩
      · rw [hs] at first
        obtain ⟨more, asked, there⟩ := ih p'
        refine ⟨more ++ references r.isLabel [t], ?_, ?_⟩
        · rw [List.append_assoc, ← first]
          exact asked
        · intro label among
          rcases List.mem_append.mp among with later | now
          · exact List.mem_append_right _ (there label later)
          · exact List.mem_append_left _ now
      · rw [hs] at first
        exact ⟨_, first, fun _ now => List.mem_append_left _ now⟩

theorem scan_alike (agree : Agree r r' labels R) {ts : List Text}
    (within : ∀ label ∈ (scan r ts p).1.asked, label ∈ labels) (alike : Alike R p q) :
    (scan r' ts q).2 = (scan r ts p).2 ∧ Alike R (scan r ts p).1 (scan r' ts q).1 := by
  induction ts generalizing p q with
  | nil => exact ⟨rfl, alike⟩
  | cons t ts ih =>
      have first := asked_step r t ts.head? p
      unfold scan at within ⊢
      -- What the first token asks for is among what has been asked for in the end.
      have there : Token.classify r.isLabel t = .reference → t ∈ labels := by
        intro referring
        have now : t ∈ (step r t ts.head? p).1.asked := by
          rw [first]
          exact List.mem_append_left _ (mem_references.mpr ⟨List.mem_cons_self, referring⟩)
        rcases hs : step r t ts.head? p with ⟨p', _ | ending⟩
        · rw [hs] at now within
          obtain ⟨more, asked, _⟩ := asked_scan r ts p'
          refine within t ?_
          rw [asked]
          exact List.mem_append_right _ now
        · rw [hs] at now within
          exact within t now
      obtain ⟨same, after⟩ := step_alike agree ts.head? there alike
      generalize step r t ts.head? p = left at same after within
      generalize step r' t ts.head? q = right at same after
      obtain ⟨p', ended⟩ := left
      obtain ⟨q', _⟩ := right
      cases same
      cases ended with
      | some ending => exact ⟨rfl, after⟩
      | none => exact ih within after

theorem asked_run_eq (r : Resolver σ) {tokens : List Text} (some_token : tokens ≠ [])
    (no_pair : tokens ≠ [openSign, closeSign]) (memory : σ) :
    (run r tokens memory).2.1 = (scan r tokens { memory }).1.asked.reverse := by
  rw [run_eq_scan r memory some_token no_pair]
  rcases scan r tokens { memory } with ⟨p, _ | ending⟩ <;> rfl

/-- An evaluation asks only for labels that its formula refers to. -/
theorem mem_references_of_asked {tokens : List Text} {memory : σ} {label : Text}
    (asked : label ∈ (run r tokens memory).2.1) : label ∈ references r.isLabel tokens := by
  rcases vacant_or_scan r tokens memory with ⟨error, vacant⟩ | ⟨some_token, no_pair⟩
  · rw [vacant] at asked
    cases asked
  rw [asked_run_eq r some_token no_pair, List.mem_reverse] at asked
  obtain ⟨more, more_asked, there⟩ := asked_scan r tokens { memory }
  rw [more_asked, List.append_nil] at asked
  exact there label asked

/-- **What an evaluation comes to depends only on what the labels that it asks for lead to.** -/
theorem run_alike {tokens : List Text} (agree : Agree r r' labels R) {m : σ} {m' : τ}
    (within : ∀ label ∈ (run r tokens m).2.1, label ∈ labels) (related : R m m') :
    (run r' tokens m').1 = (run r tokens m).1 ∧
      (run r' tokens m').2.1 = (run r tokens m).2.1 ∧
      R (run r tokens m).2.2 (run r' tokens m').2.2 := by
  by_cases some_token : tokens = []
  · simp only [run, if_pos some_token]
    exact ⟨trivial, trivial, related⟩
  by_cases no_pair : tokens = [openSign, closeSign]
  · simp only [run, if_neg some_token, if_pos no_pair]
    exact ⟨trivial, trivial, related⟩
  have through : ∀ label ∈ (scan r tokens { memory := m }).1.asked, label ∈ labels := by
    intro label asked
    refine within label ?_
    rw [asked_run_eq r some_token no_pair]
    exact List.mem_reverse.mpr asked
  have start : Alike R { memory := m } { memory := m' } := ⟨rfl, rfl, related⟩
  obtain ⟨same, after⟩ := scan_alike agree through start
  unfold run
  rw [if_neg some_token, if_neg no_pair, if_neg some_token, if_neg no_pair]
  generalize scan r tokens { memory := m } = left at same after
  generalize scan r' tokens { memory := m' } = right at same after
  obtain ⟨p, ended⟩ := left
  obtain ⟨q, _⟩ := right
  cases same
  obtain ⟨held, asked, memory⟩ := after
  simp only at held asked
  cases ended with
  | some ending =>
      simp only [asked]
      exact ⟨trivial, trivial, memory⟩
  | none =>
      simp only [held, asked]
      exact ⟨trivial, trivial, memory⟩

/-! ## What becomes of the memory -/

/-- The memory after some labels have been asked for, one after the other. -/
def Resolver.askAll (r : Resolver σ) (labels : List Text) (memory : σ) : σ :=
  labels.foldl (fun memory label => (r.find label memory).2) memory

theorem Resolver.askAll_concat (r : Resolver σ) (labels : List Text) (label : Text) (memory : σ) :
    r.askAll (labels ++ [label]) memory = (r.find label (r.askAll labels memory)).2 := by
  unfold askAll
  rw [List.foldl_append]
  rfl

/-- The memory of an evaluation is what its asking has made of the one that it began with. -/
def Traced (r : Resolver σ) (memory : σ) (p : Progress σ) : Prop :=
  p.memory = r.askAll p.asked.reverse memory

theorem Traced.proceed {memory : σ} (traced : Traced r memory p) (after : Except Failure Stacks) :
    Traced r memory (p.proceed after).1 := by
  cases after <;> exact traced

theorem traced_refer {memory : σ} (label : Text) (traced : Traced r memory p) :
    Traced r memory (refer r label p).1 := by
  have asked : (r.lookUp label p.memory).2 = r.askAll (label :: p.asked).reverse memory := by
    rw [r.lookUp_memory, List.reverse_cons, r.askAll_concat, ← traced]
  rw [refer_eq]
  generalize r.lookUp label p.memory = found at asked
  obtain ⟨ending | x, after⟩ := found <;> exact asked

theorem traced_scan {memory : σ} (ts : List Text) (traced : Traced r memory p) :
    Traced r memory (scan r ts p).1 := by
  induction ts generalizing p with
  | nil => exact traced
  | cons t ts ih =>
      have first : Traced r memory (step r t ts.head? p).1 := by
        unfold step
        -- Only a reference asks for anything.
        cases Token.classify r.isLabel t with
        | reference => exact traced_refer t traced
        | closeParen => exact traced.proceed _
        | operator o =>
            simp only
            split
            · exact traced
            · exact traced.proceed _
        | _ => exact traced
      unfold scan
      rcases hs : step r t ts.head? p with ⟨p', _ | ending⟩
      · rw [hs] at first
        exact ih first
      · rw [hs] at first
        exact first

/-- An evaluation changes the memory only by asking for labels. -/
theorem memory_run (r : Resolver σ) (tokens : List Text) (memory : σ) :
    (run r tokens memory).2.2 = r.askAll (run r tokens memory).2.1 memory := by
  unfold run
  split
  · rfl
  · split
    · rfl
    · have traced : Traced r memory (scan r tokens { memory }).1 :=
        traced_scan tokens (show Traced r memory { memory } from rfl)
      rcases hs : scan r tokens { memory } with ⟨p, _ | ending⟩
      · rw [hs] at traced
        exact traced
      · rw [hs] at traced
        exact traced

end

end SheetCalc.Formula
