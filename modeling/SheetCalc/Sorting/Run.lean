/-!
# Runs

A run is a stretch of entries that are in order. `nextRun` takes one off the front of a list:
entries that get less and less are turned around, and a run that is short takes in the entries
behind it, each of which is inserted where halving leads to. Nothing is lost on the way
(`nextRun_perm`).

The order need not be consistent. Where an entry ends up then depends on the entries with which it
is compared, so that a search is more than its result: it also says which entries are looked at.
-/

namespace SheetCalc.Sorting

/-- The side from which a stretch of entries is looked at. -/
inductive Side where
  | front
  | back

/-- The entry in the middle between two bounds, which count from a side. If there are two, it is the
one that is farther from the front. -/
def Side.middle : Side → Nat → Nat → Nat
  | .front, low, high => (low + high) / 2
  | .back, low, high => (low + high - 1) / 2

theorem Side.middle_lt (side : Side) {low high : Nat} (h : low < high) :
    side.middle low high < high := by
  cases side <;> simp only [middle] <;> omega

theorem Side.le_middle (side : Side) {low high : Nat} (h : low < high) :
    low ≤ side.middle low high := by
  cases side <;> simp only [middle] <;> omega

section

variable {α : Type}

/-- The number of entries, between two bounds, behind which a test no longer holds, by halving. -/
def bisect (side : Side) (holds : α → Bool) (as : List α) (low high : Nat) : Nat :=
  if h : low < high then
    have := side.middle_lt h
    have := side.le_middle h
    let middle := side.middle low high
    if (as[middle]?).any holds then bisect side holds as (middle + 1) high
    else bisect side holds as low middle
  else low
termination_by high - low

variable (lt : α → α → Bool)

/-! ## Stretches in order -/

/-- The entries at the front that go on in order behind a given one, and the others. -/
def runFrom (last : α) : List α → List α × List α
  | [] => ([], [])
  | a :: rest =>
    if lt a last then ([], a :: rest)
    else
      let (run, behind) := runFrom a rest
      (a :: run, behind)

/-- The entries at the front that get less and less behind a given one, and the others. -/
def fallFrom (last : α) : List α → List α × List α
  | [] => ([], [])
  | a :: rest =>
    if lt a last then
      let (run, behind) := fallFrom a rest
      (a :: run, behind)
    else ([], a :: rest)

/-- The entries at the front that are in order, or become so when they are turned around, and the
others. -/
def firstRun : List α → List α × List α
  | a :: b :: rest =>
    if lt b a then
      let (run, behind) := fallFrom lt b rest
      ((a :: b :: run).reverse, behind)
    else
      let (run, behind) := runFrom lt b rest
      (a :: b :: run, behind)
  | short => (short, [])

/-- Puts an entry into its place in a run, behind those that are not greater. -/
def insertSorted (run : List α) (a : α) : List α :=
  let n := bisect .front (fun b => !lt a b) run 0 run.length
  run.take n ++ a :: run.drop n

/-- A run of the entries at the front, of a number at least if there are so many, and the others. -/
def nextRun (least : Nat) (as : List α) : List α × List α :=
  let (run, behind) := firstRun lt as
  let missing := least - run.length
  ((behind.take missing).foldl (insertSorted lt) run, behind.drop missing)

/-! ## Nothing is lost -/

theorem runFrom_append (last : α) (as : List α) :
    (runFrom lt last as).1 ++ (runFrom lt last as).2 = as := by
  induction as generalizing last with
  | nil => rfl
  | cons a rest ih =>
    rw [runFrom]
    split
    · rfl
    · simp [ih a]

theorem fallFrom_append (last : α) (as : List α) :
    (fallFrom lt last as).1 ++ (fallFrom lt last as).2 = as := by
  induction as generalizing last with
  | nil => rfl
  | cons a rest ih =>
    rw [fallFrom]
    split
    · simp [ih a]
    · rfl

theorem firstRun_perm (as : List α) : ((firstRun lt as).1 ++ (firstRun lt as).2).Perm as := by
  match as with
  | [] => exact .refl _
  | [a] => exact .refl _
  | a :: b :: rest =>
    rw [firstRun]
    split
    · have whole := fallFrom_append lt b rest
      have turned := (a :: b :: (fallFrom lt b rest).1).reverse_perm
      refine (turned.append_right _).trans ?_
      simp [whole]
    · have whole := runFrom_append lt b rest
      simp [whole]

theorem insertSorted_perm (run : List α) (a : α) :
    (insertSorted lt run a).Perm (run ++ [a]) := by
  have moved : (insertSorted lt run a).Perm (a :: run) := by
    rw [insertSorted]
    refine List.perm_middle.trans ?_
    rw [List.take_append_drop]
  exact moved.trans (List.perm_append_singleton a run).symm

theorem foldl_insertSorted_perm (run as : List α) :
    (as.foldl (insertSorted lt) run).Perm (run ++ as) := by
  induction as generalizing run with
  | nil => simp
  | cons a as ih =>
    have step := (insertSorted_perm lt run a).append_right as
    refine (ih (insertSorted lt run a)).trans (step.trans ?_)
    simp

/-- A run and the entries behind it are the entries of which it is made. -/
theorem nextRun_perm (least : Nat) (as : List α) :
    ((nextRun lt least as).1 ++ (nextRun lt least as).2).Perm as := by
  rw [nextRun]
  refine ((foldl_insertSorted_perm lt _ _).append_right _).trans ?_
  rw [List.append_assoc, List.take_append_drop]
  exact firstRun_perm lt as

end

end SheetCalc.Sorting
