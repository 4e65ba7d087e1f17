import SheetCalc.Sorting.Merge

/-!
# Sorting

`sortBy` splits a list into runs and merges neighbours until one is left. A run is merged with the
one behind it the sooner the deeper the boundary between them is in the tree that halving the whole
list makes, so that it is mostly runs of like length that are merged. Sorting neither loses nor adds
entries (`sortBy_perm`).
-/

namespace SheetCalc.Sorting

/-- The least length of the runs of a list: all of a short list, or else a number from 32 to 64 such
that the number of runs is a power of two or a little less. -/
def leastRun (total : Nat) : Nat :=
  let part := Nat.pow 2 (total.log2 - 5)
  (total + part - 1) / part

/-- How often the whole has to be halved, a number of times at most, for two points of it to be in
different parts. The points are given in units of half an entry. -/
def depthFrom (total : Nat) : Nat → Nat → Nat → Nat
  | 0, _, _ => 0
  | bound + 1, a, b =>
    if a / total == b / total then depthFrom total bound (2 * a) (2 * b) + 1 else 1

/-- How deep in the tree of halves the boundary of two runs is, which have `n` and `k` entries and
of which the first starts at a point: the whole is halved until their middles are in different
parts, for which as many times as there are entries are enough. -/
def depthOf (total start n k : Nat) : Nat :=
  let middle := 2 * start + n
  depthFrom total total middle (middle + n + k)

/-- A run that waits to be merged. -/
structure Waiting (α : Type) where
  run : List α
  /-- How deep the boundary to the run before it is, or zero if there is none. -/
  depth : Nat

section

variable {α : Type} (lt : α → α → Bool)

/-- Merges the last run with those before it to which the boundary is deeper than a bound. -/
def mergeDeeper (bound patience : Nat) (last : Waiting α) :
    List (Waiting α) → List (Waiting α) × Nat
  | [] => ([last], patience)
  | before :: others =>
    if bound < last.depth then
      let (run, patience) := mergeRuns lt patience before.run last.run
      mergeDeeper bound patience { before with run } others
    else (last :: before :: others, patience)

/-- Merges all runs, the last one first. -/
def mergeAll (patience : Nat) (last : List α) : List (Waiting α) → List α
  | [] => last
  | [before] => (mergeRuns lt patience before.run last).1
  | before :: third :: others =>
    if third.run.length < last.length then
      let (run, patience) := mergeRuns lt patience third.run before.run
      mergeAll patience last ({ third with run } :: others)
    else
      let (run, patience) := mergeRuns lt patience before.run last
      mergeAll patience run (third :: others)
termination_by runs => runs.length

/-- Sorts entries together with the runs before them, of which the last one starts at a point. Each
step makes one more run, so that it is enough to have as many steps as entries. -/
def sortFrom (total : Nat) : Nat → Nat → Nat → Waiting α → List (Waiting α) → List α → List α
  | 0, _, patience, last, runs, as => mergeAll lt patience last.run runs ++ as
  | steps + 1, start, patience, last, runs, as =>
    if as.isEmpty then mergeAll lt patience last.run runs
    else
      let (run, behind) := nextRun lt (leastRun total) as
      let depth := depthOf total start last.run.length run.length
      let next := start + last.run.length
      let (runs, patience) := mergeDeeper lt depth patience last runs
      sortFrom total steps next patience { run, depth } runs behind

/-- Entries in order. Entries of which neither is less stay in the order in which they are. -/
def sortBy (as : List α) : List α :=
  let (run, behind) := nextRun lt (leastRun as.length) as
  sortFrom lt as.length as.length 0 Merging.worthwhile { run, depth := 0 } [] behind

/-! ## Nothing is lost -/

/-- The entries of runs, of which the last one is in front. -/
def entriesOf : List (Waiting α) → List α
  | [] => []
  | last :: before => entriesOf before ++ last.run

theorem mergeDeeper_perm (bound patience : Nat) (last : Waiting α) (others : List (Waiting α)) :
    (entriesOf (mergeDeeper lt bound patience last others).1).Perm
      (entriesOf others ++ last.run) := by
  fun_induction mergeDeeper lt bound patience last others with
  | case1 => exact .refl _
  | case2 patience last before others _ run _ merged ih =>
    have whole := mergeRuns_perm lt patience before.run last.run
    rw [merged] at whole
    refine ih.trans ?_
    rw [entriesOf, List.append_assoc]
    exact whole.append_left _
  | case3 => exact .refl _

theorem mergeAll_perm (patience : Nat) (last : List α) (runs : List (Waiting α)) :
    (mergeAll lt patience last runs).Perm (entriesOf runs ++ last) := by
  fun_induction mergeAll lt patience last runs with
  | case1 => exact .refl _
  | case2 patience last before => exact mergeRuns_perm lt patience before.run last
  | case3 patience last before third others _ run _ merged ih =>
    have whole := mergeRuns_perm lt patience third.run before.run
    rw [merged] at whole
    refine ih.trans (List.Perm.append_right _ ?_)
    simp only [entriesOf, List.append_assoc]
    exact whole.append_left _
  | case4 patience last before third others _ run _ merged ih =>
    have whole := mergeRuns_perm lt patience before.run last
    rw [merged] at whole
    refine ih.trans ?_
    rw [entriesOf, entriesOf, List.append_assoc _ before.run last]
    exact whole.append_left _

theorem sortFrom_perm (total steps start patience : Nat) (last : Waiting α)
    (runs : List (Waiting α)) (as : List α) :
    (sortFrom lt total steps start patience last runs as).Perm
      (entriesOf runs ++ last.run ++ as) := by
  induction steps generalizing start patience last runs as with
  | zero => exact (mergeAll_perm lt patience last.run runs).append_right as
  | succ steps ih =>
    rw [sortFrom]
    split
    · next none =>
      rw [List.isEmpty_iff.1 none, List.append_nil]
      exact mergeAll_perm lt patience last.run runs
    · refine (ih _ _ _ _ _).trans ?_
      rw [List.append_assoc]
      exact (mergeDeeper_perm lt _ patience last runs).append (nextRun_perm lt _ as)

/-- Sorting neither loses nor adds entries. -/
theorem sortBy_perm (as : List α) : (sortBy lt as).Perm as :=
  (sortFrom_perm lt as.length as.length 0 Merging.worthwhile _ [] _).trans
    (nextRun_perm lt (leastRun as.length) as)

end

end SheetCalc.Sorting
