import SheetCalc.Sorting.Run

/-!
# Merging two runs

Two runs that follow each other become one. The entries that are in place already stay where they
are, and the others are placed one by one from the side on which the shorter run is. When one of the
runs has placed so many entries in a row that it seems to go on like this, the runs are looked
through in strides, until that does not pay any more. How many entries in a row it takes is learnt
from how it went. Nothing is lost on the way (`mergeRuns_perm`).
-/

namespace SheetCalc.Sorting

/-! ## Strides -/

section

variable {α : Type}

/-- Two bounds for the number of entries at the front for which a test holds, by strides that
double: it holds at the first one and not at the second, if that is not the end. -/
def stride (holds : α → Bool) (as : List α) (last next : Nat) : Nat × Nat :=
  match h : as[next]? with
  | none => (last, as.length)
  | some a =>
    have := (List.getElem?_eq_some_iff.1 h).1
    if holds a then stride holds as next (2 * next + 1) else (last, next)
termination_by as.length - next

/-- The number of entries at the front for which a test holds, if it holds for no entry behind one
for which it does not. The list holds the entries as they are seen from a side. -/
def leading (side : Side) (holds : α → Bool) (as : List α) : Nat :=
  if as.head?.any holds then
    let (last, next) := stride holds as 0 1
    bisect side holds as (last + 1) next
  else 0

end

/-! ## A merge on its way -/

/-- Two runs that are being merged, as they are seen from a side. -/
structure Merging (α : Type) where
  /-- What is left of the run in front. -/
  first : List α
  /-- What is left of the run behind it. -/
  second : List α
  /-- The entries that are placed, the last one in front. -/
  placed : List α := []
  /-- Whether the last entry came from the run in front. -/
  fromFirst : Bool := false
  /-- The number of entries that were placed from the same run in a row. -/
  streak : Nat := 0
  /-- The number of entries in a row from which on the runs are looked through in strides. -/
  patience : Nat

namespace Merging

variable {α : Type}

/-- Places a number of entries of the run in front. -/
def takeFirst (m : Merging α) (n : Nat) : Merging α :=
  { m with first := m.first.drop n, placed := (m.first.take n).reverse ++ m.placed }

/-- Places a number of entries of the run behind. -/
def takeSecond (m : Merging α) (n : Nat) : Merging α :=
  { m with second := m.second.drop n, placed := (m.second.take n).reverse ++ m.placed }

/-- Whether the places of all entries are known: no entry is left of the run on the other side, or
there is at most one of the run on this side, which is the last of all to be placed. -/
def isOver (side : Side) (m : Merging α) : Bool :=
  match side with
  | .front => m.first.tail.isEmpty || m.second.isEmpty
  | .back => m.second.tail.isEmpty || m.first.isEmpty

/-- The entries in their order when their places are known. -/
def entries (side : Side) (m : Merging α) : List α :=
  match side with
  | .front => m.placed.reverse ++ m.second ++ m.first
  | .back => m.second.reverse ++ m.first.reverse ++ m.placed

section

variable (lt : α → α → Bool)

/-- Whether of two entries the one of the run in front is placed before the other. Of entries of
which neither is less the one of the run in front stays in front. -/
def precedes (side : Side) (a b : α) : Bool :=
  match side with
  | .front => !lt b a
  | .back => lt b a

/-- Places one entry. -/
def place (side : Side) (m : Merging α) : Merging α :=
  match m.first, m.second with
  | a :: _, b :: _ =>
    let fromFirst := precedes lt side a b
    let streak := if fromFirst == m.fromFirst then m.streak + 1 else 1
    let m := if fromFirst then m.takeFirst 1 else m.takeSecond 1
    { m with fromFirst, streak }
  | _, _ => m

/-- Strides pay if one of them places as many entries as this. -/
def worthwhile : Nat := 7

/-- Goes on in strides, and sooner the next time, if one of two strides has paid by the number of
entries that it placed; or else goes back to single entries. -/
def judge (m : Merging α) (n k : Nat) : Merging α :=
  if worthwhile ≤ n || worthwhile ≤ k then { m with patience := max 1 (m.patience - 1) }
  else { m with streak := 0, patience := m.patience + 1 }

/-- Goes on with a merge, unless it is over. -/
def unlessOver (side : Side) (m : Merging α) (next : Merging α → Merging α) : Merging α :=
  if m.isOver side then m else next m

/-- Places the entries of the run in front that come before the next one of the run behind, then
that one, and the same with the runs exchanged. -/
def placeStrides (side : Side) (m : Merging α) : Merging α :=
  let n := leading side (fun a => m.second.head?.any (precedes lt side a)) m.first
  (m.takeFirst n).unlessOver side fun m =>
    (m.takeSecond 1).unlessOver side fun m =>
      let k := leading side (fun b => !m.first.head?.any (precedes lt side · b)) m.second
      (m.takeSecond k).unlessOver side fun m =>
        (m.takeFirst 1).unlessOver side fun m => m.judge n k

/-- Places entries until the places of all are known, in a number of steps at most. Since each step
places an entry, it is enough to have as many of them as entries. -/
def run (side : Side) : Nat → Merging α → Merging α
  | 0, m => m
  | steps + 1, m =>
    if m.isOver side then m
    else if m.patience ≤ m.streak then run side steps (m.placeStrides lt side)
    else run side steps (m.place lt side)

/-! ## Nothing is lost -/

/-- The entries that are left and those that are placed, in any order. -/
def all (m : Merging α) : List α :=
  m.first ++ m.second ++ m.placed

theorem all_takeFirst (m : Merging α) (n : Nat) : (m.takeFirst n).all.Perm m.all := by
  have turned := (m.first.take n).reverse_perm
  have split : (m.first.drop n ++ m.first.take n).Perm m.first :=
    List.perm_append_comm.trans (.of_eq (List.take_append_drop n m.first))
  simp only [all, takeFirst, List.append_assoc]
  refine (((turned.append_right m.placed).append_left m.second).append_left _).trans ?_
  refine (List.Perm.append_left _ (List.perm_append_comm_assoc _ _ _)).trans ?_
  rw [← List.append_assoc]
  exact split.append_right _

theorem all_takeSecond (m : Merging α) (n : Nat) : (m.takeSecond n).all.Perm m.all := by
  have turned := (m.second.take n).reverse_perm
  have split : (m.second.drop n ++ m.second.take n).Perm m.second :=
    List.perm_append_comm.trans (.of_eq (List.take_append_drop n m.second))
  simp only [all, takeSecond, List.append_assoc]
  refine List.Perm.append_left _ (((turned.append_right m.placed).append_left _).trans ?_)
  rw [← List.append_assoc]
  exact split.append_right _

theorem all_place (side : Side) (m : Merging α) : (m.place lt side).all.Perm m.all := by
  rw [place]
  split
  · next a _ b _ _ _ =>
    cases precedes lt side a b with
    | true => exact m.all_takeFirst 1
    | false => exact m.all_takeSecond 1
  · exact .refl _

theorem all_judge (m : Merging α) (n k : Nat) : (m.judge n k).all = m.all := by
  rw [judge]
  split <;> rfl

theorem all_unlessOver (side : Side) (m : Merging α) {next : Merging α → Merging α}
    (kept : ∀ m, (next m).all.Perm m.all) : (m.unlessOver side next).all.Perm m.all := by
  rw [unlessOver]
  split
  · exact .refl _
  · exact kept m

theorem all_placeStrides (side : Side) (m : Merging α) :
    (m.placeStrides lt side).all.Perm m.all := by
  refine (all_unlessOver side _ fun m => ?_).trans (m.all_takeFirst _)
  refine (all_unlessOver side _ fun m => ?_).trans (m.all_takeSecond _)
  refine (all_unlessOver side _ fun m => ?_).trans (m.all_takeSecond _)
  refine (all_unlessOver side _ fun m => ?_).trans (m.all_takeFirst _)
  exact .of_eq (m.all_judge _ _)

theorem all_run (side : Side) (steps : Nat) (m : Merging α) :
    (m.run lt side steps).all.Perm m.all := by
  induction steps generalizing m with
  | zero => exact .refl _
  | succ steps ih =>
    rw [run]
    split
    · exact .refl _
    · split
      · exact (ih _).trans (m.all_placeStrides lt side)
      · exact (ih _).trans (m.all_place lt side)

theorem entries_perm (side : Side) (m : Merging α) : (m.entries side).Perm m.all := by
  cases side with
  | front =>
    simp only [entries, all]
    refine List.perm_append_comm.trans ?_
    rw [List.append_assoc]
    refine List.Perm.append_left _ (List.perm_append_comm.trans ?_)
    exact List.Perm.append_left _ m.placed.reverse_perm
  | back =>
    simp only [entries, all]
    refine List.Perm.append_right _ (List.perm_append_comm.trans ?_)
    exact m.first.reverse_perm.append m.second.reverse_perm

end

end Merging

/-! ## Two runs -/

section

variable {α : Type} (lt : α → α → Bool)

/-- Merges two runs of which neither end is in place, and what was learnt of how many entries in a
row it takes to go on in strides. -/
def interleave (patience : Nat) (first second : List α) : List α × Nat :=
  let steps := first.length + second.length
  if first.length ≤ second.length then
    let m : Merging α := { first, second, patience }
    let m := (m.takeSecond 1).run lt .front steps
    (m.entries .front, m.patience)
  else
    let m : Merging α := { first := first.reverse, second := second.reverse, patience }
    let m := (m.takeFirst 1).run lt .back steps
    (m.entries .back, m.patience)

/-- Merges a run with the one behind it. The entries of the first run that come before all of the
second stay in front, and those of the second that come behind all of the first stay at the end. -/
def mergeRuns (patience : Nat) (first second : List α) : List α × Nat :=
  let n := leading .front (fun a => !second.head?.any (lt · a)) first
  let (before, first) := first.splitAt n
  let k := leading .back (fun b => !first.getLast?.any (lt b)) second.reverse
  let (second, behind) := second.splitAt (second.length - k)
  if first.isEmpty || second.isEmpty then (before ++ first ++ (second ++ behind), patience)
  else
    let (merged, patience) := interleave lt patience first second
    (before ++ merged ++ behind, patience)

theorem interleave_perm (patience : Nat) (first second : List α) :
    (interleave lt patience first second).1.Perm (first ++ second) := by
  have placed (side : Side) (m : Merging α) (steps : Nat) :
      ((m.run lt side steps).entries side).Perm m.all :=
    (Merging.entries_perm side _).trans (m.all_run lt side steps)
  rw [interleave]
  split
  · refine (placed .front _ _).trans ((Merging.all_takeSecond _ 1).trans ?_)
    simp [Merging.all]
  · refine (placed .back _ _).trans ((Merging.all_takeFirst _ 1).trans ?_)
    simp only [Merging.all, List.append_nil]
    exact first.reverse_perm.append second.reverse_perm

/-- Merging neither loses nor adds entries. -/
theorem mergeRuns_perm (patience : Nat) (first second : List α) :
    (mergeRuns lt patience first second).1.Perm (first ++ second) := by
  have parts (n k : Nat) : first.take n ++ first.drop n ++ (second.take k ++ second.drop k) =
      first ++ second := by
    rw [List.take_append_drop, List.take_append_drop]
  simp only [mergeRuns, List.splitAt_eq]
  generalize leading .front _ first = n
  generalize second.length - _ = k
  rw [← parts n k]
  split
  · exact .refl _
  · have inner := interleave_perm lt patience (first.drop n) (second.take k)
    have whole := (inner.append_left (first.take n)).append_right (second.drop k)
    simpa only [List.append_assoc] using whole

end

end SheetCalc.Sorting
