import SheetCalc.Sorting
import SheetCalc.Value

/-!
# The order of keys

Texts are in the order of their code points and numbers of all kinds in that of their values;
between a text and a number there is no order. `Key.sorted?` sorts entries by their keys if they can
be compared. What is not a number is neither less nor more than any number, so that the order of
numbers is not consistent if it is among them, and where it ends up is up to the way of sorting.
-/

namespace SheetCalc.Key

/-- A finite number as a fraction with a positive denominator. -/
def fraction? : Key → Option (Int × Nat)
  | .bool b => some (if b then 1 else 0, 1)
  | .int n => some (n, 1)
  | .float x =>
    match Decimal.magnitude x with
    | .finite m q =>
      let n : Int := if Decimal.isNegative x then -(m : Int) else m
      some (if 0 ≤ q then (n * Nat.pow 2 q.toNat, 1) else (n, Nat.pow 2 (-q).toNat))
    | _ => none
  | _ => none

/-- Whether a key is the float below or above all numbers. -/
def isInfinite (negative : Bool) : Key → Bool
  | .float x => !x.isNaN && !x.isFinite && Decimal.isNegative x == negative
  | _ => false

/-- Whether a number is less than another. What is not a number is less than none. -/
def numberLt (a b : Key) : Bool :=
  match a.fraction?, b.fraction? with
  | some (m, d), some (n, e) => m * e < n * d
  | some _, none => b.isInfinite false
  | none, some _ => a.isInfinite true
  | none, none => a.isInfinite true && b.isInfinite false

/-- Whether a key is less than another; none if there is no order between them. -/
def lt? : Key → Key → Option Bool
  | .text s, .text t => some (!t.le s)
  | .text _, _ | _, .text _ | .null, _ | _, .null => none
  | a, b => some (numberLt a b)

/-- Entries in the order of their keys, if each two of them can be compared, which is so if each of
them can be compared with the first one. -/
def sorted? {α : Type} (es : List (Key × α)) : Option (List (Key × α)) :=
  match es with
  | first :: others =>
    if others.all fun e => (lt? first.1 e.1).isSome then
      some (Sorting.sortBy (fun a b => (lt? a.1 b.1).getD false) es)
    else none
  | [] => some []

/-! ## Keys between which there is an order -/

/-- Two keys can be compared. -/
def Comparable (a b : Key) : Prop :=
  (lt? a b).isSome = true

theorem comparable_text (s t : Text) : Comparable (.text s) (.text t) := rfl

theorem Comparable.symm {a b : Key} (ab : Comparable a b) : Comparable b a := by
  cases a <;> cases b <;> first | rfl | cases ab

theorem Comparable.trans {a b c : Key} (ab : Comparable a b) (bc : Comparable b c) :
    Comparable a c := by
  cases a <;> cases b <;> cases c <;> first | rfl | (cases ab; done) | cases bc

/-- Entries are sorted if each two of their keys can be compared. -/
theorem isSome_sorted? {α : Type} (es : List (Key × α)) :
    (sorted? es).isSome = true ↔ (es.map Prod.fst).Pairwise Comparable := by
  cases es with
  | nil => simp [sorted?]
  | cons first others =>
    have whole : (sorted? (first :: others)).isSome = true ↔
        ∀ e ∈ others, Comparable first.1 e.1 := by
      rw [sorted?]
      split
      · next all => exact iff_of_true rfl (List.all_eq_true.mp all)
      · next some_not => exact iff_of_false nofun fun all => some_not (List.all_eq_true.mpr all)
    rw [whole, List.map_cons, List.pairwise_cons, List.forall_mem_map, List.pairwise_map]
    refine ⟨fun all => ⟨all, ?_⟩, And.left⟩
    refine (List.pairwise_of_forall fun _ _ => trivial).imp_of_mem fun ha hb _ => ?_
    exact (all _ ha).symm.trans (all _ hb)

end SheetCalc.Key
