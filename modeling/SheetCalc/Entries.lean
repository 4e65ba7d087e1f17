/-!
# Mappings in the order of entry

A mapping is a list of entries. `put` gives a key a value: a key that is there keeps its place, a
new one goes to the end. `get?_put_self` and `get?_put_of_ne` are the laws of a store, and
`keys_put` says which keys there are afterwards and in which order.
-/

namespace SheetCalc

/-- A list of keys with their values, in the order in which the keys were first put. -/
abbrev Entries (κ α : Type) := List (κ × α)

namespace Entries

variable {κ α : Type}

/-- The keys in their order. -/
def keys (es : Entries κ α) : List κ :=
  es.map (·.1)

section

variable [BEq κ]

/-- The value of a key. -/
def get? (k : κ) : Entries κ α → Option α
  | [] => none
  | (k', a) :: es => if k' == k then some a else get? k es

/-- Whether a key has a value. -/
def has (k : κ) (es : Entries κ α) : Bool :=
  (es.get? k).isSome

/-- Gives a key a value. -/
def put (k : κ) (a : α) : Entries κ α → Entries κ α
  | [] => [(k, a)]
  | (k', a') :: es => if k' == k then (k', a) :: es else (k', a') :: put k a es

/-- Puts all entries of one mapping into another, one after the other. -/
def update (es more : Entries κ α) : Entries κ α :=
  more.foldl (fun es e => es.put e.1 e.2) es

/-- The mapping that a row of entries makes when they are put one after the other. -/
def ofList (es : List (κ × α)) : Entries κ α :=
  update [] es

end

/-! ## The laws of a store -/

section

variable [BEq κ] [LawfulBEq κ]

theorem get?_put_self (k : κ) (a : α) (es : Entries κ α) : (es.put k a).get? k = some a := by
  induction es with
  | nil => simp [put, get?]
  | cons e es ih =>
    obtain ⟨k', a'⟩ := e
    by_cases h : (k' == k) = true <;> simp_all [put, get?]

theorem get?_put_of_ne {k l : κ} (h : l ≠ k) (a : α) (es : Entries κ α) :
    (es.put k a).get? l = es.get? l := by
  induction es with
  | nil => simp [put, get?, Ne.symm h]
  | cons e es ih =>
    obtain ⟨k', a'⟩ := e
    by_cases hk : (k' == k) = true
    · have hl : (k' == l) = false := by simp_all [Ne.symm h]
      simp [put, get?, hk, hl]
    · simp only [Bool.not_eq_true] at hk
      simp [put, get?, hk, ih]

/-- A key that has no value comes in at the end; putting leaves the order of the others alone. -/
theorem keys_put (k : κ) (a : α) (es : Entries κ α) :
    (es.put k a).keys = if es.has k then es.keys else es.keys ++ [k] := by
  induction es with
  | nil => simp [put, has, get?, keys]
  | cons e es ih =>
    obtain ⟨k', a'⟩ := e
    by_cases hk : (k' == k) = true
    · simp [put, has, get?, keys, hk]
    · simp only [Bool.not_eq_true] at hk
      by_cases h : (get? k es).isSome = true <;> simp_all [put, has, get?, keys]

end

end Entries

end SheetCalc
