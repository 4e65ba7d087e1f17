import SheetCalc.Journal.Log
import SheetCalc.Value.Order
import Mathlib.Data.List.Induction
import Mathlib.Data.List.Nodup

/-!
# Counting names

Names are counted in a mapping: each one that comes up is put under its key with one more than
before. What is in the mapping in the end are the names that came up, each once and with the number
of times (`mem_tallyOf`, `nodup_tallyOf`).
-/

namespace SheetCalc

namespace Entries

variable {κ α : Type}

theorem mem_keys_of_mem {es : Entries κ α} {k : κ} {a : α} (there : (k, a) ∈ es) : k ∈ es.keys :=
  List.mem_map_of_mem there

/-- What is in a mapping after something has been put into it. -/
theorem mem_put [BEq κ] {es : Entries κ α} {k : κ} {a : α} {e : κ × α}
    (there : e ∈ es.put k a) : e ∈ es ∨ e.2 = a ∧ (e.1 = k ∨ e.1 ∈ es.keys) := by
  induction es with
  | nil =>
      rw [List.mem_singleton.mp there]
      exact .inr ⟨rfl, .inl rfl⟩
  | cons f es ih =>
      obtain ⟨l, b⟩ := f
      unfold Entries.put at there
      split at there
      · rcases List.mem_cons.mp there with rfl | behind
        · exact .inr ⟨rfl, .inr List.mem_cons_self⟩
        · exact .inl (List.mem_cons_of_mem _ behind)
      · rcases List.mem_cons.mp there with rfl | behind
        · exact .inl List.mem_cons_self
        · rcases ih behind with before | ⟨value, key⟩
          · exact .inl (List.mem_cons_of_mem _ before)
          · exact .inr ⟨value, key.imp_right (List.mem_cons_of_mem _)⟩

variable [BEq κ] [LawfulBEq κ]

/-- If no key comes twice, the entries are the keys with their values. -/
theorem mem_iff_get? {es : Entries κ α} (nodup : es.keys.Nodup) {k : κ} {a : α} :
    (k, a) ∈ es ↔ es.get? k = some a := by
  induction es with
  | nil => simp [get?]
  | cons e es ih =>
      obtain ⟨l, b⟩ := e
      obtain ⟨fresh, others⟩ := List.nodup_cons.mp nodup
      rw [List.mem_cons, ih others, get?]
      by_cases same : l = k
      · subst same
        have none_there : Entries.get? l es ≠ some a := by
          intro found
          exact fresh (mem_keys_of_mem ((ih others).mpr found))
        simp [none_there, eq_comm]
      · simp [same, Ne.symm same]

theorem has_iff_mem_keys {es : Entries κ α} {k : κ} : es.has k = true ↔ k ∈ es.keys := by
  induction es with
  | nil => simp [has, get?, keys]
  | cons e es ih =>
      obtain ⟨l, b⟩ := e
      unfold has at ih ⊢
      by_cases same : l = k
      · simp [get?, keys, same]
      · simp [get?, keys, same, Ne.symm same, ih]

/-- Putting brings in no key twice. -/
theorem nodup_put {es : Entries κ α} (nodup : es.keys.Nodup) (k : κ) (a : α) :
    (es.put k a).keys.Nodup := by
  rw [keys_put]
  split
  · exact nodup
  · next fresh =>
      rw [has_iff_mem_keys] at fresh
      refine List.Nodup.append nodup (List.nodup_singleton k) ?_
      intro l there last
      rw [List.mem_singleton.mp last] at there
      exact fresh there

end Entries

namespace Journal

/-! ## Names -/

/-- Counts a name. -/
def tick (counts : Entries Text Nat) (t : Text) : Entries Text Nat :=
  counts.put t ((counts.get? t).getD 0 + 1)

/-- How often names come up. -/
def tallyOf (names : List Text) : Entries Text Nat :=
  names.foldl tick []

theorem tallyOf_concat (names : List Text) (t : Text) :
    tallyOf (names ++ [t]) = tick (tallyOf names) t := by
  unfold tallyOf
  rw [List.foldl_append]
  rfl

theorem nodup_tallyOf (names : List Text) : (tallyOf names).keys.Nodup := by
  induction names using List.reverseRecOn with
  | nil => exact List.nodup_nil
  | append_singleton names t ih =>
      rw [tallyOf_concat]
      exact Entries.nodup_put ih t _

theorem get?_tallyOf (names : List Text) (t : Text) :
    (tallyOf names).get? t = if names.count t = 0 then none else some (names.count t) := by
  induction names using List.reverseRecOn with
  | nil => rfl
  | append_singleton names u ih =>
      rw [tallyOf_concat, List.count_append, List.count_singleton]
      unfold tick
      by_cases same : t = u
      · subst same
        rw [Entries.get?_put_self, ih]
        by_cases fresh : names.count t = 0 <;> simp [fresh]
      · rw [Entries.get?_put_of_ne same, ih]
        simp [Ne.symm same]

/-- The names that came up, with the number of times. -/
theorem mem_tallyOf {names : List Text} {t : Text} {n : Nat} :
    (t, n) ∈ tallyOf names ↔ 0 < n ∧ names.count t = n := by
  rw [Entries.mem_iff_get? (nodup_tallyOf names), get?_tallyOf]
  by_cases fresh : names.count t = 0
  · simp only [fresh, if_true, reduceCtorEq, false_iff]
    omega
  · simp only [fresh, if_false, Option.some.injEq]
    omega

/-! ## Names as keys -/

/-- Names with their numbers, the names as keys of a mapping. -/
def texted {α : Type} (es : Entries Text α) : Entries Key α :=
  es.map fun e => (.text e.1, e.2)

theorem text_beq (s t : Text) : (Key.text s == Key.text t) = (s == t) := rfl

theorem get?_texted {α : Type} (t : Text) (es : Entries Text α) :
    (texted es).get? (.text t) = es.get? t := by
  induction es with
  | nil => rfl
  | cons e es ih =>
      show (if (Key.text e.1 == Key.text t) then some e.2 else (texted es).get? (.text t)) = _
      rw [text_beq, ih]
      rfl

theorem put_texted {α : Type} (t : Text) (a : α) (es : Entries Text α) :
    (texted es).put (.text t) a = texted (es.put t a) := by
  induction es with
  | nil => rfl
  | cons e es ih =>
      show (if (Key.text e.1 == Key.text t) then (.text e.1, a) :: texted es
        else (.text e.1, e.2) :: (texted es).put (.text t) a) = _
      rw [text_beq, ih]
      show _ = texted (if (e.1 == t) then (e.1, a) :: es else (e.1, e.2) :: Entries.put t a es)
      split <;> rfl

theorem tick_texted (counts : Entries Text Nat) (t : Text) :
    (texted counts).put (.text t) (((texted counts).get? (.text t)).getD 0 + 1) =
      texted (tick counts t) := by
  rw [get?_texted, put_texted]
  rfl

/-- Texts can be brought into their order, by which no entry is lost. -/
theorem sorted_texted {α : Type} (es : Entries Text α) :
    ∃ sorted, Key.sorted? (texted es) = some sorted ∧ sorted.Perm (texted es) := by
  cases es with
  | nil => exact ⟨[], rfl, .nil⟩
  | cons e es =>
      have comparable : (texted es).all (fun other =>
          (Key.lt? (.text e.1) other.1).isSome) = true := by
        rw [List.all_eq_true]
        intro other there
        obtain ⟨f, _, rfl⟩ := List.mem_map.mp there
        rfl
      have sorted : Key.sorted? (texted (e :: es)) =
          some (Sorting.sortBy (fun a b => (Key.lt? a.1 b.1).getD false) (texted (e :: es))) := by
        show (if (texted es).all (fun other => (Key.lt? (.text e.1) other.1).isSome) then
          some (Sorting.sortBy _ (texted (e :: es))) else none) = _
        rw [if_pos comparable]
      exact ⟨_, sorted, Sorting.sortBy_perm _ _⟩

theorem mem_texted {α : Type} {es : Entries Text α} {k : Key} {a : α} :
    (k, a) ∈ texted es ↔ ∃ t, k = .text t ∧ (t, a) ∈ es := by
  unfold texted
  rw [List.mem_map]
  constructor
  · rintro ⟨⟨t, b⟩, there, same⟩
    obtain ⟨rfl, rfl⟩ := Prod.mk.inj same
    exact ⟨t, rfl, there⟩
  · rintro ⟨t, rfl, there⟩
    exact ⟨(t, a), there, rfl⟩

/-- **The tally of names in order**: it has each name that came up as a key, once and with the
number of times. -/
theorem sorted_tallyOf (names : List Text) :
    ∃ sorted : Entries Key Nat, Key.sorted? (texted (tallyOf names)) = some sorted ∧
      sorted.keys.Nodup ∧
      ∀ k n, (k, n) ∈ sorted ↔ ∃ t, k = .text t ∧ 0 < n ∧ names.count t = n := by
  obtain ⟨sorted, order, perm⟩ := sorted_texted (tallyOf names)
  refine ⟨sorted, order, ?_, ?_⟩
  · have keys : Entries.keys (texted (tallyOf names)) = (tallyOf names).keys.map Key.text := by
      unfold Entries.keys texted
      rw [List.map_map, List.map_map]
      rfl
    have injective : Function.Injective Key.text := fun _ _ same => Key.text.inj same
    have texts : (Entries.keys (texted (tallyOf names))).Nodup :=
      keys ▸ (nodup_tallyOf names).map injective
    exact (perm.map _).nodup_iff.mpr texts
  · intro k n
    rw [perm.mem_iff, mem_texted]
    simp only [mem_tallyOf]

end Journal

end SheetCalc
