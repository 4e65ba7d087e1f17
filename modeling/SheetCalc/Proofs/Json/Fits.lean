import SheetCalc.Json.Writer

/-!
# What can be written

A value fits into a number of brackets if it can be written and no more of them stand inside each
other in it. Whether a list or a mapping fits is decided by what is in it (`fits_list`,
`fits_mapping`) and, of a mapping, by its keys, so that it goes on fitting when its entries change
their places (`fits_sortKeys`). Nor does it become longer or shorter by that
(`length_write_sortKeys`).
-/

namespace SheetCalc.Json

/-- A value that can be written: no integer in it is too long, no more than so many brackets stand
inside each other, and there is an order of the keys in each mapping. -/
structure Fits (depth : Nat) (v : Value) : Prop where
  writable : v.isWritable = true
  nested : nesting v ≤ depth
  ordered : hasOrder v = true

theorem isWritable_iff {depth : Nat} {v : Value} : isWritable depth v = true ↔ Fits depth v := by
  unfold isWritable
  rw [Bool.and_eq_true, Bool.and_eq_true, decide_eq_true_iff]
  exact ⟨fun ⟨⟨writable, nested⟩, ordered⟩ => ⟨writable, nested, ordered⟩,
    fun ⟨writable, nested, ordered⟩ => ⟨⟨writable, nested⟩, ordered⟩⟩

/-! ## Scalars -/

theorem fits_null (depth : Nat) : Fits depth .null :=
  ⟨by rfl, Nat.zero_le depth, by rfl⟩

theorem fits_text (depth : Nat) (t : Text) : Fits depth (.text t) :=
  ⟨by rfl, Nat.zero_le depth, by rfl⟩

theorem fits_float (depth : Nat) (x : Float) : Fits depth (.float x) :=
  ⟨by rfl, Nat.zero_le depth, by rfl⟩

theorem fits_int {n : Int} (writable : Decimal.isWritable n = true) (depth : Nat) :
    Fits depth (.int n) :=
  ⟨writable, Nat.zero_le depth, by rfl⟩

/-! ## Lists and mappings -/

theorem fits_list {depth : Nat} {vs : List Value} :
    Fits (depth + 1) (.list vs) ↔ ∀ v ∈ vs, Fits depth v := by
  have whole : Fits (depth + 1) (.list vs) ↔
      Value.areWritable vs = true ∧ nestingItems vs ≤ depth ∧ itemsHaveOrder vs = true := by
    constructor
    · rintro ⟨writable, nested, ordered⟩
      rw [Value.isWritable] at writable
      rw [nesting] at nested
      rw [hasOrder] at ordered
      exact ⟨writable, Nat.le_of_succ_le_succ nested, ordered⟩
    · rintro ⟨writable, nested, ordered⟩
      refine ⟨?_, ?_, ?_⟩
      · rwa [Value.isWritable]
      · rw [nesting]
        omega
      · rwa [hasOrder]
  rw [whole]
  clear whole
  induction vs with
  | nil => simp [Value.areWritable, nestingItems, itemsHaveOrder]
  | cons v vs ih =>
      rw [List.forall_mem_cons, Value.areWritable, nestingItems, itemsHaveOrder, Bool.and_eq_true,
        Bool.and_eq_true, Nat.max_le]
      constructor
      · rintro ⟨⟨writable, others⟩, ⟨nested, inner⟩, ordered, orders⟩
        exact ⟨⟨writable, nested, ordered⟩, ih.mp ⟨others, inner, orders⟩⟩
      · rintro ⟨⟨writable, nested, ordered⟩, rest⟩
        obtain ⟨others, inner, orders⟩ := ih.mpr rest
        exact ⟨⟨writable, others⟩, ⟨nested, inner⟩, ordered, orders⟩

theorem fits_texts {α : Type} (depth : Nat) (text : α → Text) (items : List α) :
    Fits (depth + 1) (.list (items.map fun item => .text (text item))) := by
  refine fits_list.mpr fun v inside => ?_
  obtain ⟨item, _, rfl⟩ := List.mem_map.mp inside
  exact fits_text depth _

/-- What is asked of the entries of a mapping. -/
def EntriesFit (depth : Nat) (es : List (Key × Value)) : Prop :=
  ∀ e ∈ es, e.1.isWritable = true ∧ Fits depth e.2

theorem fits_mapping {depth : Nat} {es : List (Key × Value)} :
    Fits (depth + 1) (.mapping es) ↔
      (es.map Prod.fst).Pairwise Key.Comparable ∧ EntriesFit depth es := by
  have whole : Fits (depth + 1) (.mapping es) ↔ (Key.sorted? es).isSome = true ∧
      Value.areEntriesWritable es = true ∧ nestingEntries es ≤ depth ∧
        entriesHaveOrder es = true := by
    constructor
    · rintro ⟨writable, nested, ordered⟩
      rw [Value.isWritable] at writable
      rw [nesting] at nested
      rw [hasOrder, Bool.and_eq_true] at ordered
      exact ⟨ordered.1, writable, Nat.le_of_succ_le_succ nested, ordered.2⟩
    · rintro ⟨comparable, writable, nested, ordered⟩
      refine ⟨?_, ?_, ?_⟩
      · rwa [Value.isWritable]
      · rw [nesting]
        omega
      · rw [hasOrder, comparable, ordered]
        rfl
  rw [whole, Key.isSome_sorted?]
  clear whole
  refine and_congr_right' ?_
  unfold EntriesFit
  induction es with
  | nil => simp [Value.areEntriesWritable, nestingEntries, entriesHaveOrder]
  | cons e es ih =>
      obtain ⟨k, v⟩ := e
      rw [List.forall_mem_cons, Value.areEntriesWritable, nestingEntries, entriesHaveOrder,
        Bool.and_eq_true, Bool.and_eq_true, Bool.and_eq_true, Nat.max_le]
      constructor
      · rintro ⟨⟨⟨key, writable⟩, others⟩, ⟨nested, inner⟩, ordered, orders⟩
        exact ⟨⟨key, writable, nested, ordered⟩, ih.mp ⟨others, inner, orders⟩⟩
      · rintro ⟨⟨key, writable, nested, ordered⟩, rest⟩
        obtain ⟨others, inner, orders⟩ := ih.mpr rest
        exact ⟨⟨⟨key, writable⟩, others⟩, ⟨nested, inner⟩, ordered, orders⟩

/-- There is an order of keys that are texts. -/
theorem comparable_of_named {es : List (Key × Value)} (named : ∀ e ∈ es, ∃ t, e.1 = .text t) :
    (es.map Prod.fst).Pairwise Key.Comparable := by
  rw [List.pairwise_map]
  refine (List.pairwise_of_forall fun _ _ => trivial).imp_of_mem fun {a b} ha hb _ => ?_
  obtain ⟨s, left⟩ := named a ha
  obtain ⟨t, right⟩ := named b hb
  rw [left, right]
  exact Key.comparable_text s t

/-- A mapping under names fits if the values in it do. -/
theorem fits_of_named {depth : Nat} {es : List (Key × Value)}
    (named : ∀ e ∈ es, (∃ t, e.1 = .text t) ∧ Fits depth e.2) :
    Fits (depth + 1) (.mapping es) := by
  refine fits_mapping.mpr ⟨comparable_of_named fun e there => (named e there).1, ?_⟩
  intro e there
  obtain ⟨⟨t, key⟩, fits⟩ := named e there
  exact ⟨by rw [key]; rfl, fits⟩

/-- A list or a mapping does not fit where no brackets can stand. -/
theorem not_fits_list (vs : List Value) : ¬ Fits 0 (.list vs) := by
  rintro ⟨_, nested, _⟩
  rw [nesting] at nested
  omega

theorem not_fits_mapping (es : List (Key × Value)) : ¬ Fits 0 (.mapping es) := by
  rintro ⟨_, nested, _⟩
  rw [nesting] at nested
  omega

/-! ## Entries in order -/

theorem keys_sortEntries (es : List (Key × Value)) :
    (sortEntries es).map Prod.fst = es.map Prod.fst := by
  induction es with
  | nil => rfl
  | cons e es ih => rw [sortEntries, List.map_cons, List.map_cons, ih]

/-- Whether keys can be compared with each other does not depend on where they stand. -/
theorem comparable_perm {es fs : List (Key × Value)} (perm : es.Perm fs)
    (comparable : (es.map Prod.fst).Pairwise Key.Comparable) :
    (fs.map Prod.fst).Pairwise Key.Comparable :=
  ((perm.map Prod.fst).pairwise_iff Key.Comparable.symm).mp comparable

mutual

/-- A value fits in whatever order the entries of its mappings are. -/
theorem fits_sortKeys : ∀ (v : Value) {depth : Nat}, Fits depth v → Fits depth (sortKeys v)
  | .null, _, fits | .bool _, _, fits | .int _, _, fits | .float _, _, fits | .text _, _, fits => by
      rw [sortKeys] <;> first | exact fits | nofun
  | .list items, depth, fits => by
      rw [sortKeys]
      cases depth with
      | zero => exact absurd fits (not_fits_list items)
      | succ depth => exact fits_list.mpr (fits_sortItems items (fits_list.mp fits))
  | .mapping entries, depth, fits => by
      rw [sortKeys]
      cases depth with
      | zero => exact absurd fits (not_fits_mapping entries)
      | succ depth =>
          obtain ⟨comparable, within⟩ := fits_mapping.mp fits
          have sorted := (List.mergeSort_perm (sortEntries entries) entryLe).symm
          rw [← keys_sortEntries] at comparable
          refine fits_mapping.mpr ⟨comparable_perm sorted comparable, fun e there => ?_⟩
          exact fits_sortEntries entries within e (sorted.mem_iff.mpr there)

theorem fits_sortItems : ∀ (vs : List Value) {depth : Nat}, (∀ v ∈ vs, Fits depth v) →
    ∀ v ∈ sortItems vs, Fits depth v
  | [], _, _ => by
      rw [sortItems]
      exact nofun
  | v :: vs, _, fits => by
      rw [sortItems, List.forall_mem_cons]
      obtain ⟨first, others⟩ := List.forall_mem_cons.mp fits
      exact ⟨fits_sortKeys v first, fits_sortItems vs others⟩

theorem fits_sortEntries : ∀ (es : List (Key × Value)) {depth : Nat}, EntriesFit depth es →
    EntriesFit depth (sortEntries es)
  | [], _, _ => by
      rw [sortEntries]
      exact nofun
  | (k, v) :: es, _, fits => by
      rw [sortEntries]
      obtain ⟨⟨key, first⟩, others⟩ := List.forall_mem_cons.mp fits
      exact List.forall_mem_cons.mpr ⟨⟨key, fits_sortKeys v first⟩, fits_sortEntries es others⟩

end

/-! ## How long a value is when it is written -/

section

variable (style : Style)

/-- An entry as it is written. -/
def entryText (level : Nat) (e : Key × Value) : List Char :=
  quoted e.1.jsonText ++ [':', ' '] ++ write style level e.2

theorem length_writeEntries (level : Nat) (es : List (Key × Value)) :
    (writeEntries style level es).length =
      (es.flatMap (entryText style level)).length +
        (es.length - 1) * (style.between level).length := by
  induction es with
  | nil => simp [writeEntries]
  | cons e es ih =>
      cases es with
      | nil => simp [writeEntries, entryText]
      | cons f es =>
          rw [writeEntries]
          · simp only [List.length_append, ih, List.flatMap_cons, List.length_cons,
              List.length_nil, Nat.add_sub_cancel, Nat.add_mul, entryText]
            omega
          · exact List.cons_ne_nil f es

/-- How long a mapping is when it is written depends on how many entries it has and on how long all
of them are. -/
theorem length_write_mapping (level : Nat) {es fs : List (Key × Value)}
    (count : es.length = fs.length)
    (lengths : (es.flatMap (entryText style (level + 1))).length =
      (fs.flatMap (entryText style (level + 1))).length) :
    (write style level (.mapping es)).length = (write style level (.mapping fs)).length := by
  cases es with
  | nil => rw [List.length_eq_zero_iff.mp count.symm]
  | cons e es =>
      have some_entry : fs ≠ [] :=
        List.ne_nil_of_length_pos (by rw [← count]; exact Nat.succ_pos _)
      rw [write, write]
      · simp only [List.length_append, List.length_cons, length_writeEntries, lengths, ← count]
      · exact some_entry
      · exact List.cons_ne_nil e es

mutual

/-- A value is written as long in whatever order the entries of its mappings are. -/
theorem length_write_sortKeys : ∀ (level : Nat) (v : Value),
    (write style level (sortKeys v)).length = (write style level v).length
  | _, .null | _, .bool _ | _, .int _ | _, .float _ | _, .text _ => by
      rw [sortKeys] <;> nofun
  | _, .list [] => by rw [sortKeys, sortItems]
  | level, .list (v :: vs) => by
      have items := length_writeItems_sortItems (level + 1) (v :: vs)
      rw [sortItems] at items
      rw [sortKeys, sortItems, write, write]
      · simp only [List.length_append, List.length_cons, items]
      · exact List.cons_ne_nil _ _
      · exact List.cons_ne_nil _ _
  | level, .mapping es => by
      have sorted := List.mergeSort_perm (sortEntries es) entryLe
      have count : (sortEntries es).length = es.length := by
        simpa using congrArg List.length (keys_sortEntries es)
      have lengths := length_flatMap_sortEntries (level + 1) es
      rw [sortKeys]
      exact length_write_mapping style level (sorted.length_eq.trans count)
        ((sorted.flatMap_right _).length_eq.trans lengths)

theorem length_writeItems_sortItems : ∀ (level : Nat) (vs : List Value),
    (writeItems style level (sortItems vs)).length = (writeItems style level vs).length
  | _, [] => rfl
  | level, [v] => length_write_sortKeys level v
  | level, v :: w :: vs => by
      have others := length_writeItems_sortItems level (w :: vs)
      rw [sortItems, writeItems, writeItems]
      · simp only [List.length_append, length_write_sortKeys level v, others]
      · exact List.cons_ne_nil w vs
      · rw [sortItems]
        exact List.cons_ne_nil _ _

theorem length_flatMap_sortEntries (level : Nat) : ∀ es : List (Key × Value),
    ((sortEntries es).flatMap (entryText style level)).length =
      (es.flatMap (entryText style level)).length
  | [] => rfl
  | (k, v) :: es => by
      simp only [sortEntries, List.flatMap_cons, List.length_append, entryText,
        length_write_sortKeys level v, length_flatMap_sortEntries level es]

end

end

end SheetCalc.Json
