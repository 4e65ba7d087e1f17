import SheetCalc.Journal.Trim
import SheetCalc.Json.Writer

/-!
# What trimming comes to

A context that is trimmed keeps all of its keys. Texts and lists that are small enough stay as they
are, and of all others a mark stands for what is left out (`Trimmed`). What comes out is a little
larger than what is let through, by the mark, but trimming it again cuts at the same place and sets
the same mark (`trim_trim`). Nothing of the kind is returned for a context whose collections stand
inside too many others (`trimContext_projects`, `deep_context_not_returned`).
-/

namespace SheetCalc.Journal

/-! ## Caps -/

/-- How many code points a text may have, and how many items a list. -/
structure Caps where
  text : Nat
  items : Nat

namespace Caps

mutual

/-- Whether all texts and lists in a value are small enough. -/
def admits (caps : Caps) : Value → Bool
  | .text t => t.length ≤ caps.text
  | .list vs => vs.length ≤ caps.items && admitsItems caps vs
  | .mapping es => admitsEntries caps es
  | _ => true

/-- Whether all texts and lists in the items of a list are small enough. -/
def admitsItems (caps : Caps) : List Value → Bool
  | [] => true
  | v :: vs => admits caps v && admitsItems caps vs

/-- Whether all texts and lists in the values of a mapping are small enough. -/
def admitsEntries (caps : Caps) : List (Key × Value) → Bool
  | [] => true
  | (_, v) :: es => admits caps v && admitsEntries caps es

end

end Caps

/-- What is small enough to stay as it is. -/
def Caps.kept : Caps := ⟨256, 64⟩

/-- What is left of something larger: 14 code points or one item more, for the mark. -/
def Caps.marked : Caps := ⟨256 + 14, 64 + 1⟩

/-! ## What becomes of a value -/

mutual

/-- A value and what it is trimmed to. -/
inductive Trimmed : Value → Value → Prop
  | null : Trimmed .null .null
  | bool (b) : Trimmed (.bool b) (.bool b)
  | int (n) : Trimmed (.int n) (.int n)
  | float (x) : Trimmed (.float x) (.float x)
  | shortText {t : Text} : t.length ≤ 256 → Trimmed (.text t) (.text t)
  | longText {t : Text} : 256 < t.length →
      Trimmed (.text t) (.text (t.take 256 ++ ("...[truncated]" : Text)))
  | shortList {vs ws} : vs.length ≤ 64 → ItemsTrimmed vs ws → Trimmed (.list vs) (.list ws)
  | longList {vs ws} : 64 < vs.length → ItemsTrimmed (vs.take 64) ws →
      Trimmed (.list vs) (.list (ws ++ [.text "...[truncated]"]))
  | mapping {es fs} : EntriesTrimmed es fs → Trimmed (.mapping es) (.mapping fs)

/-- Items and what each of them is trimmed to. -/
inductive ItemsTrimmed : List Value → List Value → Prop
  | nil : ItemsTrimmed [] []
  | cons {v w vs ws} : Trimmed v w → ItemsTrimmed vs ws → ItemsTrimmed (v :: vs) (w :: ws)

/-- Entries and what each of them is trimmed to, under the same key. -/
inductive EntriesTrimmed : List (Key × Value) → List (Key × Value) → Prop
  | nil : EntriesTrimmed [] []
  | cons {k v w es fs} : Trimmed v w → EntriesTrimmed es fs →
      EntriesTrimmed ((k, v) :: es) ((k, w) :: fs)

end

theorem length_truncated : truncated.length = 14 := rfl

theorem length_trimText (t : Text) : (trimText t).length ≤ 256 + 14 := by
  unfold trimText keptLength
  split
  · show (t.points.take 256 ++ truncated.points).length ≤ _
    have mark : truncated.points.length = 14 := length_truncated
    rw [List.length_append, List.length_take, mark]
    omega
  · omega

theorem trimText_trimText (t : Text) : trimText (trimText t) = trimText t := by
  by_cases long : keptLength < t.length
  · have cut : trimText t = t.take keptLength ++ truncated := if_pos long
    have kept : (t.points.take keptLength).length = keptLength :=
      List.length_take_of_le (Nat.le_of_lt long)
    have still_long : keptLength < (t.take keptLength ++ truncated).length := by
      show keptLength < (t.points.take keptLength ++ truncated.points).length
      have mark : truncated.points.length = 14 := length_truncated
      rw [List.length_append, kept, mark]
      omega
    -- The first part is cut off where it was cut off before.
    have same : (t.take keptLength ++ truncated).take keptLength = t.take keptLength :=
      Text.ext_points (List.take_left' kept)
    rw [cut, trimText, if_pos still_long, same]
  · have whole : trimText t = t := if_neg long
    rw [whole, whole]

theorem length_trimItems (kept : Nat) (vs : List Value) :
    (trimItems kept vs).length ≤ kept + 1 := by
  induction vs generalizing kept with
  | nil => simp [trimItems]
  | cons v vs ih =>
      cases kept with
      | zero => simp [trimItems]
      | succ kept =>
          rw [trimItems, List.length_cons]
          exact Nat.succ_le_succ (ih kept)

mutual

/-- Trimming twice is trimming once. -/
theorem trim_trim : ∀ v : Value, trim (trim v) = trim v
  | .null | .bool _ | .int _ | .float _ => by simp only [trim]
  | .text t => by rw [trim, trim, trimText_trimText]
  | .list vs => by rw [trim, trim, trimItems_trimItems keptItems vs]
  | .mapping es => by rw [trim, trim, trimEntries_trimEntries es]

theorem trimItems_trimItems : ∀ (kept : Nat) (vs : List Value),
    trimItems kept (trimItems kept vs) = trimItems kept vs
  | _, [] => by rw [trimItems, trimItems]
  | 0, _ :: _ => by rw [trimItems, trimItems]
  | kept + 1, v :: vs => by rw [trimItems, trimItems, trim_trim v, trimItems_trimItems kept vs]

theorem trimEntries_trimEntries : ∀ es : List (Key × Value),
    trimEntries (trimEntries es) = trimEntries es
  | [] => by rw [trimEntries, trimEntries]
  | (k, v) :: es => by rw [trimEntries, trimEntries, trim_trim v, trimEntries_trimEntries es]

end

mutual

/-- Trimming goes as deep as before when it is done again. -/
theorem depth_trim : ∀ v : Value, depth (trim v) = depth v
  | .null | .bool _ | .int _ | .float _ | .text _ => by simp only [trim, depth]
  | .list vs => by rw [trim, depth, depth, depthOfItems_trimItems keptItems vs]
  | .mapping es => by rw [trim, depth, depth, depthOfEntries_trimEntries es]

theorem depthOfItems_trimItems : ∀ (kept : Nat) (vs : List Value),
    depthOfItems kept (trimItems kept vs) = depthOfItems kept vs
  | _, [] => by rw [trimItems]
  | 0, _ :: _ => by rw [trimItems, depthOfItems, depthOfItems]
  | kept + 1, v :: vs => by
      rw [trimItems, depthOfItems, depthOfItems, depth_trim v, depthOfItems_trimItems kept vs]

theorem depthOfEntries_trimEntries : ∀ es : List (Key × Value),
    depthOfEntries (trimEntries es) = depthOfEntries es
  | [] => by rw [trimEntries]
  | (k, v) :: es => by
      rw [trimEntries, depthOfEntries, depthOfEntries, depth_trim v, depthOfEntries_trimEntries es]

end

mutual

/-- For each collection around it a part of a value adds at most three calls. -/
theorem depth_le : ∀ v : Value, depth v ≤ 3 * Json.nesting v + 1
  | .null | .bool _ | .int _ | .float _ | .text _ => by simp [depth]
  | .list vs => by
      have items := depthOfItems_le keptItems vs
      rw [depth, Json.nesting]
      omega
  | .mapping es => by
      have entries := depthOfEntries_le es
      rw [depth, Json.nesting]
      omega

theorem depthOfItems_le : ∀ (kept : Nat) (vs : List Value),
    depthOfItems kept vs ≤ 3 * Json.nestingItems vs + 1
  | _, [] => by
      rw [depthOfItems]
      exact Nat.zero_le _
  | 0, _ :: _ => by
      rw [depthOfItems]
      exact Nat.zero_le _
  | kept + 1, v :: vs => by
      have first := depth_le v
      have others := depthOfItems_le kept vs
      rw [depthOfItems, Json.nestingItems]
      omega

theorem depthOfEntries_le : ∀ es : List (Key × Value),
    depthOfEntries es ≤ 3 * Json.nestingEntries es + 1
  | [] => by
      rw [depthOfEntries]
      exact Nat.zero_le _
  | (_, v) :: es => by
      have first := depth_le v
      have others := depthOfEntries_le es
      rw [depthOfEntries, Json.nestingEntries]
      omega

end

mutual

/-- What is trimmed has no more than the mark beyond what is let through. -/
theorem admits_trim : ∀ v : Value, Caps.marked.admits (trim v) = true
  | .null | .bool _ | .int _ | .float _ => by simp only [trim, Caps.admits]
  | .text t => by
      rw [trim, Caps.admits]
      exact decide_eq_true (length_trimText t)
  | .list vs => by
      rw [trim, Caps.admits, admitsItems_trimItems keptItems vs, Bool.and_true]
      exact decide_eq_true (length_trimItems keptItems vs)
  | .mapping es => by
      rw [trim, Caps.admits]
      exact admitsEntries_trimEntries es

theorem admitsItems_trimItems : ∀ (kept : Nat) (vs : List Value),
    Caps.marked.admitsItems (trimItems kept vs) = true
  | _, [] => by rw [trimItems, Caps.admitsItems]
  | 0, _ :: _ => by
      rw [trimItems, Caps.admitsItems, Caps.admitsItems, Bool.and_true, Caps.admits]
      decide
  | kept + 1, v :: vs => by
      rw [trimItems, Caps.admitsItems, admits_trim v, admitsItems_trimItems kept vs]
      rfl

theorem admitsEntries_trimEntries : ∀ es : List (Key × Value),
    Caps.marked.admitsEntries (trimEntries es) = true
  | [] => by rw [trimEntries, Caps.admitsEntries]
  | (k, v) :: es => by
      rw [trimEntries, Caps.admitsEntries, admits_trim v, admitsEntries_trimEntries es]
      rfl

end

mutual

/-- What is small enough stays as it is. -/
theorem trim_of_admits : ∀ v : Value, Caps.kept.admits v = true → trim v = v
  | .null | .bool _ | .int _ | .float _ => fun _ => by simp only [trim]
  | .text t => by
      rw [Caps.admits, decide_eq_true_iff, trim]
      intro short
      exact congrArg Value.text (if_neg (Nat.not_lt.mpr short))
  | .list vs => by
      rw [Caps.admits, Bool.and_eq_true, decide_eq_true_iff, trim]
      rintro ⟨few, inside⟩
      rw [trimItems_of_admits keptItems vs few inside]
  | .mapping es => by
      rw [Caps.admits, trim]
      intro inside
      rw [trimEntries_of_admits es inside]

theorem trimItems_of_admits : ∀ (kept : Nat) (vs : List Value), vs.length ≤ kept →
    Caps.kept.admitsItems vs = true → trimItems kept vs = vs
  | _, [] => fun _ _ => by rw [trimItems]
  | 0, _ :: _ => fun few => nomatch few
  | kept + 1, v :: vs => by
      rw [Caps.admitsItems, Bool.and_eq_true, trimItems]
      rintro few ⟨first, others⟩
      rw [trim_of_admits v first, trimItems_of_admits kept vs (Nat.le_of_succ_le_succ few) others]

theorem trimEntries_of_admits : ∀ es : List (Key × Value),
    Caps.kept.admitsEntries es = true → trimEntries es = es
  | [] => fun _ => by rw [trimEntries]
  | (k, v) :: es => by
      rw [Caps.admitsEntries, Bool.and_eq_true, trimEntries]
      rintro ⟨first, others⟩
      rw [trim_of_admits v first, trimEntries_of_admits es others]

end

/-- Of a list as many items are kept as fit, and the mark stands for the others. -/
theorem trimItems_eq (kept : Nat) (vs : List Value) :
    trimItems kept vs =
      (vs.take kept).map trim ++ if kept < vs.length then [.text truncated] else [] := by
  induction vs generalizing kept with
  | nil => simp [trimItems]
  | cons v vs ih =>
      cases kept with
      | zero => simp [trimItems]
      | succ kept => simp [trimItems, ih]

mutual

/-- A value is trimmed as it should be. -/
theorem trimmed_trim : ∀ v : Value, Trimmed v (trim v)
  | .null => by
      simp only [trim]
      exact .null
  | .bool b => by
      simp only [trim]
      exact .bool b
  | .int n => by
      simp only [trim]
      exact .int n
  | .float x => by
      simp only [trim]
      exact .float x
  | .text t => by
      rw [trim]
      unfold trimText
      split
      · next long => exact .longText long
      · next short => exact .shortText (Nat.le_of_not_lt short)
  | .list vs => by
      have items := itemsTrimmed_take keptItems vs
      rw [trim, trimItems_eq]
      split
      · next long => exact .longList long items
      · next short =>
          have few : vs.length ≤ keptItems := Nat.le_of_not_lt short
          rw [List.take_of_length_le few] at items ⊢
          rw [List.append_nil]
          exact .shortList few items
  | .mapping es => by
      rw [trim]
      exact .mapping (entriesTrimmed_trimEntries es)

theorem itemsTrimmed_take : ∀ (kept : Nat) (vs : List Value),
    ItemsTrimmed (vs.take kept) ((vs.take kept).map trim)
  | _, [] => by
      rw [List.take_nil]
      exact .nil
  | 0, _ :: _ => .nil
  | kept + 1, v :: vs => .cons (trimmed_trim v) (itemsTrimmed_take kept vs)

theorem entriesTrimmed_trimEntries : ∀ es : List (Key × Value), EntriesTrimmed es (trimEntries es)
  | [] => by
      rw [trimEntries]
      exact .nil
  | (k, v) :: es => by
      rw [trimEntries]
      exact .cons (trimmed_trim v) (entriesTrimmed_trimEntries es)

end

/-! ## Contexts -/

theorem trimContext_ok_iff {context out : List (Key × Value)} :
    trimContext? context = some out ↔
      depth (.mapping context) ≤ depthLimit ∧ trimEntries context = out := by
  unfold trimContext?
  split
  · next shallow => simp [shallow]
  · next deep => simp [deep]

theorem isSome_trimContext {context : List (Key × Value)} :
    (trimContext? context).isSome = true ↔ depth (.mapping context) ≤ depthLimit := by
  rw [Option.isSome_iff_exists]
  exact ⟨fun ⟨_, trims⟩ => (trimContext_ok_iff.mp trims).1,
    fun shallow => ⟨_, trimContext_ok_iff.mpr ⟨shallow, rfl⟩⟩⟩

/-- **Trimming a context is a projection onto small contexts.** A context is returned unless its
collections stand inside too many others: three hundred of them inside each other are not too many.
What is returned has small texts and lists, has the same keys as the context, and differs from it
only where texts or lists are too large; and trimming it again changes nothing. -/
theorem trimContext_projects (context : List (Key × Value)) :
    (Json.nesting (.mapping context) ≤ 300 → (trimContext? context).isSome = true) ∧
      ∀ out, trimContext? context = some out →
        Caps.marked.admitsEntries out = true ∧ EntriesTrimmed context out ∧
          (Caps.kept.admitsEntries context = true → out = context) ∧
          trimContext? out = some out := by
  constructor
  · intro few
    have calls := depth_le (.mapping context)
    rw [isSome_trimContext, depthLimit]
    omega
  · rintro out trims
    obtain ⟨shallow, rfl⟩ := trimContext_ok_iff.mp trims
    refine ⟨admitsEntries_trimEntries context, entriesTrimmed_trimEntries context,
      trimEntries_of_admits context, trimContext_ok_iff.mpr ⟨?_, trimEntries_trimEntries context⟩⟩
    have same := depth_trim (.mapping context)
    rw [trim] at same
    rw [same]
    exact shallow

/-- A list with one item too many: the mark takes the place of the item. -/
theorem trimContext_projects_tokens :
    let context : List (Key × Value) := [(.text "tokens", .list (List.replicate 65 (.text "1")))]
    let out : List (Key × Value) :=
      [(.text "tokens", .list (List.replicate 64 (.text "1") ++ [.text "...[truncated]"]))]
    Json.nesting (.mapping context) = 2 ∧ trimContext? context = some out ∧
      Caps.marked.admitsEntries out = true ∧ EntriesTrimmed context out ∧
      trimContext? out = some out := by
  intro context out
  have two : Json.nesting (.mapping context) = 2 := by decide +kernel
  obtain ⟨returned, projects⟩ := trimContext_projects context
  obtain ⟨trimmed, trims⟩ := Option.isSome_iff_exists.mp (returned (by rw [two]; decide))
  have same : trimmed = out := by
    have one : trim (.text "1") = .text "1" := by rfl
    have items : trimItems keptItems (List.replicate 65 (.text "1")) =
        List.replicate 64 (.text "1") ++ [.text "...[truncated]"] := by
      simp [trimItems_eq, keptItems, truncated, one]
    rw [← (trimContext_ok_iff.mp trims).2, trimEntries, trimEntries, trim, items]
  subst same
  obtain ⟨small, kept, _, again⟩ := projects out trims
  exact ⟨two, trims, small, kept, again⟩

/-! ### A context that is too deep -/

/-- Mappings inside each other. -/
def nested : Nat → Value
  | 0 => .null
  | n + 1 => .mapping [(.text "k", nested n)]

theorem depth_nested (n : Nat) : depth (nested n) = 3 * n + 1 := by
  induction n with
  | zero => rfl
  | succ n ih =>
      rw [nested, depth, depthOfEntries, depthOfEntries, ih]
      omega

theorem admits_nested (caps : Caps) (n : Nat) : caps.admits (nested n) = true := by
  induction n with
  | zero => simp only [nested, Caps.admits]
  | succ n ih => rw [nested, Caps.admits, Caps.admitsEntries, Caps.admitsEntries, ih, Bool.and_true]

/-- A context in which nothing is too large is not returned if mappings stand inside too many
others. -/
theorem deep_context_not_returned :
    let context : List (Key × Value) := [(.text "k", nested 401)]
    Caps.kept.admitsEntries context = true ∧ trimContext? context ≠ some context := by
  intro context
  constructor
  · rw [Caps.admitsEntries, Caps.admitsEntries, admits_nested, Bool.and_true]
  · intro returned
    obtain ⟨shallow, _⟩ := trimContext_ok_iff.mp returned
    have deep : depth (.mapping context) = 3 * 402 + 1 := depth_nested 402
    rw [deep] at shallow
    exact absurd shallow (by decide)

end SheetCalc.Journal
