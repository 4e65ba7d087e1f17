import SheetCalc.Json.Writer
import SheetCalc.Proofs.Decimal.Characters
import SheetCalc.Text.Lines

/-!
# What JSON is written with

Whatever is in a value, on one line it is written with printable characters of ASCII alone
(`plain_lineText`). None of them ends a line and none has more than one byte.
-/

namespace SheetCalc

/-! ## Printable characters of ASCII -/

namespace Text

/-- Whether a character is a printable one of ASCII. -/
def isPlain (c : Char) : Bool :=
  0x20 ≤ c.toNat && c.toNat ≤ 0x7e

/-- All characters are printable ones of ASCII. -/
def Plain (cs : List Char) : Prop :=
  ∀ c ∈ cs, isPlain c = true

instance (cs : List Char) : Decidable (Plain cs) :=
  decidable_of_iff (cs.all isPlain = true) List.all_eq_true

theorem isPlain_bounds {c : Char} (plain : isPlain c = true) : 0x20 ≤ c.toNat ∧ c.toNat ≤ 0x7e := by
  simpa [isPlain] using plain

theorem isPlain_of_isDigit {c : Char} (digit : isDigit c = true) : isPlain c = true := by
  simp only [isDigit, isPlain, Bool.and_eq_true, decide_eq_true_eq] at digit ⊢
  omega

theorem isLineEnd_of_isPlain {c : Char} (plain : isPlain c = true) : isLineEnd c = false := by
  have bounds := isPlain_bounds plain
  simp only [isLineEnd, Bool.or_eq_false_iff, Bool.and_eq_false_iff, decide_eq_false_iff_not,
    beq_eq_false_iff_ne]
  omega

theorem Plain.nil : Plain [] := by
  intro c none_there
  cases none_there

theorem Plain.append {cs ds : List Char} (first : Plain cs) (second : Plain ds) :
    Plain (cs ++ ds) := by
  intro c there
  rcases List.mem_append.mp there with before | behind
  · exact first c before
  · exact second c behind

theorem Plain.cons {c : Char} {cs : List Char} (first : isPlain c = true) (rest : Plain cs) :
    Plain (c :: cs) := by
  intro d there
  rcases List.mem_cons.mp there with rfl | behind
  · exact first
  · exact rest d behind

theorem Plain.subset {cs ds : List Char} (plain : Plain ds) (within : ∀ c ∈ cs, c ∈ ds) :
    Plain cs :=
  fun c there => plain c (within c there)

theorem plain_replicate (n : Nat) {c : Char} (plain : isPlain c = true) :
    Plain (List.replicate n c) := by
  intro d there
  rw [List.eq_of_mem_replicate there]
  exact plain

end Text

open Text (Plain isPlain)

/-! ## Numbers -/

namespace Decimal

theorem numeric_plain : Numeric isPlain :=
  ⟨fun _ => Text.isPlain_of_isDigit, by decide, by decide, by decide, by decide⟩

theorem plain_intText (n : Int) : Plain (intText n).toList :=
  numeric_plain.intText n

theorem plain_jsonFloatText (x : Float) : Plain (jsonFloatText x).toList :=
  numeric_plain.layoutText .json (by decide) (by decide) (by decide) shortest x

theorem plain_floatText (x : Float) : Plain (floatText x).toList :=
  numeric_plain.layoutText .plain (by decide) (by decide) (by decide) shortest x

theorem plain_roundedText (count : Nat) (x : Float) : Plain (roundedText count x).toList := by
  have infinity : "inf".toList.all isPlain = true := by decide
  have nan : "nan".toList.all isPlain = true := by decide
  exact numeric_plain.layoutText (.rounded (max count 1)) rfl infinity nan _ x

end Decimal

/-! ## Texts -/

namespace Json

theorem plain_hex (width n : Nat) : Plain (Text.hex width n) := by
  have digit : ∀ d < 16, isPlain (Text.hexDigit d) = true := by decide
  induction width generalizing n with
  | zero => exact .nil
  | succ width ih =>
      have last : isPlain (Text.hexDigit (n % 16)) = true := digit _ (Nat.mod_lt _ (by decide))
      unfold Text.hex
      exact (ih (n / 16)).append (.cons last .nil)

theorem plain_escape (p : CodePoint) : Plain (escape p) := by
  have itself : ∀ n ≤ 0x7e, 0x20 ≤ n → isPlain (Char.ofNat n) = true := by decide
  unfold escape
  simp only
  -- First the seven characters that have an escape of their own, then those that stand for
  -- themselves, and then all others, of which the units are written in hexadecimal digits.
  split
  · decide
  split
  · decide
  split
  · decide
  split
  · decide
  split
  · decide
  split
  · decide
  split
  · decide
  split
  · next printable => exact .cons (itself _ printable.2 printable.1) .nil
  · intro c there
    obtain ⟨unit, _, inside⟩ := List.mem_flatMap.mp there
    exact Plain.cons (by decide) (.cons (by decide) (plain_hex 4 unit)) c inside

theorem plain_quoted (t : Text) : Plain (quoted t) := by
  have escapes : Plain (t.points.flatMap escape) := by
    intro c there
    obtain ⟨p, _, inside⟩ := List.mem_flatMap.mp there
    exact plain_escape p c inside
  exact .cons (by decide) (escapes.append (by decide))

/-! ## Values -/

section

variable {P : Char → Prop} {style : Style}

/-- What is true of the characters of two parts and of those around them is true of all. -/
theorem forall_enclosed {first last : Char} {front cs behind : List Char} (opens : P first)
    (closes : P last) (before : ∀ c ∈ front, P c) (within : ∀ c ∈ cs, P c)
    (after : ∀ c ∈ behind, P c) : ∀ c ∈ first :: front ++ cs ++ behind ++ [last], P c := by
  intro c there
  simp only [List.mem_append, List.mem_cons, List.not_mem_nil, or_false] at there
  rcases there with (((rfl | there) | there) | there) | rfl
  · exact opens
  · exact before c there
  · exact within c there
  · exact after c there
  · exact closes

theorem forall_append {cs ds : List Char} (front : ∀ c ∈ cs, P c) (behind : ∀ c ∈ ds, P c) :
    ∀ c ∈ cs ++ ds, P c := by
  intro c there
  rcases List.mem_append.mp there with before | after
  · exact front c before
  · exact behind c after

/-- A property that all characters have with which values are written in a style. -/
structure Style.Uses (style : Style) (P : Char → Prop) : Prop where
  plain : ∀ {cs}, Plain cs → ∀ c ∈ cs, P c
  inside : ∀ level, ∀ c ∈ style.inside level, P c
  between : ∀ level, ∀ c ∈ style.between level, P c

theorem Style.Uses.first (uses : style.Uses P) {c : Char} (plain : isPlain c = true) : P c :=
  uses.plain (.cons plain .nil) c List.mem_cons_self

theorem forall_entry (uses : style.Uses P) (k : Key) {cs : List Char} (value : ∀ c ∈ cs, P c) :
    ∀ c ∈ quoted k.jsonText ++ [':', ' '] ++ cs, P c :=
  forall_append (uses.plain ((plain_quoted _).append (by decide))) value

mutual

/-- A value is written with printable characters of ASCII and what the style puts between them. -/
theorem forall_write (uses : style.Uses P) (level : Nat) :
    ∀ v : Value, ∀ c ∈ write style level v, P c
  | .null => by
      rw [write]
      exact uses.plain (by decide)
  | .bool true => by
      rw [write]
      exact uses.plain (by decide)
  | .bool false => by
      rw [write]
      exact uses.plain (by decide)
  | .int n => by
      rw [write]
      exact uses.plain (Decimal.plain_intText n)
  | .float x => by
      rw [write]
      exact uses.plain (Decimal.plain_jsonFloatText x)
  | .text s => by
      rw [write]
      exact uses.plain (plain_quoted s)
  | .list [] => by
      rw [write]
      exact uses.plain (by decide)
  | .list (v :: vs) => by
      rw [write]
      · exact forall_enclosed (uses.first (by decide)) (uses.first (by decide)) (uses.inside _)
          (forall_writeItems uses (level + 1) (v :: vs)) (uses.inside _)
      · exact List.cons_ne_nil v vs
  | .mapping [] => by
      rw [write]
      exact uses.plain (by decide)
  | .mapping (e :: es) => by
      rw [write]
      · exact forall_enclosed (uses.first (by decide)) (uses.first (by decide)) (uses.inside _)
          (forall_writeEntries uses (level + 1) (e :: es)) (uses.inside _)
      · exact List.cons_ne_nil e es

theorem forall_writeItems (uses : style.Uses P) (level : Nat) :
    ∀ vs : List Value, ∀ c ∈ writeItems style level vs, P c
  | [] => by
      rw [writeItems]
      exact fun _ none_there => nomatch none_there
  | [v] => by
      rw [writeItems]
      exact forall_write uses level v
  | v :: w :: vs => by
      rw [writeItems]
      · exact forall_append (forall_append (forall_write uses level v) (uses.between level))
          (forall_writeItems uses level (w :: vs))
      · exact List.cons_ne_nil w vs

theorem forall_writeEntries (uses : style.Uses P) (level : Nat) :
    ∀ es : List (Key × Value), ∀ c ∈ writeEntries style level es, P c
  | [] => by
      rw [writeEntries]
      exact fun _ none_there => nomatch none_there
  | [(k, v)] => by
      rw [writeEntries]
      exact forall_entry uses k (forall_write uses level v)
  | (k, v) :: e :: es => by
      rw [writeEntries]
      · exact forall_append (forall_append (forall_entry uses k (forall_write uses level v))
          (uses.between level)) (forall_writeEntries uses level (e :: es))
      · exact List.cons_ne_nil e es

end

end

/-- **A value on one line is written with printable characters of ASCII.** -/
theorem plain_lineText (v : Value) : Plain (lineText v) := by
  have uses : Style.line.Uses fun c => isPlain c = true := by
    refine ⟨fun plain => plain, ?_, ?_⟩
    · intro level c none_there
      cases none_there
    · intro level
      show Plain [',', ' ']
      decide
  exact forall_write uses 0 v

/-- A value with an item on each line is written with the same characters and line feeds. -/
theorem mem_indentedText {v : Value} {c : Char} (there : c ∈ indentedText v) :
    isPlain c = true ∨ c = '\n' := by
  have newLine (level : Nat) : ∀ c ∈ Style.newLine level, isPlain c = true ∨ c = '\n' := by
    intro c there
    rcases List.mem_cons.mp there with rfl | space
    · exact .inr rfl
    · exact .inl (Text.plain_replicate _ (by decide) c space)
  have uses : Style.indented.Uses fun c => isPlain c = true ∨ c = '\n' := by
    refine ⟨fun plain c there => .inl (plain c there), newLine, ?_⟩
    intro level c there
    rcases List.mem_cons.mp there with rfl | behind
    · exact .inl (by decide)
    · exact newLine level c behind
  exact forall_write uses 0 v c there

end Json

end SheetCalc
