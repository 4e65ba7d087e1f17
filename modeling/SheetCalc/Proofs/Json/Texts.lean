import SheetCalc.Json.Quoted
import Mathlib.Tactic.Ring

/-!
# Texts come back from JSON

A text that is written between quotes is read as the same text, except that a high and a low half of
a pair that stand side by side in it are read as the character that they make up
(`readQuoted_quoted`). The escapes of the two halves are those of the character, so nothing tells
the reader that there were two code points.
-/

namespace SheetCalc

namespace Text

/-! ## Pairs in a text -/

/-- Code points in which the halves of a pair that stand side by side are put together. -/
def joinHalves : List CodePoint → List CodePoint
  | p :: q :: rest =>
    match ofPair? p.val q.val with
    | some r => r :: joinHalves rest
    | none => p :: joinHalves (q :: rest)
  | ps => ps

/-- A text in which the halves of a pair that stand side by side are put together. -/
def paired (t : Text) : Text :=
  ⟨joinHalves t.points⟩

theorem isHigh_iff {n : Nat} : isHigh n = true ↔ 0xd800 ≤ n ∧ n ≤ 0xdbff := by
  simp [isHigh]

theorem isLow_iff {n : Nat} : isLow n = true ↔ 0xdc00 ≤ n ∧ n ≤ 0xdfff := by
  simp [isLow]

theorem isHigh_of_ofPair {high low : Nat} {r : CodePoint} (pair : ofPair? high low = some r) :
    isHigh high = true ∧ isLow low = true ∧ r.val = pairValue high low := by
  unfold ofPair? CodePoint.ofNat? at pair
  generalize pairValue high low = value at pair ⊢
  split at pair
  · next halves =>
      rw [Bool.and_eq_true] at halves
      split at pair
      · rw [← Option.some.inj pair]
        exact ⟨halves.1, halves.2, rfl⟩
      · cases pair
  · cases pair

theorem ofPair_of_not_high {high : Nat} (not_high : isHigh high = false) (low : Nat) :
    ofPair? high low = none := by
  simp [ofPair?, not_high]

/-- A character is no half of a pair. -/
theorem not_half_ofChar (c : Char) :
    isHigh (CodePoint.ofChar c).val = false ∧ isLow (CodePoint.ofChar c).val = false := by
  have valid : c.toNat < 0xd800 ∨ 0xdfff < c.toNat ∧ c.toNat < 0x110000 := c.valid
  show isHigh c.toNat = false ∧ isLow c.toNat = false
  rw [← Bool.not_eq_true, ← Bool.not_eq_true, isHigh_iff, isLow_iff]
  omega

theorem joinHalves_map_ofChar (cs : List Char) :
    joinHalves (cs.map CodePoint.ofChar) = cs.map CodePoint.ofChar := by
  induction cs with
  | nil => rfl
  | cons c cs ih =>
      cases cs with
      | nil => rfl
      | cons d cs =>
          have apart := ofPair_of_not_high (not_half_ofChar c).1 (CodePoint.ofChar d).val
          simp only [List.map_cons] at ih ⊢
          rw [joinHalves, apart]
          simp only [ih]

/-- Characters stay as they are. -/
@[simp] theorem paired_ofChars (cs : List Char) : (ofChars cs).paired = ofChars cs := by
  unfold paired ofChars
  rw [joinHalves_map_ofChar]

@[simp] theorem paired_ofString (s : String) : (ofString s).paired = ofString s :=
  paired_ofChars s.toList

theorem isEmpty_paired (t : Text) : t.paired.isEmpty = t.isEmpty := by
  obtain ⟨points⟩ := t
  unfold paired isEmpty
  rcases points with _ | ⟨p, _ | ⟨q, rest⟩⟩
  · rfl
  · rfl
  · rw [joinHalves]
    split <;> rfl

/-- No high half in a text has a low half right behind it. -/
def Unpaired (t : Text) : Prop :=
  t.points.IsChain fun p q => ¬ (isHigh p.val = true ∧ isLow q.val = true)

instance (t : Text) : Decidable t.Unpaired :=
  inferInstanceAs (Decidable (t.points.IsChain _))

/-- A text stays as it is if no halves in it are a pair. -/
theorem paired_of_unpaired {t : Text} (unpaired : t.Unpaired) : t.paired = t := by
  obtain ⟨points⟩ := t
  refine ext_points ?_
  show joinHalves points = points
  replace unpaired : points.IsChain _ := unpaired
  induction unpaired with
  | nil => rfl
  | singleton p => rfl
  | @cons_cons p q rest apart _ ih =>
      rw [joinHalves]
      split
      · next pair =>
          obtain ⟨high, low, _⟩ := isHigh_of_ofPair pair
          exact absurd ⟨high, low⟩ apart
      · rw [ih]

/-! ## Hexadecimal digits -/

theorem length_hex (width n : Nat) : (hex width n).length = width := by
  induction width generalizing n with
  | zero => rfl
  | succ width ih => simp [hex, ih]

theorem hexNumber_succ (width value : Nat) (cs : List Char) :
    hexNumber? (width + 1) value cs =
      (hexNumber? width value cs).bind fun v =>
        (cs.drop width).head?.bind fun c => (hexValue? c).map fun d => 16 * v + d := by
  induction width generalizing value cs with
  | zero =>
      cases cs with
      | nil => rfl
      | cons c rest =>
          simp only [hexNumber?, Option.bind_some, List.drop_zero, List.head?_cons]
          cases hexValue? c <;> rfl
  | succ width ih =>
      cases cs with
      | nil => rfl
      | cons c rest =>
          rw [hexNumber?]
          conv => rhs; rw [hexNumber?]
          cases hexValue? c with
          | none => rfl
          | some d =>
              simp only [Option.bind_some]
              rw [ih]
              rfl

/-- The digits of a number are read back as the number, if there are enough of them. -/
theorem hexNumber_hex (width n value : Nat) (rest : List Char) :
    hexNumber? width value (hex width n ++ rest) = some (value * 16 ^ width + n % 16 ^ width) := by
  induction width generalizing n rest with
  | zero => simp [hexNumber?, Nat.mod_one]
  | succ width ih =>
      have last : hexValue? (hexDigit (n % 16)) = some (n % 16) :=
        hexValue?_hexDigit _ (Nat.mod_lt _ (by decide))
      rw [hexNumber_succ, hex, List.append_assoc, ih, List.drop_left' (length_hex width (n / 16))]
      simp only [Option.bind_some, List.singleton_append, List.head?_cons, last, Option.map_some,
        Option.some.injEq]
      rw [Nat.pow_succ, Nat.mul_comm (16 ^ width) 16, Nat.mod_mul]
      ring

end Text

namespace Json

open Text (isHigh isLow ofPair? joinHalves paired)

/-! ## Escapes -/

theorem unit_hex {n : Nat} (small : n < 0x10000) (rest : List Char) :
    unit? (Text.hex 4 n ++ rest) = some n := by
  unfold unit?
  have same : n % 16 ^ 4 = n := Nat.mod_eq_of_lt small
  rw [Text.hexNumber_hex, Nat.zero_mul, Nat.zero_add, same]

theorem lowUnit_unitEscape {n : Nat} (small : n < 0x10000) (rest : List Char) :
    lowUnit? (unitEscape n ++ rest) = if isLow n then some n else none := by
  show (unit? (Text.hex 4 n ++ rest)).filter isLow = _
  rw [unit_hex small]
  cases low : isLow n <;> simp [Option.filter, low]

theorem ofUnits_hex {n : Nat} (small : n < 0x10000) (rest : List Char) :
    ofUnits? (Text.hex 4 n ++ rest) =
      match (lowUnit? rest).bind (ofPair? n) with
      | some p => some (p, 10)
      | none => (CodePoint.ofNat? n).map (·, 4) := by
  unfold ofUnits?
  have behind : (Text.hex 4 n ++ rest).drop 4 = rest := List.drop_left' (Text.length_hex 4 n)
  cases found : (lowUnit? rest).bind (ofPair? n) <;>
    simp only [unit_hex small, Option.bind_some, behind, found]

/-- How a code point is written: as a letter behind a backslash, as itself, as the escape of its
unit, or as the escapes of its two units. -/
inductive Escaped (p : CodePoint) : List Char → Prop
  | letter {letter c : Char} : letter ≠ 'u' → ofLetter? letter = some c → p = .ofChar c →
      Escaped p ['\\', letter]
  | itself {c : Char} : c ≠ '\x22' → c ≠ '\\' → 0x20 ≤ c.toNat → p = .ofChar c → Escaped p [c]
  | unit : p.val < 0x10000 → Escaped p (unitEscape p.val)
  | units {high low : Nat} : ofPair? high low = some p →
    Escaped p (unitEscape high ++ unitEscape low)

theorem eq_ofChar {p : CodePoint} {c : Char} (same : p.val = c.toNat) : p = .ofChar c := by
  obtain ⟨val, _⟩ := p
  obtain rfl : val = c.toNat := same
  rfl

/-- Every code point beyond the first plane is a pair. -/
theorem ofPair_units {p : CodePoint} (large : ¬ p.val < 0x10000) :
    ofPair? (0xd800 + (p.val - 0x10000) / 0x400) (0xdc00 + (p.val - 0x10000) % 0x400) = some p := by
  have bound := p.isLt
  have high : isHigh (0xd800 + (p.val - 0x10000) / 0x400) = true := by
    rw [Text.isHigh_iff]
    omega
  have low : isLow (0xdc00 + (p.val - 0x10000) % 0x400) = true := by
    rw [Text.isLow_iff]
    omega
  have value : Text.pairValue (0xd800 + (p.val - 0x10000) / 0x400)
      (0xdc00 + (p.val - 0x10000) % 0x400) = p.val := by
    unfold Text.pairValue
    omega
  unfold ofPair? CodePoint.ofNat?
  rw [high, low, value]
  simp [bound]

theorem Escaped.ofLetter {p : CodePoint} (letter c : Char) (no_unit : letter ≠ 'u')
    (read : ofLetter? letter = some c) (same : p.val = c.toNat) : Escaped p ['\\', letter] :=
  .letter no_unit read (eq_ofChar same)

theorem escaped (p : CodePoint) : Escaped p (escape p) := by
  have printable : ∀ n ≤ 0x7e, 0x20 ≤ n → (Char.ofNat n).toNat = n := by decide
  unfold escape
  simp only
  -- The seven characters that have a letter of their own come first.
  split
  · next same => exact .ofLetter '\x22' '\x22' (by decide) (by rfl) same
  split
  · next same => exact .ofLetter '\\' '\\' (by decide) (by rfl) same
  split
  · next same => exact .ofLetter 'b' '\x08' (by decide) (by rfl) same
  split
  · next same => exact .ofLetter 't' '\t' (by decide) (by rfl) same
  split
  · next same => exact .ofLetter 'n' '\n' (by decide) (by rfl) same
  split
  · next same => exact .ofLetter 'f' '\x0c' (by decide) (by rfl) same
  split
  · next same => exact .ofLetter 'r' '\r' (by decide) (by rfl) same
  split
  · next no_quote no_backslash _ _ _ _ _ bounds =>
      have same := printable p.val bounds.2 bounds.1
      refine .itself ?_ ?_ (by omega) (eq_ofChar same.symm)
      · intro quote
        rw [quote] at same
        exact no_quote same.symm
      · intro backslash
        rw [backslash] at same
        exact no_backslash same.symm
  · unfold Text.unitsOf
    split
    · next small => exact (List.flatMap_singleton _ _).symm ▸ .unit small
    · next large =>
        have pair := Escaped.units (ofPair_units large)
        simpa using pair

/-- A low half shows in front of a text by its escape, and nothing else does. -/
theorem lowUnit_escape (p : CodePoint) (rest : List Char) :
    lowUnit? (escape p ++ rest) = if isLow p.val then some p.val else none := by
  have written := escaped p
  generalize escape p = cs at written ⊢
  cases written with
  | @letter letter c no_unit _ same =>
      rw [same, (Text.not_half_ofChar c).2]
      show lowUnit? ('\\' :: letter :: rest) = none
      unfold lowUnit?
      split
      · next same =>
          simp only [List.cons.injEq] at same
          exact absurd same.2.1 no_unit
      · rfl
  | @itself c _ no_backslash _ same =>
      rw [same, (Text.not_half_ofChar c).2]
      show lowUnit? (c :: rest) = none
      unfold lowUnit?
      split
      · next same =>
          simp only [List.cons.injEq] at same
          exact absurd same.1 no_backslash
      · rfl
  | unit small => exact lowUnit_unitEscape small rest
  | @units high low pair =>
      obtain ⟨is_high, _, value⟩ := Text.isHigh_of_ofPair pair
      rw [Text.isHigh_iff] at is_high
      have first : isLow high = false := by
        rw [← Bool.not_eq_true, Text.isLow_iff]
        omega
      have whole : isLow p.val = false := by
        rw [value, ← Bool.not_eq_true, Text.isLow_iff]
        unfold Text.pairValue
        omega
      rw [whole, List.append_assoc, lowUnit_unitEscape (by omega), first]
      rfl

/-! ## Reading between quotes -/

theorem readQuoted_unit {p : CodePoint} (small : p.val < 0x10000) {rest : List Char}
    (alone : (lowUnit? rest).bind (ofPair? p.val) = none) (done : List CodePoint) :
    readQuoted? done (unitEscape p.val ++ rest) = readQuoted? (p :: done) rest := by
  have found : ofUnits? (Text.hex 4 p.val ++ rest) = some (p, 4) := by
    rw [ofUnits_hex small, alone]
    simp [CodePoint.ofNat?, p.isLt]
  show readQuoted? done ('\\' :: 'u' :: (Text.hex 4 p.val ++ rest)) = _
  rw [readQuoted?]
  simp only [found, List.drop_left' (Text.length_hex 4 p.val)]
  rfl

theorem readQuoted_units {high low : Nat} {p : CodePoint} (pair : ofPair? high low = some p)
    (done : List CodePoint) (rest : List Char) :
    readQuoted? done (unitEscape high ++ unitEscape low ++ rest) =
      readQuoted? (p :: done) rest := by
  obtain ⟨is_high, is_low, _⟩ := Text.isHigh_of_ofPair pair
  have low_unit := lowUnit_unitEscape (n := low) (by rw [Text.isLow_iff] at is_low; omega) rest
  rw [is_low, if_pos rfl] at low_unit
  rw [Text.isHigh_iff] at is_high
  have found : ofUnits? (Text.hex 4 high ++ (unitEscape low ++ rest)) = some (p, 10) := by
    rw [ofUnits_hex (by omega), low_unit, Option.bind_some, pair]
  have length : (Text.hex 4 high ++ unitEscape low).length = 10 := by
    simp [unitEscape, Text.length_hex]
  have behind : (Text.hex 4 high ++ (unitEscape low ++ rest)).drop 10 = rest := by
    rw [← List.append_assoc, List.drop_left' length]
  show readQuoted? done ('\\' :: 'u' :: (Text.hex 4 high ++ unitEscape low ++ rest)) = _
  rw [List.append_assoc, readQuoted?]
  simp only [found, behind]
  rfl

/-- A code point is read back, unless it is the high half of a pair and the low one comes behind. -/
theorem readQuoted_escape {p : CodePoint} {rest : List Char}
    (alone : (lowUnit? rest).bind (ofPair? p.val) = none) (done : List CodePoint) :
    readQuoted? done (escape p ++ rest) = readQuoted? (p :: done) rest := by
  have written := escaped p
  generalize escape p = cs at written ⊢
  cases written with
  | @letter letter c no_unit read same =>
      show readQuoted? done ('\\' :: letter :: rest) = _
      rw [readQuoted?, if_neg (by decide), if_pos rfl]
      simp only [if_neg no_unit, read, same]
  | @itself c no_quote no_backslash printable same =>
      show readQuoted? done (c :: rest) = _
      rw [readQuoted?.eq_def]
      simp only [if_neg no_quote, if_neg no_backslash]
      rw [if_neg (by omega), same]
  | unit small => exact readQuoted_unit small alone done
  | units pair => exact readQuoted_units pair done rest

/-- A half of a pair is written as its unit. -/
theorem escape_half {p : CodePoint} (half : isHigh p.val = true ∨ isLow p.val = true) :
    escape p = unitEscape p.val := by
  have no_char (c : Char) (same : p = .ofChar c) : False := by
    have := Text.not_half_ofChar c
    rw [← same] at this
    simp [this] at half
  have written := escaped p
  generalize escape p = cs at written ⊢
  cases written with
  | letter _ _ same => exact (no_char _ same).elim
  | itself _ _ _ same => exact (no_char _ same).elim
  | unit _ => rfl
  | units pair =>
      have value := (Text.isHigh_of_ofPair pair).2.2
      unfold Text.pairValue at value
      rw [Text.isHigh_iff, Text.isLow_iff] at half
      omega

/-- Two halves of a pair are read as the character that they make up. -/
theorem readQuoted_halves {p q r : CodePoint} (pair : ofPair? p.val q.val = some r)
    (done : List CodePoint) (rest : List Char) :
    readQuoted? done (escape p ++ (escape q ++ rest)) = readQuoted? (r :: done) rest := by
  obtain ⟨is_high, is_low, _⟩ := Text.isHigh_of_ofPair pair
  rw [escape_half (.inl is_high), escape_half (.inr is_low), ← List.append_assoc,
    readQuoted_units pair]

theorem readQuoted_end (done : List CodePoint) (rest : List Char) :
    readQuoted? done ('\x22' :: rest) = some (⟨done.reverse⟩, rest) := by
  rw [readQuoted?.eq_def]
  rfl

/-- **A text comes back from between quotes**, with the halves of pairs in it put together. -/
theorem readQuoted_quoted (t : Text) (rest : List Char) :
    readQuoted? [] (t.points.flatMap escape ++ '\x22' :: rest) = some (t.paired, rest) := by
  have no_low : lowUnit? ('\x22' :: rest) = none := rfl
  have after (ps done : List CodePoint) :
      readQuoted? done (ps.flatMap escape ++ '\x22' :: rest) =
        some (⟨done.reverse ++ joinHalves ps⟩, rest) := by
    fun_induction joinHalves ps generalizing done with
    | case1 p q ps r pair ih =>
        rw [List.flatMap_cons, List.flatMap_cons, List.append_assoc, List.append_assoc,
          readQuoted_halves pair, ih]
        simp
    | case2 p q ps apart ih =>
        have alone : (lowUnit? ((q :: ps).flatMap escape ++ '\x22' :: rest)).bind
            (ofPair? p.val) = none := by
          rw [List.flatMap_cons, List.append_assoc, lowUnit_escape]
          split <;> simp [apart]
        rw [List.flatMap_cons, List.append_assoc, readQuoted_escape alone, ih]
        simp
    | case3 ps short =>
        rcases ps with _ | ⟨p, _ | ⟨q, ps⟩⟩
        · rw [List.flatMap_nil, List.nil_append, readQuoted_end, List.append_nil]
        · have alone : (lowUnit? ('\x22' :: rest)).bind (ofPair? p.val) = none := by
            rw [no_low, Option.bind_none]
          rw [List.flatMap_singleton, readQuoted_escape alone, readQuoted_end, List.reverse_cons]
        · exact absurd rfl (short p q ps)
  exact after t.points []

end Json

end SheetCalc
