import SheetCalc.Proofs.Json.Floats

/-!
# Strict JSON

The grammar of JSON, in which a number is made of digits and no name stands for one (`IsStrict`). A
value is written in it if the floats in it are finite (`strict_write`); the text of a float that is
not finite is never in it (`strict_float_iff`).
-/

namespace SheetCalc

namespace Json

open Text (isDigit)

/-! ## Numbers and texts -/

/-- At least one digit, and nothing else. -/
structure IsDigits (ds : List Char) : Prop where
  digits : ∀ d ∈ ds, isDigit d = true
  some : ds ≠ []

/-- A point and digits behind it, or nothing. -/
inductive StrictFraction : List Char → Prop
  | none : StrictFraction []
  | some {ds : List Char} : IsDigits ds → StrictFraction ('.' :: ds)

/-- An `e`, a sign that can be left out, and digits; or nothing. -/
inductive StrictExponent : List Char → Prop
  | none : StrictExponent []
  | some {e : Char} {sign ds : List Char} : e ∈ ['e', 'E'] → sign ∈ [[], ['+'], ['-']] →
      IsDigits ds → StrictExponent (e :: (sign ++ ds))

/-- A number. Its whole part has no zeros in front of it. -/
inductive StrictNumber : List Char → Prop
  | parts {minus whole fraction exponent : List Char} : minus ∈ [[], ['-']] → Whole whole →
      StrictFraction fraction → StrictExponent exponent →
      StrictNumber (minus ++ whole ++ fraction ++ exponent)

/-- What stands between the quotes of a text: characters that are no controls, quotes or
backslashes, escapes of one letter, and escapes of units. -/
inductive StrictCharacters : List Char → Prop
  | nil : StrictCharacters []
  | itself {c : Char} {rest : List Char} : 0x20 ≤ c.toNat → c ≠ '\x22' → c ≠ '\\' →
      StrictCharacters rest → StrictCharacters (c :: rest)
  | letter {c : Char} {rest : List Char} : c ∈ ['\x22', '\\', '/', 'b', 'f', 'n', 'r', 't'] →
      StrictCharacters rest → StrictCharacters ('\\' :: c :: rest)
  | unit {ds rest : List Char} : ds.length = 4 → (∀ d ∈ ds, (Text.hexValue? d).isSome) →
      StrictCharacters rest → StrictCharacters ('\\' :: 'u' :: (ds ++ rest))

/-- A text between quotes. -/
inductive StrictText : List Char → Prop
  | quotes {cs : List Char} : StrictCharacters cs → StrictText ('\x22' :: (cs ++ ['\x22']))

/-! ## Values -/

mutual

/-- A value. -/
inductive StrictValue : List Char → Prop
  | null : StrictValue ['n', 'u', 'l', 'l']
  | true : StrictValue ['t', 'r', 'u', 'e']
  | false : StrictValue ['f', 'a', 'l', 's', 'e']
  | number {cs : List Char} : StrictNumber cs → StrictValue cs
  | text {cs : List Char} : StrictText cs → StrictValue cs
  | emptyList {gap : List Char} : Blanks gap → StrictValue ('[' :: (gap ++ [']']))
  | list {cs : List Char} : StrictItems cs → StrictValue ('[' :: (cs ++ [']']))
  | emptyMapping {gap : List Char} : Blanks gap → StrictValue ('\x7b' :: (gap ++ ['\x7d']))
  | mapping {cs : List Char} : StrictEntries cs → StrictValue ('\x7b' :: (cs ++ ['\x7d']))

/-- Values with commas between them and blanks around them. -/
inductive StrictItems : List Char → Prop
  | last {front cs behind : List Char} : Blanks front → StrictValue cs → Blanks behind →
      StrictItems (front ++ (cs ++ behind))
  | more {front cs behind rest : List Char} : Blanks front → StrictValue cs → Blanks behind →
      StrictItems rest → StrictItems (front ++ (cs ++ (behind ++ ',' :: rest)))

/-- Entries, each a text with a colon and a value behind it, with commas between them and blanks
around all of these. -/
inductive StrictEntries : List Char → Prop
  | last {front key gap pause cs behind : List Char} : Blanks front → StrictText key → Blanks gap →
      Blanks pause → StrictValue cs → Blanks behind →
      StrictEntries (front ++ (key ++ (gap ++ ':' :: (pause ++ (cs ++ behind)))))
  | more {front key gap pause cs behind rest : List Char} : Blanks front → StrictText key →
      Blanks gap → Blanks pause → StrictValue cs → Blanks behind → StrictEntries rest →
      StrictEntries (front ++ (key ++ (gap ++ ':' :: (pause ++ (cs ++ (behind ++ ',' :: rest))))))

end

/-- A text that is one value, with blanks around it. -/
inductive IsStrict : List Char → Prop
  | value {front cs behind : List Char} : Blanks front → StrictValue cs → Blanks behind →
      IsStrict (front ++ (cs ++ behind))

/-! ## Scalars that are written -/

theorem strict_numberText (negative : Bool) {whole fraction : List Char} (e : Option Int)
    (is_whole : Whole whole) (digits : ∀ d ∈ fraction, isDigit d = true) :
    StrictNumber (numberText negative whole fraction e) := by
  unfold numberText
  refine .parts ?_ is_whole ?_ ?_
  · cases negative <;> decide
  · unfold fractionText
    split
    · exact .none
    · next some => exact .some ⟨digits, by simpa using some⟩
  · cases e with
    | none => exact .none
    | some e =>
        show StrictExponent (Decimal.exponentText e)
        unfold Decimal.exponentText
        have number : ∀ d ∈ Decimal.digits e.natAbs, isDigit d = true :=
          fun d there => Decimal.isDigit_of_mem_digits there
        have padded : IsDigits (if (Decimal.digits e.natAbs).length < 2 then
            '0' :: Decimal.digits e.natAbs else Decimal.digits e.natAbs) := by
          split
          · exact ⟨List.forall_mem_cons.mpr ⟨by decide, number⟩, List.cons_ne_nil _ _⟩
          · exact ⟨number, Decimal.digits_ne_nil _⟩
        have sign : [if e < 0 then '-' else '+'] ∈ [[], ['+'], ['-']] := by
          split <;> decide
        exact .some (by decide) sign padded

theorem strict_intText (n : Int) : StrictNumber (Decimal.intText n).toList := by
  rw [intText_eq]
  exact strict_numberText _ none (whole_digits _) nofun

theorem strict_jsonFloatText {x : Float} (finite : x.isFinite = true) :
    StrictNumber (Decimal.jsonFloatText x).toList := by
  obtain ⟨_, ⟨whole, fraction, e, same, is_whole, digits, _⟩, _⟩ := isDecimal_jsonFloatText finite
  rw [same]
  exact strict_numberText _ e is_whole digits

theorem isHex_hexDigit {n : Nat} (less : n < 16) : (Text.hexValue? (Text.hexDigit n)).isSome := by
  rw [Text.hexValue?_hexDigit n less]
  rfl

theorem isHex_hex (width n : Nat) : ∀ d ∈ Text.hex width n, (Text.hexValue? d).isSome := by
  induction width generalizing n with
  | zero => exact nofun
  | succ width ih =>
      rw [Text.hex]
      intro d there
      rcases List.mem_append.mp there with front | last
      · exact ih (n / 16) d front
      · rw [List.mem_singleton.mp last]
        exact isHex_hexDigit (Nat.mod_lt n (by decide))

theorem strict_unitEscape (n : Nat) {rest : List Char} (behind : StrictCharacters rest) :
    StrictCharacters (unitEscape n ++ rest) :=
  .unit (Text.length_hex 4 n) (isHex_hex 4 n) behind

theorem strict_escape (p : CodePoint) {rest : List Char} (behind : StrictCharacters rest) :
    StrictCharacters (escape p ++ rest) := by
  have how := escaped p
  generalize escape p = cs at how ⊢
  cases how with
  | letter no_unit read _ =>
      refine .letter ?_ behind
      unfold ofLetter? at read
      grind
  | itself no_quote no_backslash bound _ => exact .itself bound no_quote no_backslash behind
  | unit => exact strict_unitEscape _ behind
  | units =>
      rw [List.append_assoc]
      exact strict_unitEscape _ (strict_unitEscape _ behind)

theorem strict_quoted (t : Text) : StrictText (quoted t) := by
  refine .quotes ?_
  induction t.points with
  | nil => exact .nil
  | cons p ps ih =>
      rw [List.flatMap_cons]
      exact strict_escape p ih

end Json

/-! ## Values that are written -/

mutual

/-- Whether all floats in a value are finite. The keys of mappings are written as texts in any
case. -/
def Value.isFinite : Value → Bool
  | .float x => x.isFinite
  | .list items => Value.areFinite items
  | .mapping entries => Value.areEntriesFinite entries
  | _ => true

/-- Whether all floats in the items of a list are finite. -/
def Value.areFinite : List Value → Bool
  | [] => true
  | v :: vs => v.isFinite && Value.areFinite vs

/-- Whether all floats in the values of a mapping are finite. -/
def Value.areEntriesFinite : List (Key × Value) → Bool
  | [] => true
  | (_, v) :: es => v.isFinite && Value.areEntriesFinite es

end

theorem Value.areFinite_iff {vs : List Value} :
    Value.areFinite vs = true ↔ ∀ v ∈ vs, v.isFinite = true := by
  induction vs with
  | nil => simp [Value.areFinite]
  | cons v vs ih => rw [Value.areFinite, Bool.and_eq_true, List.forall_mem_cons, ih]

theorem Value.areEntriesFinite_iff {es : List (Key × Value)} :
    Value.areEntriesFinite es = true ↔ ∀ e ∈ es, e.2.isFinite = true := by
  induction es with
  | nil => simp [Value.areEntriesFinite]
  | cons e es ih =>
      obtain ⟨k, v⟩ := e
      rw [Value.areEntriesFinite, Bool.and_eq_true, List.forall_mem_cons, ih]

namespace Json

mutual

/-- Putting keys in order leaves floats as they are. -/
theorem isFinite_sortKeys : ∀ v : Value, v.isFinite = true → (sortKeys v).isFinite = true
  | .null, finite | .bool _, finite | .int _, finite | .float _, finite | .text _, finite => by
      rw [sortKeys] <;> first | exact finite | nofun
  | .list items, finite => by
      rw [Value.isFinite] at finite
      rw [sortKeys, Value.isFinite]
      exact areFinite_sortItems items finite
  | .mapping entries, finite => by
      rw [Value.isFinite] at finite
      have sorted := Value.areEntriesFinite_iff.mp (areEntriesFinite_sortEntries entries finite)
      rw [sortKeys, Value.isFinite, Value.areEntriesFinite_iff]
      exact fun e there => sorted e ((List.mergeSort_perm _ entryLe).mem_iff.mp there)

theorem areFinite_sortItems : ∀ vs : List Value, Value.areFinite vs = true →
    Value.areFinite (sortItems vs) = true
  | [], _ => by rw [sortItems, Value.areFinite]
  | v :: vs, finite => by
      rw [Value.areFinite, Bool.and_eq_true] at finite
      rw [sortItems, Value.areFinite, isFinite_sortKeys v finite.1, areFinite_sortItems vs finite.2]
      rfl

theorem areEntriesFinite_sortEntries : ∀ es : List (Key × Value), Value.areEntriesFinite es = true →
    Value.areEntriesFinite (sortEntries es) = true
  | [], _ => by rw [sortEntries, Value.areEntriesFinite]
  | (k, v) :: es, finite => by
      rw [Value.areEntriesFinite, Bool.and_eq_true] at finite
      rw [sortEntries, Value.areEntriesFinite, isFinite_sortKeys v finite.1,
        areEntriesFinite_sortEntries es finite.2]
      rfl

end

theorem blanks_space : Blanks [' '] := by
  intro c there
  rw [List.mem_singleton.mp there]
  decide

mutual

/-- A value of which all floats are finite is written as a strict one, in either style. -/
theorem strictValue_write (style : Style) (level : Nat) : ∀ v : Value, v.isFinite = true →
    StrictValue (write style level v)
  | .null => fun _ => by
      rw [write]
      exact .null
  | .bool true => fun _ => by
      rw [write]
      exact .true
  | .bool false => fun _ => by
      rw [write]
      exact .false
  | .int n => fun _ => by
      rw [write]
      exact .number (strict_intText n)
  | .float x => fun finite => by
      rw [Value.isFinite] at finite
      rw [write]
      exact .number (strict_jsonFloatText finite)
  | .text s => fun _ => by
      rw [write]
      exact .text (strict_quoted s)
  | .list [] => fun _ => by
      rw [write]
      exact @StrictValue.emptyList [] nofun
  | .list (v :: vs) => fun finite => by
      rw [Value.isFinite] at finite
      have items :=
        strictItems_writeItems style (level + 1) (v :: vs) (List.cons_ne_nil v vs) finite
        (style.inside (level + 1)) (style.inside level) (blanks_inside style _)
        (blanks_inside style _)
      rw [write]
      · simpa using StrictValue.list items
      · exact List.cons_ne_nil v vs
  | .mapping [] => fun _ => by
      rw [write]
      exact @StrictValue.emptyMapping [] nofun
  | .mapping (e :: es) => fun finite => by
      rw [Value.isFinite] at finite
      have entries := strictEntries_writeEntries style (level + 1) (e :: es) (List.cons_ne_nil e es)
        finite (style.inside (level + 1)) (style.inside level) (blanks_inside style _)
        (blanks_inside style _)
      rw [write]
      · simpa using StrictValue.mapping entries
      · exact List.cons_ne_nil e es

theorem strictItems_writeItems (style : Style) (level : Nat) : ∀ vs : List Value, vs ≠ [] →
    Value.areFinite vs = true → ∀ front behind : List Char, Blanks front → Blanks behind →
    StrictItems (front ++ (writeItems style level vs ++ behind))
  | [] => fun some => absurd rfl some
  | [v] => fun _ finite front behind before after => by
      rw [Value.areFinite, Bool.and_eq_true] at finite
      rw [writeItems]
      exact .last before (strictValue_write style level v finite.1) after
  | v :: w :: vs => fun _ finite front behind before after => by
      rw [Value.areFinite, Bool.and_eq_true] at finite
      obtain ⟨pause, between, blanks⟩ := between_eq style level
      have rest := strictItems_writeItems style level (w :: vs) (List.cons_ne_nil w vs) finite.2
        pause behind blanks after
      have items := StrictItems.more before (strictValue_write style level v finite.1)
        (show Blanks [] from nofun) rest
      rw [writeItems, between]
      · simpa using items
      · exact List.cons_ne_nil w vs

theorem strictEntries_writeEntries (style : Style) (level : Nat) :
    ∀ es : List (Key × Value), es ≠ [] →
    Value.areEntriesFinite es = true → ∀ front behind : List Char, Blanks front → Blanks behind →
    StrictEntries (front ++ (writeEntries style level es ++ behind))
  | [] => fun some => absurd rfl some
  | [(k, v)] => fun _ finite front behind before after => by
      rw [Value.areEntriesFinite, Bool.and_eq_true] at finite
      have entries :=
        StrictEntries.last before (strict_quoted k.jsonText) (show Blanks [] from nofun)
        blanks_space (strictValue_write style level v finite.1) after
      rw [writeEntries]
      simpa using entries
  | (k, v) :: e :: es => fun _ finite front behind before after => by
      rw [Value.areEntriesFinite, Bool.and_eq_true] at finite
      obtain ⟨pause, between, blanks⟩ := between_eq style level
      have rest := strictEntries_writeEntries style level (e :: es) (List.cons_ne_nil e es) finite.2
        pause behind blanks after
      have entries := StrictEntries.more before (strict_quoted k.jsonText)
        (show Blanks [] from nofun) blanks_space (strictValue_write style level v finite.1)
        (show Blanks [] from nofun) rest
      rw [writeEntries, between]
      · simpa using entries
      · exact List.cons_ne_nil e es

end

/-- **JSON that is written is strict if all floats in it are finite.** -/
theorem strict_write (style : Style) {v : Value} (finite : v.isFinite = true) :
    IsStrict (write style 0 v) := by
  have value := IsStrict.value (show Blanks [] from nofun) (strictValue_write style 0 v finite)
    (show Blanks [] from nofun)
  rwa [List.nil_append, List.append_nil] at value

/-! ## Names for what is not finite -/

/-- How no name for what is not finite begins. -/
def NoName : List Char → Prop
  | '-' :: d :: _ => d ≠ 'I'
  | c :: _ => c ≠ 'N' ∧ c ≠ 'I' ∧ c ≠ '-'
  | [] => False

theorem StrictNumber.noName {cs : List Char} (number : StrictNumber cs) (behind : List Char) :
    NoName (cs ++ behind) := by
  cases number with
  | @parts minus whole fraction exponent sign is_whole _ _ =>
      obtain ⟨d, head⟩ := is_whole.head
      have bounds := isDigit_bounds (is_whole.digits d (List.mem_of_mem_head? head))
      obtain ⟨more, rfl⟩ : ∃ more, whole = d :: more := by
        cases whole with
        | nil => cases head
        | cons c more => exact ⟨more, congrArg (· :: more) (Option.some.inj head)⟩
      have apart {c : Char} (other : ¬ (0x30 ≤ c.toNat ∧ c.toNat ≤ 0x39)) : d ≠ c := by
        rintro rfl
        exact other bounds
      have no_minus : d ≠ '-' := apart (by decide)
      rcases List.mem_pair.mp sign with rfl | rfl
      · show NoName (d :: _)
        unfold NoName
        split
        · next same => exact absurd (List.cons.inj same).1 no_minus
        · next same =>
            rw [← (List.cons.inj same).1]
            exact ⟨apart (by decide), apart (by decide), no_minus⟩
        · next same => cases same
      · exact apart (by decide)

theorem StrictValue.noName {cs : List Char} (value : StrictValue cs) (behind : List Char) :
    NoName (cs ++ behind) := by
  have solid {c : Char} (other : c ≠ 'N' ∧ c ≠ 'I' ∧ c ≠ '-') (rest : List Char) :
      NoName (c :: rest) := by
    unfold NoName
    split
    · next same => exact absurd (List.cons.inj same).1 other.2.2
    · next same => exact (List.cons.inj same).1 ▸ other
    · next same => cases same
  cases value with
  | number number => exact number.noName behind
  | text text =>
      cases text
      exact solid (by decide) _
  | _ => exact solid (by decide) _

/-- A name for what is not finite is not strict JSON. -/
theorem not_strict_name {name : String} (there : name ∈ ["NaN", "Infinity", "-Infinity"]) :
    ¬ IsStrict name.toList := by
  have shape : (∃ c rest, name.toList = c :: rest ∧ isBlank c = false) ∧ ¬ NoName name.toList := by
    simp only [List.mem_cons, List.not_mem_nil, or_false] at there
    rcases there with rfl | rfl | rfl
    · exact ⟨⟨_, _, rfl, by decide⟩, fun no_name => no_name.1 rfl⟩
    · exact ⟨⟨_, _, rfl, by decide⟩, fun no_name => no_name.2.1 rfl⟩
    · exact ⟨⟨_, _, rfl, by decide⟩, fun no_name => no_name rfl⟩
  obtain ⟨⟨c, rest, same, solid⟩, named⟩ := shape
  intro strict
  generalize name.toList = text at strict same named
  cases strict with
  | @value front cs behind before value _ =>
      cases front with
      | nil => exact named (value.noName behind)
      | cons b front =>
          have blank := before b List.mem_cons_self
          rw [(List.cons.inj same).1, solid] at blank
          cases blank

theorem jsonFloatText_name {x : Float} (infinite : x.isFinite = false) :
    Decimal.jsonFloatText x ∈ ["NaN", "Infinity", "-Infinity"] := by
  unfold Decimal.jsonFloatText Decimal.Layout.text
  rcases Decimal.unpack_of_infinite infinite with ⟨nan, _⟩ | ⟨infinity, _⟩
  · simp only [nan]
    decide
  · simp only [infinity]
    split <;> decide

/-- The text of a float is strict JSON exactly if the float is finite. -/
theorem strict_float_iff {x : Float} :
    IsStrict (Decimal.jsonFloatText x).toList ↔ x.isFinite = true := by
  constructor
  · intro strict
    by_contra infinite
    rw [Bool.not_eq_true] at infinite
    exact not_strict_name (jsonFloatText_name infinite) strict
  · intro finite
    have written := strict_write .line (v := .float x) finite
    rwa [write] at written

end Json

end SheetCalc
