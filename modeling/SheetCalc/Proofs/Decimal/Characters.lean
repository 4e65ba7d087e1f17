import SheetCalc.Decimal.Layout

/-!
# What numbers are written with

A number is written with digits, signs, a point and an `e` before its exponent, however large it is
and in whichever layout. So what holds of these characters holds of all characters of its text
(`Numeric.intText`, `Numeric.layoutText`). What is not finite is written as a name
(`floatText_infinite`).
-/

namespace SheetCalc.Decimal

/-- What holds of all characters that numbers are written with. -/
structure Numeric (holds : Char → Bool) : Prop where
  digit : ∀ c, Text.isDigit c = true → holds c = true
  minus : holds '-' = true
  plus : holds '+' = true
  point : holds '.' = true
  exponent : holds 'e' = true

section

variable {holds : Char → Bool} (numeric : Numeric holds)

include numeric

theorem Numeric.zero : holds '0' = true :=
  numeric.digit '0' (by decide)

theorem Numeric.zeros (n : Nat) : ∀ c ∈ List.replicate n '0', holds c = true := by
  intro c there
  rw [List.eq_of_mem_replicate there]
  exact numeric.zero

theorem Numeric.digits (n : Nat) : ∀ c ∈ digits n, holds c = true :=
  fun c there => numeric.digit c (isDigit_of_mem_digits there)

theorem Numeric.signed {s : String} (all : ∀ c ∈ s.toList, holds c = true) :
    ∀ c ∈ ("-" ++ s).toList, holds c = true := by
  rw [String.toList_append]
  exact List.forall_mem_cons.mpr ⟨numeric.minus, all⟩

theorem Numeric.intText (n : Int) : ∀ c ∈ (intText n).toList, holds c = true := by
  have natural : ∀ c ∈ (natText n.natAbs).toList, holds c = true := by
    rw [natText, String.toList_ofList]
    exact numeric.digits _
  unfold Decimal.intText
  split
  · exact numeric.signed natural
  · exact natural

theorem Numeric.exponentText (e : Int) : ∀ c ∈ exponentText e, holds c = true := by
  have sign : holds (if e < 0 then '-' else '+') = true := by
    split
    · exact numeric.minus
    · exact numeric.plus
  have number : ∀ c ∈ (if (Decimal.digits e.natAbs).length < 2 then '0' :: Decimal.digits e.natAbs
      else Decimal.digits e.natAbs), holds c = true := by
    split
    · exact List.forall_mem_cons.mpr ⟨numeric.zero, numeric.digits _⟩
    · exact numeric.digits _
  exact List.forall_mem_cons.mpr ⟨numeric.exponent, List.forall_mem_cons.mpr ⟨sign, number⟩⟩

theorem Numeric.pointed {ds wholeEnd : List Char} (all : ∀ c ∈ ds, holds c = true)
    (ending : ∀ c ∈ wholeEnd, holds c = true) (lead : Int) :
    ∀ c ∈ pointed ds lead wholeEnd, holds c = true := by
  unfold Decimal.pointed
  split
  · exact List.forall_mem_cons.mpr ⟨numeric.zero, List.forall_mem_cons.mpr ⟨numeric.point,
      List.forall_mem_append.mpr ⟨numeric.zeros _, all⟩⟩⟩
  · simp only
    split
    · exact List.forall_mem_append.mpr ⟨List.forall_mem_append.mpr ⟨all, numeric.zeros _⟩, ending⟩
    · exact List.forall_mem_append.mpr ⟨fun c there => all c (List.mem_of_mem_take there),
        List.forall_mem_cons.mpr ⟨numeric.point, fun c there => all c (List.mem_of_mem_drop there)⟩⟩

theorem Numeric.scientific {ds : List Char} (all : ∀ c ∈ ds, holds c = true) (lead : Int) :
    ∀ c ∈ scientific ds lead, holds c = true := by
  have power := numeric.exponentText lead
  rcases ds with _ | ⟨d, _ | ⟨e, rest⟩⟩
  · exact power
  · exact List.forall_mem_append.mpr ⟨all, power⟩
  · obtain ⟨first, others⟩ := List.forall_mem_cons.mp all
    exact List.forall_mem_cons.mpr ⟨first, List.forall_mem_cons.mpr ⟨numeric.point,
      List.forall_mem_append.mpr ⟨others, power⟩⟩⟩

theorem Numeric.write {layout : Layout} (ending : ∀ c ∈ layout.wholeEnd, holds c = true)
    (coefficient : Nat) (unit : Int) :
    ∀ c ∈ layout.write coefficient unit, holds c = true := by
  have kept : ∀ c ∈ dropTrailingZeros (Decimal.digits coefficient), holds c = true := by
    intro c there
    have within := (List.dropWhile_sublist _).subset (List.mem_reverse.mp there)
    exact numeric.digits coefficient c (List.mem_reverse.mp within)
  unfold Layout.write
  simp only
  split
  · exact numeric.pointed kept ending _
  · exact numeric.scientific kept _

/-- A layout adds only what a whole number ends in and the names of what is not finite. -/
theorem Numeric.layoutText (layout : Layout) (ending : layout.wholeEnd.all holds = true)
    (infinity : layout.infinity.toList.all holds = true) (nan : layout.nan.toList.all holds = true)
    (pick : Nat → Int → Nat × Int) (x : Float) :
    ∀ c ∈ (layout.text pick x).toList, holds c = true := by
  rw [List.all_eq_true] at ending infinity nan
  have signed {s : String} (all : ∀ c ∈ s.toList, holds c = true) :
      ∀ c ∈ (if isNegative x then "-" ++ s else s).toList, holds c = true := by
    split
    · exact numeric.signed all
    · exact all
  unfold Layout.text
  simp only
  split
  · exact nan
  · exact signed infinity
  · split
    · refine signed ?_
      rw [String.toList_ofList]
      exact List.forall_mem_cons.mpr ⟨numeric.zero, ending⟩
    · refine signed ?_
      rw [String.toList_ofList]
      exact numeric.write ending _ _

end

/-! ## Names -/

theorem lt_iff {x y : Float} : x < y ↔ x.toModel.unpack.lt y.toModel.unpack = true :=
  decide_eq_true_iff

/-- The names of what is not finite. -/
theorem floatText_infinite {x : Float} (infinite : x.isFinite = false) :
    (x.isNaN = true ∧ floatText x = "nan") ∨ (0 < x ∧ floatText x = "inf") ∨
      (x < 0 ∧ floatText x = "-inf") := by
  unfold floatText Layout.text
  rcases unpack_of_infinite infinite with ⟨size, unpacked⟩ | ⟨size, unpacked⟩
  · refine .inl ⟨?_, by simp only [size]; rfl⟩
    unfold Float.isNaN Float.Model.isNaN
    rw [unpacked]
    rfl
  · have zero : (0 : Float).toModel.unpack = .zero .positive := by rfl
    right
    simp only [size]
    cases sign : isNegative x with
    | true =>
        rw [sign] at unpacked
        refine .inr ⟨?_, rfl⟩
        rw [lt_iff, unpacked, zero]
        rfl
    | false =>
        rw [sign] at unpacked
        refine .inl ⟨?_, rfl⟩
        rw [lt_iff, unpacked, zero]
        rfl

end SheetCalc.Decimal
