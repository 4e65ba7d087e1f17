/-!
# What a float holds

A finite float is a mantissa times a power of two. `magnitude` reads both off the bits, so that
everything that is written about a float can be decided on whole numbers.
-/

namespace SheetCalc.Decimal

/-- A float without its sign. -/
inductive Magnitude where
  /-- The value `mantissa * 2 ^ exponent`. -/
  | finite (mantissa : Nat) (exponent : Int)
  | infinite
  | nan
  deriving DecidableEq, Repr, Inhabited

/-- The sign bit; zero and the values that are not numbers have one too. -/
def isNegative (x : Float) : Bool :=
  Nat.pow 2 63 ≤ x.toBits.toNat

/-- The mantissa has 52 stored bits, and one more in front of them unless the exponent field is
zero; an exponent field of all ones is kept for what is not finite. -/
def magnitude (x : Float) : Magnitude :=
  let bits : Nat := x.toBits.toNat % Nat.pow 2 63
  let field : Nat := bits / Nat.pow 2 52
  let fraction : Nat := bits % Nat.pow 2 52
  if field = 2047 then
    if fraction = 0 then .infinite else .nan
  else if field = 0 then .finite fraction (-1074)
  else .finite (fraction + Nat.pow 2 52) ((field : Int) - 1075)

/-- The whole part of `m * 2 ^ q`, and whether it is all of it. -/
def wholePart (m : Nat) (q : Int) : Nat × Bool :=
  if 0 ≤ q then (m * Nat.pow 2 q.toNat, true)
  else (m / Nat.pow 2 (-q).toNat, m % Nat.pow 2 (-q).toNat == 0)

/-- The integer that is left of a finite float when its fraction is cut off. -/
def truncate? (x : Float) : Option Int :=
  match magnitude x with
  | .finite m q =>
    let n := (wholePart m q).1
    some (if isNegative x then -(n : Int) else n)
  | _ => none

/-- The integer that a float is equal to, if there is one. -/
def toInt? (x : Float) : Option Int :=
  match magnitude x with
  | .finite m q => if (wholePart m q).2 then truncate? x else none
  | _ => none

/-! ## What is not finite -/

open Float.Model (UnpackedFloat Format)

/-- What is not finite has an exponent field of all ones. -/
theorem isFinite_unpack {spec : Format} (bits : BitVec spec.numBits) :
    (UnpackedFloat.unpack spec bits).isFinite = false ↔
      UnpackedFloat.unpackExponent bits = -1#_ := by
  unfold UnpackedFloat.unpack
  dsimp only
  by_cases ones : UnpackedFloat.unpackExponent bits = -1#_
  · rw [if_pos ones]
    refine iff_of_true ?_ ones
    by_cases infinite : UnpackedFloat.unpackMantissa bits = 0#_
    · rw [if_pos infinite]
      rfl
    · rw [if_neg infinite]
      rfl
  · rw [if_neg ones]
    refine iff_of_false ?_ ones
    by_cases least : UnpackedFloat.unpackExponent bits = 0#_
    · rw [if_pos least]
      by_cases zero : UnpackedFloat.unpackMantissa bits = 0#_
      · rw [dif_pos zero]
        exact Bool.false_ne_true.symm
      · rw [dif_neg zero]
        exact Bool.false_ne_true.symm
    · rw [if_neg least]
      exact Bool.false_ne_true.symm

theorem isFinite_eq_false_iff {x : Float} :
    x.isFinite = false ↔ x.toBits.toNat % Nat.pow 2 63 / Nat.pow 2 52 = 2047 := by
  have field : (@UnpackedFloat.unpackExponent Format.binary64 x.toBits.toBitVec).toNat =
      x.toBits.toNat % Nat.pow 2 63 / Nat.pow 2 52 := by
    simp [UnpackedFloat.unpackExponent, Nat.shiftRight_eq_div_pow, Format.binary64]
    omega
  refine (@isFinite_unpack Format.binary64 x.toBits.toBitVec).trans ?_
  rw [← field, ← BitVec.toNat_inj]
  rfl

/-- What is not finite is unpacked as its bits say. -/
theorem unpack_of_infinite {x : Float} (infinite : x.isFinite = false) :
    (magnitude x = .nan ∧ x.toModel.unpack = .notANumber) ∨
      (magnitude x = .infinite ∧
        x.toModel.unpack = .infinity (if isNegative x then .negative else .positive)) := by
  have field := isFinite_eq_false_iff.mp infinite
  have ones : @UnpackedFloat.unpackExponent Format.binary64 x.toBits.toBitVec = -1#_ :=
    (@isFinite_unpack Format.binary64 x.toBits.toBitVec).mp infinite
  have zero : @UnpackedFloat.unpackMantissa Format.binary64 x.toBits.toBitVec = 0#_ ↔
      x.toBits.toNat % Nat.pow 2 63 % Nat.pow 2 52 = 0 := by
    have fraction : (@UnpackedFloat.unpackMantissa Format.binary64 x.toBits.toBitVec).toNat =
        x.toBits.toNat % Nat.pow 2 63 % Nat.pow 2 52 := by
      simp [UnpackedFloat.unpackMantissa, Format.binary64]
    rw [← fraction, ← BitVec.toNat_inj]
    rfl
  have bit : (@UnpackedFloat.unpackSign Format.binary64 x.toBits.toBitVec).toNat =
      x.toBits.toNat / Nat.pow 2 63 := by
    have less := x.toBits.toNat_lt
    show (x.toBits.toBitVec.extractLsb' 63 1).toNat = _
    rw [BitVec.extractLsb'_toNat, Nat.shiftRight_eq_div_pow, UInt64.toNat_toBitVec, Nat.pow_eq]
    omega
  have sign : UnpackedFloat.Sign.ofBitVec
      (@UnpackedFloat.unpackSign Format.binary64 x.toBits.toBitVec) =
        if isNegative x then .negative else .positive := by
    unfold UnpackedFloat.Sign.ofBitVec isNegative
    simp only [← BitVec.toNat_inj, bit, decide_eq_true_iff, Nat.pow_eq]
    show (if x.toBits.toNat / 2 ^ 63 = 0 then _ else _) = _
    split <;> split <;> first | rfl | omega
  have unpacked : x.toModel.unpack = UnpackedFloat.unpack Format.binary64 x.toBits.toBitVec := rfl
  unfold magnitude
  simp only
  rw [unpacked, if_pos field]
  unfold UnpackedFloat.unpack
  dsimp only
  rw [if_pos ones, sign]
  by_cases infinity : x.toBits.toNat % Nat.pow 2 63 % Nat.pow 2 52 = 0
  · rw [if_pos infinity, if_pos (zero.mpr infinity)]
    exact .inr ⟨rfl, rfl⟩
  · rw [if_neg infinity, if_neg (infinity ∘ zero.mp)]
    exact .inl ⟨rfl, rfl⟩

/-- Nothing but the infinities and what is no number is without an integer. -/
theorem truncate?_eq_none_iff {x : Float} : truncate? x = none ↔ x.isFinite = false := by
  rw [isFinite_eq_false_iff]
  unfold truncate? magnitude
  simp only
  split <;> grind

/-- A float is infinite if it is a number and not finite. -/
theorem isInf_iff {x : Float} : x.isInf = true ↔ x.isFinite = false ∧ x.isNaN = false := by
  unfold Float.isInf Float.isFinite Float.isNaN Float.Model.isInf Float.Model.isFinite
    Float.Model.isNaN
  cases x.toModel.unpack with
  | infinity => exact iff_of_true rfl ⟨rfl, rfl⟩
  | notANumber => exact iff_of_false Bool.false_ne_true fun both =>
      Bool.false_ne_true both.2.symm
  | zero => exact iff_of_false Bool.false_ne_true fun both =>
      Bool.false_ne_true both.1.symm
  | finite => exact iff_of_false Bool.false_ne_true fun both =>
      Bool.false_ne_true both.1.symm

end SheetCalc.Decimal
