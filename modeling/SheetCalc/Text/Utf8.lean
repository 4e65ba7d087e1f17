/-!
# Text as bytes

`encode` writes a text in UTF-8. `decode` reads any row of bytes: what is no UTF-8 gives replacement
characters, one for the longest start of a sequence that could have been continued, and reading goes
on with the byte that could not continue it.
-/

namespace SheetCalc.Text.Utf8

/-- The bytes of a text. -/
def encode (cs : List Char) : List UInt8 :=
  cs.flatMap String.utf8EncodeChar

/-- What stands for bytes that are no text. -/
def replacement : Char := '\ufffd'

/-- A sequence that a first byte opens: how many bytes follow, between which bounds the first of
them lies, and the bits that the first byte contributes. -/
structure Opening where
  follow : Nat
  low : UInt8
  high : UInt8
  bits : Nat

/-- The first bytes of sequences. The narrower bounds after `e0`, `ed`, `f0` and `f4` rule out
overlong forms, surrogates and what lies beyond the last code point. -/
def Opening.ofByte? (b : UInt8) : Option Opening :=
  let n := b.toNat
  if 0xc2 ≤ n ∧ n ≤ 0xdf then some ⟨1, 0x80, 0xbf, n % 32⟩
  else if n = 0xe0 then some ⟨2, 0xa0, 0xbf, 0⟩
  else if n = 0xed then some ⟨2, 0x80, 0x9f, 13⟩
  else if 0xe1 ≤ n ∧ n ≤ 0xef then some ⟨2, 0x80, 0xbf, n % 16⟩
  else if n = 0xf0 then some ⟨3, 0x90, 0xbf, 0⟩
  else if 0xf1 ≤ n ∧ n ≤ 0xf3 then some ⟨3, 0x80, 0xbf, n % 8⟩
  else if n = 0xf4 then some ⟨3, 0x80, 0x8f, 4⟩
  else none

/-- Reads the bytes that are to follow a first byte, and gives the character and what is left. -/
def complete : Nat → UInt8 → UInt8 → Nat → List UInt8 → Char × List UInt8
  | 0, _, _, bits, rest => (Char.ofNat bits, rest)
  | _ + 1, _, _, _, [] => (replacement, [])
  | n + 1, low, high, bits, b :: rest =>
    if low ≤ b ∧ b ≤ high then complete n 0x80 0xbf (bits * 64 + b.toNat % 64) rest
    else (replacement, b :: rest)

theorem length_complete_le (n : Nat) (low high : UInt8) (bits : Nat) (rest : List UInt8) :
    (complete n low high bits rest).2.length ≤ rest.length := by
  induction n generalizing low high bits rest with
  | zero => simp [complete]
  | succ n ih =>
    cases rest with
    | nil => simp [complete]
    | cons b rest =>
      rw [complete]
      split
      · exact Nat.le_trans (ih ..) (Nat.le_succ _)
      · exact Nat.le_refl _

/-- The character that a first byte opens, and the bytes left after it. -/
def next (b : UInt8) (rest : List UInt8) : Char × List UInt8 :=
  if b.toNat < 0x80 then (Char.ofNat b.toNat, rest)
  else
    match Opening.ofByte? b with
    | none => (replacement, rest)
    | some o => complete o.follow o.low o.high o.bits rest

theorem length_next_le (b : UInt8) (rest : List UInt8) :
    (next b rest).2.length ≤ rest.length := by
  unfold next
  split
  · exact Nat.le_refl _
  · split
    · exact Nat.le_refl _
    · exact length_complete_le ..

/-- Reads a row of bytes after the characters already read, which are given backwards. -/
def decodeAfter (done : List Char) : List UInt8 → List Char
  | [] => done.reverse
  | b :: rest => decodeAfter ((next b rest).1 :: done) (next b rest).2
termination_by bytes => bytes.length
decreasing_by exact Nat.lt_succ_of_le (length_next_le b rest)

/-- Reads a row of bytes as text. -/
def decode (bytes : List UInt8) : List Char :=
  decodeAfter [] bytes

theorem decodeAfter_append (done more : List Char) (bytes : List UInt8) :
    decodeAfter (done ++ more) bytes = more.reverse ++ decodeAfter done bytes := by
  fun_induction decodeAfter done bytes with
  | case1 done => simp [decodeAfter]
  | case2 done b rest ih => rw [decodeAfter, ← ih]; rfl

theorem decodeAfter_eq (done : List Char) (bytes : List UInt8) :
    decodeAfter done bytes = done.reverse ++ decode bytes := by
  simpa [decode] using decodeAfter_append [] done bytes

@[simp] theorem decode_nil : decode [] = [] := by simp [decode, decodeAfter]

/-- Decoding goes on with what the first character leaves. -/
theorem decode_cons (b : UInt8) (rest : List UInt8) :
    decode (b :: rest) = (next b rest).1 :: decode (next b rest).2 := by
  rw [decode, decodeAfter, decodeAfter_eq]
  rfl

end SheetCalc.Text.Utf8
