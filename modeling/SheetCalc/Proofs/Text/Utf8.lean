import SheetCalc.Text.Utf8

/-!
# Reading bytes back as text

Decoding gives back what was encoded, whatever bytes come behind it (`decode_encode_append`). A text
the bytes of which are cut at any place is read from the place of the cut on, with a replacement for
each byte that is left of a character that the cut goes through (`decode_drop_encode`).
-/

namespace SheetCalc.Text.Utf8

/-! ## Sequences of bytes -/

/-- A byte that can follow another one in a sequence, and begins none. -/
def Follows (b : UInt8) : Prop :=
  0x80 ≤ b.toNat ∧ b.toNat ≤ 0xbf

theorem toNat_ofNat {n : Nat} (small : n < 256) : (UInt8.ofNat n).toNat = n := by
  rw [UInt8.toNat_ofNat']
  exact Nat.mod_eq_of_lt small

/-- A byte that only follows others is replaced where it follows none. -/
theorem decode_of_follows {b : UInt8} (follows : Follows b) (rest : List UInt8) :
    decode (b :: rest) = replacement :: decode rest := by
  obtain ⟨low, high⟩ := follows
  have opens_none : Opening.ofByte? b = none := by
    unfold Opening.ofByte?
    simp only
    rw [if_neg (by omega), if_neg (by omega), if_neg (by omega), if_neg (by omega),
      if_neg (by omega), if_neg (by omega), if_neg (by omega)]
  rw [decode_cons, next, if_neg (by omega), opens_none]

theorem decode_all_follow {bs : List UInt8} (follow : ∀ b ∈ bs, Follows b) (rest : List UInt8) :
    decode (bs ++ rest) = List.replicate bs.length replacement ++ decode rest := by
  induction bs with
  | nil => rfl
  | cons b bs ih =>
      rw [List.cons_append, decode_of_follows (follow b List.mem_cons_self),
        ih fun b' there => follow b' (List.mem_cons_of_mem _ there)]
      rfl

theorem decode_of_opens {b : UInt8} {o : Opening} (beyond : 0x80 ≤ b.toNat)
    (opens : Opening.ofByte? b = some o) (rest : List UInt8) :
    decode (b :: rest) =
      (complete o.follow o.low o.high o.bits rest).1 ::
        decode (complete o.follow o.low o.high o.bits rest).2 := by
  rw [decode_cons, next, if_neg (by omega), opens]

theorem complete_cons {low high b : UInt8} (above : low.toNat ≤ b.toNat)
    (below : b.toNat ≤ high.toNat) (n bits : Nat) (rest : List UInt8) :
    complete (n + 1) low high bits (b :: rest) =
      complete n 0x80 0xbf (bits * 64 + b.toNat % 64) rest := by
  have within : low ≤ b ∧ b ≤ high :=
    ⟨UInt8.le_iff_toNat_le.mpr above, UInt8.le_iff_toNat_le.mpr below⟩
  rw [complete, if_pos within]

theorem complete_of_follows {b : UInt8} (follows : Follows b) (n bits : Nat) (rest : List UInt8) :
    complete (n + 1) 0x80 0xbf bits (b :: rest) =
      complete n 0x80 0xbf (bits * 64 + b.toNat % 64) rest := by
  have above : (0x80 : UInt8).toNat ≤ b.toNat := follows.1
  have below : b.toNat ≤ (0xbf : UInt8).toNat := follows.2
  exact complete_cons above below n bits rest

/-! ## What first bytes open -/

theorem ofByte?_two {b : UInt8} (low : 0xc2 ≤ b.toNat) (high : b.toNat ≤ 0xdf) :
    Opening.ofByte? b = some ⟨1, 0x80, 0xbf, b.toNat % 32⟩ := by
  unfold Opening.ofByte?
  simp only
  rw [if_pos ⟨low, high⟩]

/-- A byte opens a sequence of three whatever follows it, unless the whole would be overlong or half
of a pair. -/
theorem ofByte?_three {b second : UInt8} (low : 0xe0 ≤ b.toNat) (high : b.toNat ≤ 0xef)
    (follows : Follows second) (not_overlong : b.toNat = 0xe0 → 0xa0 ≤ second.toNat)
    (no_half : b.toNat = 0xed → second.toNat ≤ 0x9f) :
    ∃ least most, Opening.ofByte? b = some ⟨2, least, most, b.toNat % 16⟩ ∧
      least.toNat ≤ second.toNat ∧ second.toNat ≤ most.toNat := by
  unfold Opening.ofByte?
  simp only
  rw [if_neg (by omega)]
  by_cases first : b.toNat = 0xe0
  · rw [if_pos first, first]
    exact ⟨0xa0, 0xbf, rfl, not_overlong first, follows.2⟩
  by_cases pairs : b.toNat = 0xed
  · rw [if_neg first, if_pos pairs, pairs]
    exact ⟨0x80, 0x9f, rfl, follows.1, no_half pairs⟩
  · rw [if_neg first, if_neg pairs, if_pos (by omega)]
    exact ⟨0x80, 0xbf, rfl, follows.1, follows.2⟩

/-- A byte opens a sequence of four whatever follows it, unless the whole would be overlong or no
code point. -/
theorem ofByte?_four {b second : UInt8} (low : 0xf0 ≤ b.toNat) (high : b.toNat ≤ 0xf4)
    (follows : Follows second) (not_overlong : b.toNat = 0xf0 → 0x90 ≤ second.toNat)
    (not_beyond : b.toNat = 0xf4 → second.toNat ≤ 0x8f) :
    ∃ least most, Opening.ofByte? b = some ⟨3, least, most, b.toNat % 8⟩ ∧
      least.toNat ≤ second.toNat ∧ second.toNat ≤ most.toNat := by
  unfold Opening.ofByte?
  simp only
  rw [if_neg (by omega), if_neg (by omega), if_neg (by omega), if_neg (by omega)]
  by_cases first : b.toNat = 0xf0
  · rw [if_pos first, first]
    exact ⟨0x90, 0xbf, rfl, not_overlong first, follows.2⟩
  by_cases last : b.toNat = 0xf4
  · rw [if_neg first, if_neg (by omega), if_pos last, last]
    exact ⟨0x80, 0x8f, rfl, follows.1, not_beyond last⟩
  · rw [if_neg first, if_pos (by omega)]
    exact ⟨0x80, 0xbf, rfl, follows.1, follows.2⟩

/-! ## Characters -/

theorem follows_ofNat (n : Nat) : Follows (UInt8.ofNat (n % 64 + 0x80)) := by
  unfold Follows
  rw [toNat_ofNat (by omega)]
  omega

theorem toNat_valid (c : Char) :
    c.toNat < 0xd800 ∨ (0xdfff < c.toNat ∧ c.toNat < 0x110000) := by
  simpa [Nat.isValidChar] using (show c.toNat.isValidChar from c.valid)

theorem decode_two {v : Nat} (low : 0x7f < v) (high : v ≤ 0x7ff) (rest : List UInt8) :
    decode (UInt8.ofNat (v / 64 % 32 + 0xc0) :: UInt8.ofNat (v % 64 + 0x80) :: rest) =
      Char.ofNat v :: decode rest := by
  have first := toNat_ofNat (n := v / 64 % 32 + 0xc0) (by omega)
  have second := toNat_ofNat (n := v % 64 + 0x80) (by omega)
  -- The bits that the bytes hold make up the number again.
  have value : (v / 64 % 32 + 0xc0) % 32 * 64 + (v % 64 + 0x80) % 64 = v := by omega
  rw [decode_of_opens (by omega) (ofByte?_two (by omega) (by omega))]
  simp only
  rw [complete_of_follows (follows_ofNat v), first, second, value, complete]

theorem decode_three {v : Nat} (low : 0x7ff < v) (high : v ≤ 0xffff)
    (no_half : v < 0xd800 ∨ 0xdfff < v) (rest : List UInt8) :
    decode (UInt8.ofNat (v / 4096 % 16 + 0xe0) :: UInt8.ofNat (v / 64 % 64 + 0x80) ::
      UInt8.ofNat (v % 64 + 0x80) :: rest) = Char.ofNat v :: decode rest := by
  have first := toNat_ofNat (n := v / 4096 % 16 + 0xe0) (by omega)
  have second := toNat_ofNat (n := v / 64 % 64 + 0x80) (by omega)
  have third := toNat_ofNat (n := v % 64 + 0x80) (by omega)
  have value : ((v / 4096 % 16 + 0xe0) % 16 * 64 + (v / 64 % 64 + 0x80) % 64) * 64 +
      (v % 64 + 0x80) % 64 = v := by omega
  obtain ⟨least, most, opens, above, below⟩ := ofByte?_three
    (b := UInt8.ofNat (v / 4096 % 16 + 0xe0)) (by omega) (by omega) (follows_ofNat (v / 64))
    (by omega) (by omega)
  rw [decode_of_opens (by omega) opens]
  simp only
  rw [complete_cons above below, complete_of_follows (follows_ofNat v), first, second, third,
    value, complete]

theorem decode_four {v : Nat} (low : 0xffff < v) (high : v < 0x110000) (rest : List UInt8) :
    decode (UInt8.ofNat (v / 262144 % 8 + 0xf0) :: UInt8.ofNat (v / 4096 % 64 + 0x80) ::
      UInt8.ofNat (v / 64 % 64 + 0x80) :: UInt8.ofNat (v % 64 + 0x80) :: rest) =
        Char.ofNat v :: decode rest := by
  have first := toNat_ofNat (n := v / 262144 % 8 + 0xf0) (by omega)
  have second := toNat_ofNat (n := v / 4096 % 64 + 0x80) (by omega)
  have third := toNat_ofNat (n := v / 64 % 64 + 0x80) (by omega)
  have fourth := toNat_ofNat (n := v % 64 + 0x80) (by omega)
  have value : (((v / 262144 % 8 + 0xf0) % 8 * 64 + (v / 4096 % 64 + 0x80) % 64) * 64 +
      (v / 64 % 64 + 0x80) % 64) * 64 + (v % 64 + 0x80) % 64 = v := by omega
  obtain ⟨least, most, opens, above, below⟩ := ofByte?_four
    (b := UInt8.ofNat (v / 262144 % 8 + 0xf0)) (by omega) (by omega) (follows_ofNat (v / 4096))
    (by omega) (by omega)
  rw [decode_of_opens (by omega) opens]
  simp only
  rw [complete_cons above below, complete_of_follows (follows_ofNat (v / 64)),
    complete_of_follows (follows_ofNat v), first, second, third, fourth, value, complete]

/-- A character is read back from its bytes. -/
theorem decode_encodeChar (c : Char) (rest : List UInt8) :
    decode (String.utf8EncodeChar c ++ rest) = c :: decode rest := by
  have valid := toNat_valid c
  have itself : Char.ofNat c.toNat = c := Char.ofNat_toNat c
  unfold String.utf8EncodeChar
  rw [show c.val.toNat = c.toNat from rfl]
  simp only
  generalize c.toNat = v at valid itself
  subst itself
  split
  · next one =>
      have first := toNat_ofNat (n := v) (by omega)
      rw [List.singleton_append, decode_cons, next, if_pos (by omega), first]
  split
  · next two => exact decode_two (by omega) two rest
  split
  · next three => exact decode_three (by omega) three (by omega) rest
  · next four => exact decode_four (by omega) (by omega) rest

/-- Behind the first byte of a character come bytes that only follow others. -/
theorem follow_of_drop_encodeChar (c : Char) {n : Nat} (inside : 0 < n) :
    ∀ b ∈ (String.utf8EncodeChar c).drop n, Follows b := by
  have all : ∀ b ∈ (String.utf8EncodeChar c).tail, Follows b := by
    intro b there
    unfold String.utf8EncodeChar at there
    simp only at there
    split at there
    · cases there
    split at there
    · rw [List.tail_cons, List.mem_singleton] at there
      exact there ▸ follows_ofNat _
    split at there
    · rw [List.tail_cons, List.mem_cons, List.mem_singleton] at there
      rcases there with rfl | rfl <;> exact follows_ofNat _
    · rw [List.tail_cons, List.mem_cons, List.mem_cons, List.mem_singleton] at there
      rcases there with rfl | rfl | rfl <;> exact follows_ofNat _
  intro b there
  refine all b ?_
  rw [← List.drop_one]
  exact (List.drop_subset_drop_left _ inside) there

/-! ## Texts -/

/-- A text is read back from its bytes. -/
theorem decode_encode_append (cs : List Char) (rest : List UInt8) :
    decode (encode cs ++ rest) = cs ++ decode rest := by
  induction cs with
  | nil => rfl
  | cons c cs ih =>
      show decode ((String.utf8EncodeChar c ++ encode cs) ++ rest) = _
      rw [List.append_assoc, decode_encodeChar, ih]
      rfl

/-- **A text the bytes of which are cut is read from the cut on**, up to replacements for what is
left of the character that the cut goes through. The last character, of one byte, is read in any
case. -/
theorem decode_drop_encode {cs : List Char} {last : Char} (one : last.toNat < 0x80) {n : Nat}
    (inside : n < (encode (cs ++ [last])).length) (rest : List UInt8) :
    ∃ k m, decode ((encode (cs ++ [last])).drop n ++ rest) =
      List.replicate k replacement ++ (cs.drop m ++ last :: decode rest) := by
  -- Where nothing is cut off, nothing is replaced.
  by_cases whole : n = 0
  · refine ⟨0, 0, ?_⟩
    rw [whole, List.drop_zero, decode_encode_append, List.append_assoc]
    rfl
  induction cs generalizing n with
  | nil =>
      have single : encode ([] ++ [last]) = [UInt8.ofNat last.toNat] := by
        show String.utf8EncodeChar last ++ [] = _
        unfold String.utf8EncodeChar
        rw [show last.val.toNat = last.toNat from rfl]
        simp only
        rw [if_pos (by omega), List.append_nil]
      rw [single, List.length_singleton] at inside
      exact absurd (Nat.lt_one_iff.mp inside) whole
  | cons c cs ih =>
      have encoded :
          encode (c :: cs ++ [last]) = String.utf8EncodeChar c ++ encode (cs ++ [last]) :=
        rfl
      rw [encoded] at inside ⊢
      rw [List.length_append] at inside
      by_cases beyond : (String.utf8EncodeChar c).length < n
      · -- The cut goes through a later character.
        obtain ⟨k, m, read⟩ := ih (n := n - (String.utf8EncodeChar c).length) (by omega) (by omega)
        refine ⟨k, m + 1, ?_⟩
        rw [List.drop_append, List.drop_eq_nil_of_le (by omega), List.nil_append, read]
        rfl
      · -- It goes through this one, or between it and the next.
        refine ⟨((String.utf8EncodeChar c).drop n).length, 1, ?_⟩
        rw [List.drop_append_of_le_length (by omega), List.append_assoc,
          decode_all_follow (follow_of_drop_encodeChar c (by omega)), decode_encode_append,
          List.append_assoc]
        rfl

/-- A character takes four bytes at most. -/
theorem length_encode_le (cs : List Char) : (encode cs).length ≤ 4 * cs.length := by
  induction cs with
  | nil => exact Nat.le_refl 0
  | cons c cs ih =>
      have one : (String.utf8EncodeChar c).length ≤ 4 := by
        rw [String.length_utf8EncodeChar]
        exact Char.utf8Size_le_four c
      show (String.utf8EncodeChar c ++ encode cs).length ≤ _
      rw [List.length_append, List.length_cons]
      omega

end SheetCalc.Text.Utf8
