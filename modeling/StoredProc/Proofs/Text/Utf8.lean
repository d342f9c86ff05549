import StoredProc.Text.Utf8

/-!
Decoding undoes encoding. The bytes of a character are cut off again as
that character, whatever bytes come after them, so the pieces of an
encoded text are its characters and none is replaced.
-/

namespace StoredProc.Text.Utf8

/-! ### Continuation bytes -/

theorem toNat_ofNat_of_lt {n : Nat} (h : n < 256) : (UInt8.ofNat n).toNat = n := by
  rw [UInt8.toNat_ofNat']
  exact Nat.mod_eq_of_lt h

@[simp] theorem toNat_continuation (n : Nat) : (continuation n).toNat = 0x80 + n % 0x40 :=
  toNat_ofNat_of_lt (by omega)

@[simp] theorem isContinuation_continuation (n : Nat) : isContinuation (continuation n) = true := by
  simp only [isContinuation, toNat_continuation, Bool.and_eq_true, decide_eq_true_eq]
  omega

@[simp] theorem payload_continuation (n : Nat) : payload (continuation n) = n % 0x40 := by
  rw [payload, toNat_continuation]
  omega

/-! ### Single characters -/

/-- A code point is below the surrogates, or above them and below the
limit. -/
theorem toNat_valid (c : Char) : c.toNat < 0xd800 ∨ (0xdfff < c.toNat ∧ c.toNat < 0x110000) :=
  c.valid

/-- The second byte has the six bits of a continuation byte, and where
the first is at an end of its range, it is on the right side of the
limit. -/
theorem mayFollow_of_toNat {a b : UInt8} (hb : 0x80 ≤ b.toNat ∧ b.toNat ≤ 0xbf)
    (he0 : a.toNat = 0xe0 → 0xa0 ≤ b.toNat) (hed : a.toNat = 0xed → b.toNat ≤ 0x9f)
    (hf0 : a.toNat = 0xf0 → 0x90 ≤ b.toNat) (hf4 : a.toNat = 0xf4 → b.toNat ≤ 0x8f) :
    mayFollow a b = true := by
  unfold mayFollow isContinuation
  simp only [← UInt8.toNat_inj]
  split
  · next h => simpa [he0 h] using hb.2
  split
  · next h => simpa [hed h] using hb.1
  split
  · next h => simpa [hf0 h] using hb.2
  split
  · next h => simpa [hf4 h] using hb.1
  · simpa using hb

section

variable {n : Nat} (rest : List UInt8)

theorem cut_one (h : n < 0x80) : cut (UInt8.ofNat n) rest = (some (Char.ofNat n), rest) := by
  have ha : (UInt8.ofNat n).toNat = n := toNat_ofNat_of_lt (by omega)
  rw [cut, ha, if_pos h]

theorem cut_two (hlow : 0x80 ≤ n) (hhigh : n < 0x800) :
    cut (UInt8.ofNat (0xc0 + n / 0x40)) (continuation n :: rest) =
      (some (Char.ofNat n), rest) := by
  have ha : (UInt8.ofNat (0xc0 + n / 0x40)).toNat = 0xc0 + n / 0x40 :=
    toNat_ofNat_of_lt (by omega)
  have hpoint : (0xc0 + n / 0x40) % 0x20 * 0x40 + n % 0x40 = n := by omega
  rw [cut, ha, if_neg (by omega), if_pos (by simp; omega)]
  simp only [cutTwo, isContinuation_continuation, if_true, ha, payload_continuation, hpoint]

theorem cut_three (hlow : 0x800 ≤ n) (hhigh : n < 0x10000) (hvalid : n < 0xd800 ∨ 0xdfff < n) :
    cut (UInt8.ofNat (0xe0 + n / 0x1000)) (continuation (n / 0x40) :: continuation n :: rest) =
      (some (Char.ofNat n), rest) := by
  have ha : (UInt8.ofNat (0xe0 + n / 0x1000)).toNat = 0xe0 + n / 0x1000 :=
    toNat_ofNat_of_lt (by omega)
  have hpoint : (0xe0 + n / 0x1000) % 0x10 * 0x1000 + n / 0x40 % 0x40 * 0x40 + n % 0x40 = n := by
    omega
  -- A point below 0x800 has a shorter sequence, and the surrogates are no points.
  have hsecond : mayFollow (UInt8.ofNat (0xe0 + n / 0x1000)) (continuation (n / 0x40)) = true := by
    apply mayFollow_of_toNat <;> simp only [ha, toNat_continuation] <;> omega
  rw [cut, ha, if_neg (by omega), if_neg (by simp; omega), if_pos (by simp; omega)]
  simp only [cutThree, hsecond, isContinuation_continuation, if_true, ha, payload_continuation,
    hpoint]

theorem cut_four (hlow : 0x10000 ≤ n) (hhigh : n < 0x110000) :
    cut (UInt8.ofNat (0xf0 + n / 0x40000))
        (continuation (n / 0x1000) :: continuation (n / 0x40) :: continuation n :: rest) =
      (some (Char.ofNat n), rest) := by
  have ha : (UInt8.ofNat (0xf0 + n / 0x40000)).toNat = 0xf0 + n / 0x40000 :=
    toNat_ofNat_of_lt (by omega)
  have hpoint : (0xf0 + n / 0x40000) % 0x08 * 0x40000 + n / 0x1000 % 0x40 * 0x1000 +
      n / 0x40 % 0x40 * 0x40 + n % 0x40 = n := by
    omega
  have hsecond :
      mayFollow (UInt8.ofNat (0xf0 + n / 0x40000)) (continuation (n / 0x1000)) = true := by
    apply mayFollow_of_toNat <;> simp only [ha, toNat_continuation] <;> omega
  rw [cut, ha, if_neg (by omega), if_neg (by simp; omega), if_neg (by simp; omega),
    if_pos (by simp; omega)]
  simp only [cutFour, hsecond, isContinuation_continuation, if_true, ha, payload_continuation,
    hpoint]

end

/-- The bytes of a character are cut off as that character. -/
theorem cut_encodeChar (c : Char) (rest : List UInt8) :
    ∃ a tail, encodeChar c = a :: tail ∧ cut a (tail ++ rest) = (some c, rest) := by
  have hvalid := toNat_valid c
  have hc : Char.ofNat c.toNat = c := Char.ofNat_toNat c
  unfold encodeChar
  dsimp only
  split
  · next h₁ =>
      have hcut := cut_one rest h₁
      rw [hc] at hcut
      exact ⟨_, _, rfl, hcut⟩
  split
  · next h₁ h₂ =>
      have hcut := cut_two rest (Nat.le_of_not_lt h₁) h₂
      rw [hc] at hcut
      exact ⟨_, _, rfl, hcut⟩
  split
  · next h₁ h₂ h₃ =>
      have hcut := cut_three rest (Nat.le_of_not_lt h₂) h₃ (by omega)
      rw [hc] at hcut
      exact ⟨_, _, rfl, hcut⟩
  · next h₁ h₂ h₃ =>
      have hcut := cut_four rest (Nat.le_of_not_lt h₃) (by omega)
      rw [hc] at hcut
      exact ⟨_, _, rfl, hcut⟩

/-! ### Texts -/

theorem encode_append (text text' : Text) :
    encode (text ++ text') = encode text ++ encode text' :=
  List.flatMap_append

theorem size_append (text text' : Text) : size (text ++ text') = size text + size text' := by
  rw [size, encode_append, List.length_append, ← size, ← size]

theorem encodeChar_ne_nil (c : Char) : encodeChar c ≠ [] := by
  obtain ⟨a, tail, hchar, -⟩ := cut_encodeChar c []
  simp [hchar]

theorem size_pos {text : Text} (h : text ≠ []) : 0 < size text := by
  obtain ⟨c, rest, rfl⟩ := List.exists_cons_of_ne_nil h
  have hpos := List.length_pos_iff.mpr (encodeChar_ne_nil c)
  rw [size, encode, List.flatMap_cons, List.length_append]
  omega

theorem pieces_encode (text : Text) : pieces (encode text) = text.map some := by
  induction text with
  | nil => rw [encode, List.flatMap_nil, pieces, List.map_nil]
  | cons c text ih =>
      obtain ⟨a, tail, hchar, hcut⟩ := cut_encodeChar c (encode text)
      have hencode : encode (c :: text) = a :: (tail ++ encode text) := by
        rw [encode, List.flatMap_cons, hchar]
        rfl
      rw [hencode, pieces, hcut, ih, List.map_cons]

/-- An encoded text is decoded without a replacement. -/
theorem decodeLossy_encode (text : Text) : decodeLossy (encode text) = text := by
  rw [decodeLossy, pieces_encode, List.map_map]
  exact List.map_id text

/-- No piece of an encoded text is refused. -/
theorem decode?_encode (text : Text) : decode? (encode text) = some text := by
  rw [decode?, pieces_encode]
  induction text with
  | nil => rfl
  | cons c text ih => simp [ih]

end StoredProc.Text.Utf8
