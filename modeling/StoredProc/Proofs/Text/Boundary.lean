import StoredProc.Proofs.Text.Lines
import StoredProc.Proofs.Text.Utf8

/-!
Places in the bytes of a text. A text can be cut at a place only where a
character begins or the text ends: everywhere else the bytes on the two
sides are those of no text. Two ways of finding a place are safe all the
same, though they look at single bytes and know nothing of characters.
One is to count the bytes of an ASCII class, since every byte of another
character is outside ASCII. The other is to look for the bytes of a
character, since they occur nowhere but where that character stands.
-/

namespace StoredProc.Text.Utf8

/-! ### Places -/

def isBoundary (bytes : List UInt8) (place : Nat) : Bool :=
  match bytes[place]? with
  | some b => place = 0 || !isContinuation b
  | none => place = bytes.length

/-- The text between two places. There is none if one of them is not on a
boundary, if they are in the wrong order, or if the bytes between them are
not those of a text. -/
def slice? (bytes : List UInt8) (start stop : Nat) : Option Text :=
  if start ≤ stop && isBoundary bytes start && isBoundary bytes stop then
    decode? ((bytes.drop start).take (stop - start))
  else none

def find? (needle : List UInt8) : List UInt8 → Option Nat
  | [] => if needle.isEmpty then some 0 else none
  | b :: bytes =>
      if needle.isPrefixOf (b :: bytes) then some 0 else (find? needle bytes).map (· + 1)

/-- Every byte as a character by itself, which is what a reader of single
bytes sees. -/
def bytewise (bytes : List UInt8) : Text := bytes.map Char.ofUInt8

def Ascii (test : Char → Bool) : Prop := ∀ c : Char, 0x80 ≤ c.toNat → test c = false

variable {test : Char → Bool} {c d : Char} {text : Text}

/-! ### The bytes of a character -/

/-- Only the first byte of a character does not continue one. -/
theorem encodeChar_eq_cons (c : Char) :
    ∃ a tail, encodeChar c = a :: tail ∧ isContinuation a = false ∧
      ∀ b ∈ tail, isContinuation b = true := by
  have hvalid := toNat_valid c
  have hfirst {n : Nat} (h : n < 0x80 ∨ 0xc0 ≤ n ∧ n < 0x100) :
      isContinuation (UInt8.ofNat n) = false := by
    have hn : (UInt8.ofNat n).toNat = n := toNat_ofNat_of_lt (by omega)
    rw [isContinuation, hn, Bool.and_eq_false_iff, decide_eq_false_iff_not,
      decide_eq_false_iff_not]
    omega
  unfold encodeChar
  dsimp only
  split
  · exact ⟨_, _, rfl, hfirst (by omega), by simp⟩
  split
  · exact ⟨_, _, rfl, hfirst (by omega), by simp⟩
  split
  · exact ⟨_, _, rfl, hfirst (by omega), by simp⟩
  · exact ⟨_, _, rfl, hfirst (by omega), by simp⟩

/-- A byte by itself is the character, or is as little in ASCII as the
character. -/
theorem bytewise_encodeChar (c : Char) :
    c.toNat < 0x80 ∧ bytewise (encodeChar c) = [c] ∨
      0x80 ≤ c.toNat ∧ ∀ d ∈ bytewise (encodeChar c), 0x80 ≤ d.toNat := by
  have hvalid := toNat_valid c
  have hbyte {n : Nat} (h : n < 0x100) : (Char.ofUInt8 (UInt8.ofNat n)).toNat = n :=
    toNat_ofNat_of_lt h
  have hhigh {n : Nat} (hlow : 0x80 ≤ n) (h : n < 0x100) :
      0x80 ≤ (Char.ofUInt8 (UInt8.ofNat n)).toNat :=
    le_of_le_of_eq hlow (hbyte h).symm
  have hcontinued (n : Nat) : 0x80 ≤ (Char.ofUInt8 (continuation n)).toNat :=
    le_of_le_of_eq (Nat.le_add_right _ _) (toNat_continuation n).symm
  unfold encodeChar bytewise
  dsimp only
  split
  · next h =>
      refine .inl ⟨h, congrArg (· :: []) ?_⟩
      exact Char.toNat_inj.mp (hbyte (by omega))
  · refine .inr ⟨by omega, ?_⟩
    split
    · exact List.forall_mem_cons.mpr ⟨hhigh (by omega) (by omega), by simp [hcontinued]⟩
    split
    · exact List.forall_mem_cons.mpr ⟨hhigh (by omega) (by omega), by simp [hcontinued]⟩
    · exact List.forall_mem_cons.mpr ⟨hhigh (by omega) (by omega), by simp [hcontinued]⟩

theorem encode_cons (c : Char) (text : Text) : encode (c :: text) = encodeChar c ++ encode text :=
  List.flatMap_cons

theorem size_singleton (hc : c.toNat < 0x80) : size [c] = 1 := by
  simp [size, encode, encodeChar, hc]

theorem bytewise_append (bytes bytes' : List UInt8) :
    bytewise (bytes ++ bytes') = bytewise bytes ++ bytewise bytes' :=
  List.map_append

/-! ### Cutting on boundaries -/

/-- What stands at the end of a text's bytes is the first byte of what
follows. -/
theorem getElem?_size (front back : Text) :
    (encode (front ++ back))[size front]? = (encode back).head? := by
  rw [encode_append, size, List.getElem?_append_right (Nat.le_refl _), Nat.sub_self,
    List.head?_eq_getElem?]

theorem isBoundary_size (front back : Text) :
    isBoundary (encode (front ++ back)) (size front) = true := by
  unfold isBoundary
  rw [getElem?_size]
  cases back with
  | nil => simp [encode, size]
  | cons c back =>
      obtain ⟨a, tail, hchar, hfirst, -⟩ := encodeChar_eq_cons c
      simp [encode_cons, hchar, hfirst]

/-- What stands between two texts is cut out of the bytes of all three. -/
theorem slice?_encode (front text back : Text) :
    slice? (encode (front ++ (text ++ back))) (size front) (size front + size text) =
      some text := by
  have hstop := isBoundary_size (front ++ text) back
  rw [List.append_assoc, size_append] at hstop
  rw [slice?, isBoundary_size front, hstop, if_pos (by simp), Nat.add_sub_cancel_left,
    encode_append, size, size, List.drop_left, encode_append, List.take_left, decode?_encode]

theorem slice?_front (text back : Text) :
    slice? (encode (text ++ back)) 0 (size text) = some text := by
  have hslice := slice?_encode [] text back
  rwa [show size [] = 0 from rfl, Nat.zero_add, List.nil_append] at hslice

/-- What stands behind a text is cut out of the bytes of both. -/
theorem slice?_rest (front back : Text) :
    slice? (encode (front ++ back)) (size front) (encode (front ++ back)).length = some back := by
  have hslice := slice?_encode front back []
  rwa [List.append_nil, ← size_append] at hslice

/-- A character is not cut in two. -/
example : slice? (encode "é".toList) 0 1 = none := by decide

/-! ### Looking for a character -/

theorem find?_append_of_isContinuation {a : UInt8} {needle front : List UInt8}
    (ha : isContinuation a = false) (hfront : ∀ b ∈ front, isContinuation b = true)
    (bytes : List UInt8) :
    find? (a :: needle) (front ++ bytes) =
      (find? (a :: needle) bytes).map (· + front.length) := by
  induction front with
  | nil => simp
  | cons b front ih =>
      have hb : (a == b) = false := by
        rw [beq_eq_false_iff_ne]
        rintro rfl
        rw [hfront a List.mem_cons_self] at ha
        cases ha
      rw [List.cons_append, find?, List.isPrefixOf, hb, Bool.false_and,
        if_neg Bool.false_ne_true, ih fun d hd => hfront d (List.mem_cons_of_mem b hd),
        Option.map_map]
      rfl

/-- The bytes of a character are the beginning of those of a text only if
the text begins with the character. -/
theorem eq_of_prefix_encode (h : encodeChar d <+: encode (c :: text)) : d = c := by
  obtain ⟨more, hmore⟩ := h
  obtain ⟨a, tail, hchar, hcut⟩ := cut_encodeChar d more
  obtain ⟨a', tail', hchar', hcut'⟩ := cut_encodeChar c (encode text)
  rw [encode_cons, hchar, hchar', List.cons_append, List.cons_append] at hmore
  obtain ⟨rfl, htail⟩ := List.cons.inj hmore
  rw [htail, hcut'] at hcut
  exact (Option.some.inj (Prod.mk.inj hcut).1).symm

/-- The bytes of one character do not stand anywhere in those of
another. -/
theorem find?_encode_cons_of_ne (h : d ≠ c) (text : Text) :
    find? (encodeChar d) (encode (c :: text)) =
      (find? (encodeChar d) (encode text)).map (· + size [c]) := by
  obtain ⟨a, tail, hchar, -, htail⟩ := encodeChar_eq_cons c
  obtain ⟨a', tail', hneedle, hfirst, -⟩ := encodeChar_eq_cons d
  have hbytes : encode (c :: text) = a :: (tail ++ encode text) := by
    rw [encode_cons, hchar, List.cons_append]
  have hprefix : ¬(encodeChar d).isPrefixOf (encode (c :: text)) = true := by
    intro hprefix
    exact h (eq_of_prefix_encode (List.isPrefixOf_iff_prefix.mp hprefix))
  have hsize : size [c] = tail.length + 1 := by
    rw [size, encode_cons, hchar]
    simp [encode]
  rw [hbytes] at hprefix ⊢
  rw [find?, if_neg hprefix, hneedle, find?_append_of_isContinuation hfirst htail,
    Option.map_map, hsize]
  rfl

theorem find?_encode_of_not_mem (h : d ∉ text) : find? (encodeChar d) (encode text) = none := by
  induction text with
  | nil => simp [encode, find?, encodeChar_ne_nil]
  | cons c text ih =>
      obtain ⟨hc, htext⟩ := List.ne_and_not_mem_of_not_mem_cons h
      rw [find?_encode_cons_of_ne hc, ih htext, Option.map_none]

/-- To look for the bytes of a character is to look for the character. -/
theorem find?_encode_append (h : d ∉ text) (more : Text) :
    find? (encodeChar d) (encode (text ++ d :: more)) = some (size text) := by
  induction text with
  | nil =>
      obtain ⟨a, tail, hchar, -⟩ := encodeChar_eq_cons d
      rw [List.nil_append, encode_cons, hchar, List.cons_append, find?, ← List.cons_append,
        if_pos (List.isPrefixOf_iff_prefix.mpr (List.prefix_append _ _))]
      rfl
  | cons c text ih =>
      obtain ⟨hc, htext⟩ := List.ne_and_not_mem_of_not_mem_cons h
      rw [List.cons_append, find?_encode_cons_of_ne hc, ih htext, Option.map_some, Nat.add_comm,
        ← size_append, List.singleton_append]

/-! ### Counting the bytes of a class -/

/-- A run of an ASCII class is as long in bytes as it is in characters
and ends at the same place. -/
theorem length_takeWhile_bytewise (htest : Ascii test) (text : Text) :
    ((bytewise (encode text)).takeWhile test).length = size (text.takeWhile test) := by
  induction text with
  | nil => rfl
  | cons c text ih =>
      rw [encode_cons, bytewise_append]
      rcases bytewise_encodeChar c with ⟨-, hchar⟩ | ⟨hc, hbytes⟩
      · have hlen : (encodeChar c).length = 1 := by
          simpa [bytewise] using congrArg List.length hchar
        rw [hchar, List.singleton_append]
        by_cases htrue : test c = true
        · rw [List.takeWhile_cons_of_pos htrue, List.takeWhile_cons_of_pos htrue, size,
            encode_cons, List.length_append, List.length_cons, ih, hlen, ← size, Nat.add_comm]
        · rw [List.takeWhile_cons_of_neg htrue, List.takeWhile_cons_of_neg htrue]
          rfl
      · obtain ⟨a, tail, hchar, -⟩ := encodeChar_eq_cons c
        have ha : ¬test (Char.ofUInt8 a) = true := by
          rw [htest _ (hbytes _ (by simp [hchar, bytewise]))]
          exact Bool.false_ne_true
        have hfalse : ¬test c = true := by
          rw [htest c hc]
          exact Bool.false_ne_true
        rw [hchar, bytewise, List.map_cons, List.cons_append, List.takeWhile_cons_of_neg ha,
          List.takeWhile_cons_of_neg hfalse]
        rfl

theorem ascii_isBlank : Ascii isBlank := by
  intro c hc
  cases h : isBlank c with
  | false => rfl
  | true =>
      simp only [isBlank, Bool.or_eq_true, decide_eq_true_eq] at h
      rcases h with ((((rfl | rfl) | rfl) | rfl) | rfl) | rfl <;> simp at hc

theorem ascii_isWordPart : Ascii isWordPart := by
  intro c hc
  cases h : isWordPart c with
  | false => rfl
  | true =>
      delta isWordPart Char.isAlphanum Char.isAlpha Char.isUpper Char.isLower Char.isDigit at h
      simp only [Bool.or_eq_true, Bool.and_eq_true, decide_eq_true_eq, ge_iff_le,
        UInt32.le_iff_toNat_le] at h
      rcases h with ((⟨-, h⟩ | ⟨-, h⟩) | ⟨-, h⟩) | rfl
      · exact absurd (Nat.le_trans hc h) (by decide)
      · exact absurd (Nat.le_trans hc h) (by decide)
      · exact absurd (Nat.le_trans hc h) (by decide)
      · exact absurd hc (by decide)

theorem ascii_isBreak : Ascii isBreak := fun c hc =>
  isBreak_eq_false_of_isBlank_eq_false (ascii_isBlank c hc)

/-- The first byte of a character by itself is the character, or both
are outside ASCII. -/
theorem head?_encode_cons (c : Char) (text : Text) :
    ∃ a, (encode (c :: text)).head? = some a ∧
      (c.toNat < 0x80 ∧ Char.ofUInt8 a = c ∨ 0x80 ≤ c.toNat ∧ 0x80 ≤ (Char.ofUInt8 a).toNat) := by
  obtain ⟨a, tail, hchar, -⟩ := encodeChar_eq_cons c
  refine ⟨a, by rw [encode_cons, hchar, List.cons_append, List.head?_cons], ?_⟩
  rcases bytewise_encodeChar c with ⟨hc, hbytes⟩ | ⟨hc, hbytes⟩
  · rw [hchar, bytewise, List.map_cons] at hbytes
    exact .inl ⟨hc, (List.cons.inj hbytes).1⟩
  · exact .inr ⟨hc, hbytes _ (by simp [hchar, bytewise])⟩

/-- The first byte of a text, as a character by itself, is an ASCII
character if and only if the text begins with it. -/
theorem head?_bytewise_eq_iff (hc : c.toNat < 0x80) (text : Text) :
    (bytewise (encode text)).head? = some c ↔ text.head? = some c := by
  cases text with
  | nil => simp [bytewise, encode]
  | cons d text =>
      obtain ⟨a, hhead, hbyte⟩ := head?_encode_cons d text
      rw [bytewise, List.head?_map, hhead, Option.map_some, List.head?_cons, Option.some_inj,
        Option.some_inj]
      rcases hbyte with ⟨-, hbyte⟩ | ⟨hd, hbyte⟩
      · rw [hbyte]
      · constructor
        · rintro rfl
          omega
        · rintro rfl
          omega

/-- Line breaks may be counted byte by byte. -/
theorem lineBreaks_bytewise (text : Text) :
    lineBreaks (bytewise (encode text)) = lineBreaks text := by
  have hsame {c : Char} (hc : isBreak c = true) : bytewise (encodeChar c) = [c] := by
    rcases bytewise_encodeChar c with ⟨-, hchar⟩ | ⟨hlow, -⟩
    · exact hchar
    · rw [ascii_isBreak c hlow] at hc
      cases hc
  have hother {c : Char} (hc : isBreak c = false) :
      ∀ d ∈ bytewise (encodeChar c), isBreak d = false := by
    rcases bytewise_encodeChar c with ⟨-, hchar⟩ | ⟨-, hbytes⟩
    · rw [hchar]
      simpa using hc
    · exact fun d hd => ascii_isBreak d (hbytes d hd)
  fun_induction lineBreaks text with
  | case1 => rfl
  | case2 c hc => simp [encode, hsame hc, lineBreaks, hc]
  | case3 c hc =>
      rw [encode_cons, bytewise_append, lineBreaks_append_of_forall (hother (by simpa using hc))]
      rfl
  | case4 c d rest hc hd ih =>
      have hd' : isBreak d = true := (Bool.and_eq_true_iff.mp hd).1
      rw [encode_cons, encode_cons, bytewise_append, bytewise_append, hsame hc, hsame hd',
        List.singleton_append, List.singleton_append, lineBreaks, if_pos hc, if_pos hd, ih]
  | case5 c d rest hc hd ih =>
      rw [encode_cons, bytewise_append, hsame hc, List.singleton_append, ← ih]
      by_cases hd' : isBreak d = true
      · rw [encode_cons, bytewise_append, hsame hd', List.singleton_append, lineBreaks, if_pos hc,
          if_neg hd]
      · -- No byte of a character that does not complete the break completes it.
        have hstops : Stops isBreak (bytewise (encode (d :: rest))) := by
          rw [encode_cons, bytewise_append]
          refine stops_append_of_ne_nil (stops_of_forall (hother (by simpa using hd'))) ?_
          exact fun hnil => encodeChar_ne_nil d (List.map_eq_nil_iff.mp hnil)
        exact lineBreaks_cons_of_stops hc hstops
  | case6 c d rest hc ih =>
      rw [encode_cons, bytewise_append, lineBreaks_append_of_forall (hother (by simpa using hc)),
        ih]

end StoredProc.Text.Utf8
