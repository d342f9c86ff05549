import StoredProc.Proofs.Text.Runs
import StoredProc.Text.Quoted

/-!
Reading quoted text back. The first character of an escape tells how far
it goes: a backslash takes the character behind it, and a code point goes
on up to the brace that closes it, which no digit is. So a text between
quotes is read in one way, and the quote that ends it is the first one
that no backslash stands in front of.

Which characters are hidden behind a code point makes no difference to
the reader, and no proof opens the tables of them.
-/

namespace StoredProc.Text.Quoted

/-! ### Hexadecimal numbers -/

def digitValue (c : Char) : Nat :=
  if c.isDigit then c.toNat - '0'.toNat else c.toNat - 'a'.toNat + 10

def hexValue (digits : Text) : Nat := digits.foldl (fun n c => 16 * n + digitValue c) 0

theorem digitValue_digitChar {d : Nat} (h : d < 16) : digitValue d.digitChar = d := by
  revert d
  decide

theorem digitChar_ne_brace {d : Nat} (h : d < 16) : d.digitChar ≠ '\x7d' := by
  revert d
  decide

/-- A number is read off the digits that are written for it. -/
theorem hexValue_toDigits (n : Nat) : hexValue (Nat.toDigits 16 n) = n := by
  induction n using Nat.strongRecOn with
  | ind n ih =>
      rw [Nat.toDigits_eq_if (by decide)]
      split
      · next hn => simp [hexValue, digitValue_digitChar hn]
      · next hn =>
          have hlast : digitValue (n % 16).digitChar = n % 16 :=
            digitValue_digitChar (Nat.mod_lt n (by decide))
          have hfirst := ih (n / 16) (by omega)
          rw [hexValue] at hfirst
          rw [hexValue, List.foldl_append, hfirst, List.foldl_cons, List.foldl_nil, hlast]
          omega

theorem ne_brace_of_mem_toDigits {n : Nat} {c : Char} (h : c ∈ Nat.toDigits 16 n) :
    c ≠ '\x7d' := by
  induction n using Nat.strongRecOn with
  | ind n ih =>
      rw [Nat.toDigits_eq_if (by decide)] at h
      split at h
      · next hn =>
          rw [List.mem_singleton.mp h]
          exact digitChar_ne_brace hn
      · next hn =>
          rcases List.mem_append.mp h with h | h
          · exact ih (n / 16) (by omega) h
          · rw [List.mem_singleton.mp h]
            exact digitChar_ne_brace (Nat.mod_lt n (by decide))

/-! ### Escapes -/

/-- The character that is meant behind a backslash, and the text after
it. -/
def afterBackslash : Text → Option (Char × Text)
  | [] => none
  | '0' :: rest => some ('\x00', rest)
  | 't' :: rest => some ('\t', rest)
  | 'r' :: rest => some ('\r', rest)
  | 'n' :: rest => some ('\n', rest)
  | 'u' :: rest =>
      some (Char.ofNat (hexValue ((rest.drop 1).takeWhile (· != '\x7d'))),
        ((rest.drop 1).dropWhile (· != '\x7d')).drop 1)
  | c :: rest => some (c, rest)

def unescape : Text → Option (Char × Text)
  | [] => none
  | c :: rest => if c = '\\' then afterBackslash rest else some (c, rest)

/-- A code point is read up to its closing brace. -/
theorem unescape_codePoint (c : Char) (rest : Text) :
    unescape (codePoint c ++ rest) = some (c, rest) := by
  have hdigits : ∀ d ∈ Nat.toDigits 16 c.toNat, (d != '\x7d') = true := fun d hd =>
    bne_iff_ne.mpr (ne_brace_of_mem_toDigits hd)
  have hbrace : Stops (· != '\x7d') ('\x7d' :: rest) := stops_cons.mpr (by decide)
  have hcode : codePoint c ++ rest =
      '\\' :: 'u' :: '\x7b' :: (Nat.toDigits 16 c.toNat ++ '\x7d' :: rest) := by
    simp [codePoint]
  rw [hcode, unescape, if_pos rfl, afterBackslash, List.drop_succ_cons, List.drop_zero,
    takeWhile_append_of_stops hdigits hbrace, dropWhile_append_of_stops hdigits hbrace,
    hexValue_toDigits, Char.ofNat_toNat]
  rfl

/-- One character is read off its escape, whatever follows it. -/
theorem unescape_escape (c : Char) (rest : Text) :
    unescape (escape '"' c ++ rest) = some (c, rest) := by
  unfold escape
  split
  · next h => subst h; rfl
  split
  · next h => subst h; rfl
  split
  · next h => subst h; rfl
  split
  · next h => subst h; rfl
  split
  · next h =>
      simp only [Bool.or_eq_true, decide_eq_true_eq] at h
      rcases h with rfl | rfl <;> rfl
  split
  · exact unescape_codePoint c rest
  · next hplain _ =>
      simp only [Bool.or_eq_true, decide_eq_true_eq, not_or] at hplain
      rw [List.singleton_append, unescape, if_neg hplain.1]

/-- No escape begins with a bare quote. -/
theorem quote_cons_ne_escape_append (c : Char) (rest tail : Text) :
    '"' :: tail ≠ escape '"' c ++ rest := by
  intro h
  -- A bare quote would be read as itself, and the quote has another escape.
  have hread : some ('"', tail) = some (c, rest) := (congrArg unescape h).trans
    (unescape_escape c rest)
  cases hread
  cases h

/-! ### Quoted texts -/

variable {a b x y : Text}

theorem flatMap_escape_append_inj
    (h : a.flatMap (escape '"') ++ '"' :: x = b.flatMap (escape '"') ++ '"' :: y) :
    a = b ∧ x = y := by
  induction a generalizing b with
  | nil =>
      cases b with
      | nil => exact ⟨rfl, (List.cons.inj h).2⟩
      | cons d b =>
          rw [List.flatMap_cons, List.append_assoc] at h
          exact absurd h (quote_cons_ne_escape_append d _ x)
  | cons c a ih =>
      rw [List.flatMap_cons, List.append_assoc] at h
      cases b with
      | nil => exact absurd h.symm (quote_cons_ne_escape_append c _ y)
      | cons d b =>
          rw [List.flatMap_cons, List.append_assoc] at h
          have hread := congrArg unescape h
          rw [unescape_escape, unescape_escape, Option.some.injEq, Prod.mk.injEq] at hread
          obtain ⟨rfl, hrest⟩ := hread
          obtain ⟨rfl, hxy⟩ := ih hrest
          exact ⟨rfl, hxy⟩

/-- A quoted text is told from what follows it, and shows every character
it holds. -/
theorem ofText_append_inj (h : ofText a ++ x = ofText b ++ y) : a = b ∧ x = y := by
  simp only [ofText, List.cons_append, List.append_assoc, List.cons.injEq, true_and] at h
  exact flatMap_escape_append_inj h

end StoredProc.Text.Quoted
