import StoredProc.Text.Basic

/-!
Runs of characters of one class. A word and a stretch of blanks are cut
off a text as far as their class goes, so what matters about the text
after them is only that it does not go on with the class: `Stops` says
so. The three classes of the language do not meet, which is why a run of
one of them ends where a run of another begins.
-/

namespace StoredProc.Text

/-! ### Where a run ends -/

/-- The text does not begin with a character of the class. -/
def Stops (test : Char → Bool) (text : Text) : Prop :=
  ∀ c ∈ text.head?, test c = false

variable {test : Char → Bool} {run rest : Text} {c : Char}

@[simp] theorem stops_nil : Stops test [] := by
  intro c hc
  cases hc

@[simp] theorem stops_cons : Stops test (c :: rest) ↔ test c = false := by
  simp [Stops]

/-- A run that is not empty hides what follows it. -/
theorem stops_append_of_ne_nil (hrun : Stops test run) (hne : run ≠ []) :
    Stops test (run ++ rest) := by
  cases run with
  | nil => exact absurd rfl hne
  | cons c run => exact stops_cons.mpr (stops_cons.mp hrun)

theorem Stops.append (hrun : Stops test run) (hrest : Stops test rest) :
    Stops test (run ++ rest) := by
  cases run with
  | nil => exact hrest
  | cons c run => exact stops_cons.mpr (stops_cons.mp hrun)

/-- A beginning of a text begins as the text does. -/
theorem Stops.of_append (h : Stops test (run ++ rest)) : Stops test run := by
  cases run with
  | nil => exact stops_nil
  | cons c run => exact stops_cons.mpr (stops_cons.mp h)

theorem stops_of_forall (h : ∀ c ∈ run, test c = false) : Stops test run := by
  intro c hc
  exact h c (List.mem_of_mem_head? hc)

theorem stops_dropWhile (test : Char → Bool) (text : Text) :
    Stops test (text.dropWhile test) := by
  induction text with
  | nil => exact stops_nil
  | cons c rest ih =>
      rw [List.dropWhile_cons]
      by_cases hc : test c = true
      · rw [if_pos hc]
        exact ih
      · rw [if_neg hc]
        exact stops_cons.mpr (Bool.eq_false_iff.mpr hc)

theorem takeWhile_append_of_stops (hrun : ∀ c ∈ run, test c = true) (hrest : Stops test rest) :
    (run ++ rest).takeWhile test = run := by
  rw [List.takeWhile_append_of_pos hrun]
  cases rest with
  | nil => simp
  | cons c rest => simp [stops_cons.mp hrest]

theorem dropWhile_append_of_stops (hrun : ∀ c ∈ run, test c = true) (hrest : Stops test rest) :
    (run ++ rest).dropWhile test = rest := by
  rw [List.dropWhile_append_of_pos hrun]
  cases rest with
  | nil => rfl
  | cons c rest => simp [stops_cons.mp hrest]

theorem forall_mem_takeWhile (test : Char → Bool) (text : Text) :
    ∀ c ∈ text.takeWhile test, test c = true :=
  List.all_eq_true.mp List.all_takeWhile

/-! ### The classes do not meet -/

theorem isWordPart_eq_false_of_isBlank (h : isBlank c = true) : isWordPart c = false := by
  simp only [isBlank, Bool.or_eq_true, decide_eq_true_eq] at h
  rcases h with ((((rfl | rfl) | rfl) | rfl) | rfl) | rfl <;> decide

theorem isBlank_eq_false_of_isWordPart (h : isWordPart c = true) : isBlank c = false := by
  cases hblank : isBlank c with
  | false => rfl
  | true => rw [isWordPart_eq_false_of_isBlank hblank] at h; cases h

theorem isBlank_of_isBreak (h : isBreak c = true) : isBlank c = true := by
  simp only [isBreak, Bool.or_eq_true, decide_eq_true_eq] at h
  rcases h with rfl | rfl <;> decide

theorem isBreak_eq_false_of_isBlank_eq_false (h : isBlank c = false) : isBreak c = false := by
  cases hbreak : isBreak c with
  | false => rfl
  | true => rw [isBlank_of_isBreak hbreak] at h; cases h

/-! ### Letter case -/

theorem toLower_toUpper_char (c : Char) : c.toUpper.toLower = c.toLower := by
  delta Char.toUpper
  by_cases hc : 'a'.val ≤ c.val ∧ c.val ≤ 'z'.val
  · rw [dif_pos hc]
    obtain ⟨hlow, hhigh⟩ := hc
    rw [UInt32.le_iff_toNat_le] at hlow hhigh
    have ha : 'a'.val.toNat = 97 := rfl
    have hz : 'z'.val.toNat = 122 := rfl
    have hA : 'A'.val.toNat = 65 := rfl
    have hZ : 'Z'.val.toNat = 90 := rfl
    -- The distance to upper case is a negative number that has wrapped around.
    have hdown : ('A'.val - 'a'.val).toNat = 2 ^ 32 - 32 := rfl
    have hup : ('a'.val - 'A'.val).toNat = 32 := rfl
    have hval : (c.val + ('A'.val - 'a'.val)).toNat = c.val.toNat - 32 := by
      rw [UInt32.toNat_add, hdown]
      omega
    delta Char.toLower
    rw [dif_pos, dif_neg]
    · apply Char.ext
      apply UInt32.toNat.inj
      rw [UInt32.toNat_add, hval, hup]
      omega
    · simp only [ge_iff_le, UInt32.le_iff_toNat_le]
      omega
    · simp only [ge_iff_le, UInt32.le_iff_toNat_le, hval]
      omega
  · rw [dif_neg hc]

/-- Texts that are the same in upper case are the same in lower case. -/
theorem toLower_toUpper (text : Text) : toLower (toUpper text) = toLower text := by
  simp only [toLower, toUpper, List.map_map]
  apply List.map_congr_left
  intro c _
  exact toLower_toUpper_char c

theorem toUpper_toLower_char (c : Char) : c.toLower.toUpper = c.toUpper := by
  delta Char.toLower
  by_cases hc : c.val ≥ 'A'.val ∧ c.val ≤ 'Z'.val
  · rw [dif_pos hc]
    obtain ⟨hlow, hhigh⟩ := hc
    rw [ge_iff_le, UInt32.le_iff_toNat_le] at hlow
    rw [UInt32.le_iff_toNat_le] at hhigh
    have ha : 'a'.val.toNat = 97 := rfl
    have hz : 'z'.val.toNat = 122 := rfl
    have hA : 'A'.val.toNat = 65 := rfl
    have hZ : 'Z'.val.toNat = 90 := rfl
    -- The distance to upper case is a negative number that has wrapped around.
    have hdown : ('A'.val - 'a'.val).toNat = 2 ^ 32 - 32 := rfl
    have hup : ('a'.val - 'A'.val).toNat = 32 := rfl
    have hval : (c.val + ('a'.val - 'A'.val)).toNat = c.val.toNat + 32 := by
      rw [UInt32.toNat_add, hup]
      omega
    delta Char.toUpper
    rw [dif_pos, dif_neg]
    · apply Char.ext
      apply UInt32.toNat.inj
      rw [UInt32.toNat_add, hval, hdown]
      omega
    · simp only [UInt32.le_iff_toNat_le]
      omega
    · simp only [UInt32.le_iff_toNat_le, hval]
      omega
  · rw [dif_neg hc]

/-- Texts that are the same in lower case are the same in upper case. -/
theorem toUpper_toLower (text : Text) : toUpper (toLower text) = toUpper text := by
  simp only [toLower, toUpper, List.map_map]
  apply List.map_congr_left
  intro c _
  exact toUpper_toLower_char c

/-- Lower case makes no word of what is none. -/
theorem isWordStart_of_toLower (h : isWordStart c.toLower = true) : isWordStart c = true := by
  delta Char.toLower at h
  by_cases hc : c.val ≥ 'A'.val ∧ c.val ≤ 'Z'.val
  · have hupper : c.isUpper = true := decide_eq_true hc
    have halpha : c.isAlpha = true := (Bool.or_eq_true _ _).mpr (.inl hupper)
    rw [isWordStart, halpha, Bool.true_or]
  · rwa [dif_neg hc] at h

/-! ### Words and blanks -/

/-- A word: a letter or underscore, and then letters, digits and
underscores. -/
def IsWord : Text → Prop
  | [] => False
  | c :: rest => isWordStart c = true ∧ ∀ d ∈ rest, isWordPart d = true

instance : DecidablePred IsWord
  | [] => inferInstanceAs (Decidable False)
  | c :: rest =>
      decidable_of_iff (isWordStart c = true ∧ rest.all isWordPart = true)
        (and_congr_right fun _ => List.all_eq_true)

theorem IsWord.ne_nil (h : IsWord run) : run ≠ [] := by
  rintro rfl
  exact h

theorem IsWord.forall_isWordPart (h : IsWord run) : ∀ c ∈ run, isWordPart c = true := by
  cases run with
  | nil => exact h.elim
  | cons d run =>
      intro c hc
      rcases List.mem_cons.mp hc with rfl | hc
      · exact isWordPart_of_isWordStart h.1
      · exact h.2 c hc

theorem IsWord.not_mem (h : IsWord run) (hc : isWordPart c = false) : c ∉ run := by
  intro hmem
  rw [h.forall_isWordPart c hmem] at hc
  cases hc

theorem IsWord.exists_cons (h : IsWord run) :
    ∃ c tail, run = c :: tail ∧ isWordStart c = true := by
  cases run with
  | nil => exact h.elim
  | cons c tail => exact ⟨c, tail, rfl, h.1⟩

/-- A word does not begin with a blank. -/
theorem IsWord.stops_isBlank (h : IsWord run) (rest : Text) : Stops isBlank (run ++ rest) := by
  obtain ⟨c, tail, rfl, hc⟩ := h.exists_cons
  rw [List.cons_append, stops_cons]
  exact isBlank_eq_false_of_isWordPart (isWordPart_of_isWordStart hc)

def IsLayout (run : Text) : Prop := ∀ c ∈ run, isBlank c = true

instance (run : Text) : Decidable (IsLayout run) :=
  decidable_of_iff (run.all isBlank = true) List.all_eq_true

end StoredProc.Text
