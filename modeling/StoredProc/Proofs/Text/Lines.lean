import StoredProc.Proofs.Text.Runs

/-!
Counting lines piece by piece. A script is counted one token at a time,
and the sum is the count of the whole as long as no two break characters
that belong together are counted apart. They never are where the second
piece does not begin with a break, nor where the first holds none.
-/

namespace StoredProc.Text

variable {c : Char} {a b : Text}

theorem lineBreaks_cons_of_not_isBreak (h : isBreak c = false) (rest : Text) :
    lineBreaks (c :: rest) = lineBreaks rest := by
  cases rest with
  | nil => simp [lineBreaks, h]
  | cons d rest => simp [lineBreaks, h]

/-- A break that nothing completes counts by itself. -/
theorem lineBreaks_cons_of_stops (hc : isBreak c = true) (hb : Stops isBreak b) :
    lineBreaks (c :: b) = 1 + lineBreaks b := by
  cases b with
  | nil => simp [lineBreaks, hc]
  | cons d b => simp [lineBreaks, hc, stops_cons.mp hb]

/-- The count of a text is the sum of the counts of two parts when the
second does not begin with a break. -/
theorem lineBreaks_append_of_stops (hb : Stops isBreak b) :
    lineBreaks (a ++ b) = lineBreaks a + lineBreaks b := by
  fun_induction lineBreaks a with
  | case1 => simp
  | case2 c hc => rw [List.singleton_append, lineBreaks_cons_of_stops hc hb]
  | case3 c hc =>
      rw [List.singleton_append,
        lineBreaks_cons_of_not_isBreak (Bool.eq_false_iff.mpr hc), Nat.zero_add]
  | case4 c d rest hc hd ih =>
      rw [List.cons_append, List.cons_append, lineBreaks, if_pos hc, if_pos hd, ih,
        Nat.add_assoc]
  | case5 c d rest hc hd ih =>
      rw [List.cons_append, List.cons_append, lineBreaks, if_pos hc, if_neg hd,
        ← List.cons_append, ih, Nat.add_assoc]
  | case6 c d rest hc ih =>
      rw [List.cons_append, lineBreaks_cons_of_not_isBreak (Bool.eq_false_iff.mpr hc), ih]

theorem lineBreaks_append_of_forall (ha : ∀ c ∈ a, isBreak c = false) :
    lineBreaks (a ++ b) = lineBreaks b := by
  induction a with
  | nil => rfl
  | cons c a ih =>
      rw [List.cons_append, lineBreaks_cons_of_not_isBreak (ha c List.mem_cons_self)]
      exact ih fun d hd => ha d (List.mem_cons_of_mem c hd)

theorem lineBreaks_eq_zero (ha : ∀ c ∈ a, isBreak c = false) : lineBreaks a = 0 := by
  rw [← List.append_nil a, lineBreaks_append_of_forall ha, lineBreaks]

/-- Layout that is passed as far as it goes is counted for itself. -/
theorem lineBreaks_append_of_stops_isBlank (hb : Stops isBlank b) :
    lineBreaks (a ++ b) = lineBreaks a + lineBreaks b :=
  lineBreaks_append_of_stops fun c hc => isBreak_eq_false_of_isBlank_eq_false (hb c hc)

/-! ### Where a text may be cut -/

/-- No break lies across the cut between two parts of a text: the second
does not begin with one, or the first does not end with one. -/
def Seam (a b : Text) : Prop := Stops isBreak b ∨ ∀ c ∈ a.getLast?, isBreak c = false

theorem seam_of_stops_isBlank (hb : Stops isBlank b) : Seam a b :=
  .inl fun c hc => isBreak_eq_false_of_isBlank_eq_false (hb c hc)

theorem seam_nil (b : Text) : Seam [] b := .inr fun c hc => by cases hc

/-- What stands in front of both parts does not matter, unless the first
is empty. -/
theorem Seam.prepend (h : Seam a b) (ha : a ≠ []) (front : Text) : Seam (front ++ a) b := by
  refine h.imp id fun h c hc => h c ?_
  rw [List.getLast?_append, List.getLast?_eq_some_getLast ha, Option.some_or] at hc
  rw [List.getLast?_eq_some_getLast ha]
  exact hc

theorem Seam.of_append {c : Text} (h : Seam a (b ++ c)) : Seam a b :=
  h.imp Stops.of_append id

theorem lineBreaks_append_of_seam (h : Seam a b) :
    lineBreaks (a ++ b) = lineBreaks a + lineBreaks b := by
  rcases h with hb | ha
  · exact lineBreaks_append_of_stops hb
  · rcases List.eq_nil_or_concat a with rfl | ⟨front, c, rfl⟩
    · rw [List.nil_append, lineBreaks, Nat.zero_add]
    · have hc : isBreak c = false := ha c (by simp)
      have hstop : ∀ rest, Stops isBreak (c :: rest) := fun rest => stops_cons.mpr hc
      rw [List.concat_eq_append, List.append_assoc, List.singleton_append,
        lineBreaks_append_of_stops (hstop b), lineBreaks_append_of_stops (hstop []),
        lineBreaks_cons_of_not_isBreak hc, lineBreaks_cons_of_not_isBreak hc, lineBreaks,
        Nat.add_zero]

/-- A longer text has no fewer breaks. -/
theorem lineBreaks_le_append (a b : Text) : lineBreaks a ≤ lineBreaks (a ++ b) := by
  fun_induction lineBreaks a with
  | case1 => exact Nat.zero_le _
  | case2 c hc =>
      cases b with
      | nil => simp [lineBreaks, hc]
      | cons d b =>
          rw [List.singleton_append, lineBreaks, if_pos hc]
          split <;> exact Nat.le_add_right 1 _
  | case3 c hc => exact Nat.zero_le _
  | case4 c d rest hc hd ih =>
      rw [List.cons_append, List.cons_append, lineBreaks, if_pos hc, if_pos hd]
      exact Nat.add_le_add_left ih 1
  | case5 c d rest hc hd ih =>
      rw [List.cons_append, List.cons_append, lineBreaks, if_pos hc, if_neg hd]
      exact Nat.add_le_add_left ih 1
  | case6 c d rest hc ih =>
      rw [List.cons_append, lineBreaks_cons_of_not_isBreak (Bool.eq_false_iff.mpr hc)]
      exact ih

/-! ### Counting apart -/

/-- One character in front makes at most one break more, and none
fewer. -/
theorem lineBreaks_cons_bounds (c : Char) (a : Text) :
    lineBreaks a ≤ lineBreaks (c :: a) ∧ lineBreaks (c :: a) ≤ 1 + lineBreaks a := by
  induction a generalizing c with
  | nil => by_cases hc : isBreak c = true <;> simp [lineBreaks, hc]
  | cons d a ih =>
      obtain ⟨hle, hge⟩ := ih d
      by_cases hc : isBreak c = true
      · rw [lineBreaks, if_pos hc]
        split <;> omega
      · rw [lineBreaks_cons_of_not_isBreak (Bool.eq_false_iff.mpr hc)]
        omega

/-- A cut can make one break into two and does nothing else to the
count. -/
theorem lineBreaks_append_bounds (a b : Text) :
    lineBreaks (a ++ b) ≤ lineBreaks a + lineBreaks b ∧
      lineBreaks a + lineBreaks b ≤ lineBreaks (a ++ b) + 1 := by
  fun_induction lineBreaks a with
  | case1 => rw [List.nil_append]; omega
  | case2 c hc =>
      obtain ⟨hle, hge⟩ := lineBreaks_cons_bounds c b
      rw [List.singleton_append]
      omega
  | case3 c hc =>
      rw [List.singleton_append, lineBreaks_cons_of_not_isBreak (Bool.eq_false_iff.mpr hc)]
      omega
  | case4 c d rest hc hd ih =>
      rw [List.cons_append, List.cons_append, lineBreaks, if_pos hc, if_pos hd]
      omega
  | case5 c d rest hc hd ih =>
      rw [List.cons_append, List.cons_append, lineBreaks, if_pos hc, if_neg hd,
        ← List.cons_append]
      omega
  | case6 c d rest hc ih =>
      rw [List.cons_append, lineBreaks_cons_of_not_isBreak (Bool.eq_false_iff.mpr hc)]
      exact ih

end StoredProc.Text
