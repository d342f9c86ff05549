import Mathlib.Algebra.GroupWithZero.Nat
import Mathlib.Data.List.SplitBy
import Mathlib.Order.Bounds.Defs
import StoredProc.Proofs.Text.Lines

/-!
How many line breaks a text has, said without a reading from the left.
Break characters stand in runs in which no two neighbours are equal, and
a run of them is cut into pairs, with a single one at the end if their
number is odd. No other way of cutting them makes fewer pieces.

Both facts come from what a cut does to the count: it makes one break
into two where the characters on its two sides form a pair, and changes
nothing elsewhere.
-/

namespace StoredProc.Text

/-- Two different break characters, which side by side are one break. -/
def paired (c d : Char) : Bool := isBreak c && isBreak d && c != d

/-- The runs of break characters in which every two neighbours are a
pair, as long as they can be. -/
def breakRuns (text : Text) : List Text := (text.splitBy paired).filter (·.all isBreak)

def breakSpellings : List Text := ["\n".toList, "\r".toList, "\r\n".toList, "\n\r".toList]

/-- The pieces make up the text, and each of them is one break or one
character of another kind. -/
structure CutAs (text : Text) (pieces : List Text) : Prop where
  flatten : pieces.flatten = text
  piece : ∀ piece ∈ pieces, piece ∈ breakSpellings ∨ ∃ c, isBreak c = false ∧ piece = [c]

def breaksAmong (pieces : List Text) : Nat := pieces.countP (· ∈ breakSpellings)

variable {a b run text : Text} {c d : Char} {pieces : List Text}

theorem paired_iff : paired c d = true ↔ c = '\r' ∧ d = '\n' ∨ c = '\n' ∧ d = '\r' := by
  simp only [paired, isBreak, Bool.and_eq_true, Bool.or_eq_true, decide_eq_true_eq, bne_iff_ne]
  constructor
  · rintro ⟨⟨rfl | rfl, rfl | rfl⟩, hne⟩ <;> simp at hne ⊢
  · rintro (⟨rfl, rfl⟩ | ⟨rfl, rfl⟩) <;> simp

/-! ### Where a cut changes nothing -/

/-- A break that the next character does not complete counts by
itself. -/
theorem lineBreaks_cons_of_not_paired (hc : isBreak c = true)
    (hb : ∀ d ∈ b.head?, paired c d = false) : lineBreaks (c :: b) = 1 + lineBreaks b := by
  cases b with
  | nil => simp [lineBreaks, hc]
  | cons d b =>
      have hd : (isBreak d && c != d) = false := by
        simpa [paired, hc] using hb d rfl
      rw [lineBreaks, if_pos hc, hd]
      rfl

/-- The counts of two parts add up where the cut is not inside a
pair. -/
theorem lineBreaks_append_of_not_paired
    (h : ∀ c ∈ a.getLast?, ∀ d ∈ b.head?, paired c d = false) :
    lineBreaks (a ++ b) = lineBreaks a + lineBreaks b := by
  fun_induction lineBreaks a with
  | case1 => simp
  | case2 c hc =>
      rw [List.singleton_append]
      exact lineBreaks_cons_of_not_paired hc (h c rfl)
  | case3 c hc =>
      rw [List.singleton_append, lineBreaks_cons_of_not_isBreak (Bool.eq_false_iff.mpr hc),
        Nat.zero_add]
  | case4 c d rest hc hd ih =>
      have hrest : ∀ x ∈ rest.getLast?, ∀ y ∈ b.head?, paired x y = false := by
        intro x hx
        apply h x
        rw [List.getLast?_cons_cons, List.getLast?_cons]
        simp [Option.mem_def.mp hx]
      rw [List.cons_append, List.cons_append, lineBreaks, if_pos hc, if_pos hd, ih hrest,
        Nat.add_assoc]
  | case5 c d rest hc hd ih =>
      rw [List.getLast?_cons_cons] at h
      rw [List.cons_append, List.cons_append, lineBreaks, if_pos hc, if_neg hd,
        ← List.cons_append, ih h, Nat.add_assoc]
  | case6 c d rest hc ih =>
      rw [List.getLast?_cons_cons] at h
      rw [List.cons_append, lineBreaks_cons_of_not_isBreak (Bool.eq_false_iff.mpr hc), ih h]

/-- Texts that are put together without making a pair are counted one by
one. -/
theorem lineBreaks_flatten_of_isChain (hne : [] ∉ pieces)
    (h : pieces.IsChain fun a b => ∃ ha hb, paired (a.getLast ha) (b.head hb) = false) :
    lineBreaks pieces.flatten = (pieces.map lineBreaks).sum := by
  induction pieces with
  | nil => rfl
  | cons a pieces ih =>
      rw [List.mem_cons, not_or] at hne
      rw [List.isChain_cons] at h
      obtain ⟨hfirst, hothers⟩ := h
      have hcut : ∀ c ∈ a.getLast?, ∀ d ∈ pieces.flatten.head?, paired c d = false := by
        intro c hc d hd
        cases pieces with
        | nil => cases hd
        | cons b pieces =>
            obtain ⟨ha, hb, hpair⟩ := hfirst b rfl
            have hlast : a.getLast ha = c := List.getLast_of_mem_getLast? hc
            have hhead : b.head hb = d := by
              rw [List.flatten_cons, List.head?_append_of_ne_nil _ hb] at hd
              exact List.head_of_mem_head? hd
            rwa [hlast, hhead] at hpair
      rw [List.flatten_cons, lineBreaks_append_of_not_paired hcut, ih hne.2 hothers,
        List.map_cons, List.sum_cons]

/-! ### Runs -/

/-- A run of pairs is cut in the middle. -/
theorem lineBreaks_of_isChain (hchain : run.IsChain fun c d => paired c d = true)
    (hbreak : run.all isBreak = true) : lineBreaks run = (run.length + 1) / 2 := by
  fun_induction lineBreaks run with
  | case1 => rfl
  | case2 c hc => simp
  | case3 c hc => simp [hc] at hbreak
  | case4 c d rest hc hd ih =>
      have hrest : rest.all isBreak = true := by
        simp only [List.all_cons, Bool.and_eq_true] at hbreak
        exact hbreak.2.2
      rw [ih hchain.tail.tail hrest, List.length_cons, List.length_cons]
      omega
  | case5 c d rest hc hd ih =>
      have hpair : paired c d = true := (List.isChain_cons_cons.mp hchain).1
      simp only [paired, hc, Bool.true_and] at hpair
      exact absurd hpair hd
  | case6 c d rest hc ih =>
      have hpair : paired c d = true := (List.isChain_cons_cons.mp hchain).1
      simp [paired, hc] at hpair

/-- A run that begins with a break goes on with breaks. -/
theorem all_isBreak_of_isChain (hc : isBreak c = true)
    (hchain : (c :: run).IsChain fun c d => paired c d = true) :
    (c :: run).all isBreak = true := by
  induction run generalizing c with
  | nil => simp [hc]
  | cons d run ih =>
      obtain ⟨hpair, hrest⟩ := List.isChain_cons_cons.mp hchain
      simp only [paired, Bool.and_eq_true] at hpair
      rw [List.all_cons, hc, ih hpair.1.2 hrest]
      rfl

/-- What is no run of breaks is a single other character. -/
theorem lineBreaks_of_not_all_isBreak (hchain : run.IsChain fun c d => paired c d = true)
    (hother : run.all isBreak = false) : lineBreaks run = 0 := by
  cases run with
  | nil => rfl
  | cons c run =>
      have hc : isBreak c = false := by
        rw [Bool.eq_false_iff]
        intro hc
        rw [all_isBreak_of_isChain hc hchain] at hother
        cases hother
      cases run with
      | nil => simp [lineBreaks, hc]
      | cons d run =>
          have hpair := (List.isChain_cons_cons.mp hchain).1
          simp [paired, hc] at hpair

/-- The count is the sum over the runs of half their lengths, rounded
up. -/
theorem lineBreaks_eq_sum_breakRuns (text : Text) :
    lineBreaks text = ((breakRuns text).map fun run => (run.length + 1) / 2).sum := by
  have hsum : ∀ pieces : List Text,
      (∀ run ∈ pieces, run.IsChain fun c d => paired c d = true) →
      (pieces.map lineBreaks).sum =
        ((pieces.filter (·.all isBreak)).map fun run => (run.length + 1) / 2).sum := by
    intro pieces hchains
    induction pieces with
    | nil => rfl
    | cons run pieces ih =>
        have hchain := hchains run List.mem_cons_self
        have hothers := ih fun other hother => hchains other (List.mem_cons_of_mem run hother)
        rw [List.map_cons, List.sum_cons, hothers, List.filter_cons]
        cases hbreak : run.all isBreak with
        | true => simp [lineBreaks_of_isChain hchain hbreak]
        | false => simp [lineBreaks_of_not_all_isBreak hchain hbreak]
  have hflatten := lineBreaks_flatten_of_isChain (List.nil_notMem_splitBy paired text)
    (List.isChain_getLast_head_splitBy paired text)
  rw [List.flatten_splitBy] at hflatten
  rw [hflatten]
  exact hsum _ fun run => List.isChain_of_mem_splitBy

/-! ### The fewest pieces -/

theorem lineBreaks_of_mem_breakSpellings (h : run ∈ breakSpellings) : lineBreaks run = 1 := by
  simp only [breakSpellings, List.mem_cons, List.not_mem_nil, or_false] at h
  rcases h with rfl | rfl | rfl | rfl <;> decide

theorem not_mem_breakSpellings (hc : isBreak c = false) : [c] ∉ breakSpellings := by
  intro h
  have hone := lineBreaks_of_mem_breakSpellings h
  simp [lineBreaks, hc] at hone

theorem singleton_mem_breakSpellings (hc : isBreak c = true) : [c] ∈ breakSpellings := by
  simp only [isBreak, Bool.or_eq_true, decide_eq_true_eq] at hc
  rcases hc with rfl | rfl <;> decide

theorem pair_mem_breakSpellings (h : paired c d = true) : [c, d] ∈ breakSpellings := by
  rcases paired_iff.mp h with ⟨rfl, rfl⟩ | ⟨rfl, rfl⟩ <;> decide

theorem CutAs.cons_break (h : CutAs text pieces) (hrun : run ∈ breakSpellings) :
    CutAs (run ++ text) (run :: pieces) ∧ breaksAmong (run :: pieces) = 1 + breaksAmong pieces := by
  refine ⟨⟨by rw [List.flatten_cons, h.flatten], ?_⟩, ?_⟩
  · intro piece hpiece
    rcases List.mem_cons.mp hpiece with rfl | hpiece
    · exact .inl hrun
    · exact h.piece piece hpiece
  · simp [breaksAmong, hrun, Nat.add_comm]

theorem CutAs.cons_other (h : CutAs text pieces) (hc : isBreak c = false) :
    CutAs (c :: text) ([c] :: pieces) ∧ breaksAmong ([c] :: pieces) = breaksAmong pieces := by
  refine ⟨⟨by rw [List.flatten_cons, h.flatten]; rfl, ?_⟩, ?_⟩
  · intro piece hpiece
    rcases List.mem_cons.mp hpiece with rfl | hpiece
    · exact .inr ⟨c, hc, rfl⟩
    · exact h.piece piece hpiece
  · simp [breaksAmong, not_mem_breakSpellings hc]

/-- Reading from the left is one way of cutting. -/
theorem exists_cutAs (text : Text) :
    ∃ pieces, CutAs text pieces ∧ breaksAmong pieces = lineBreaks text := by
  have hnil : CutAs [] [] := ⟨rfl, by simp⟩
  fun_induction lineBreaks text with
  | case1 => exact ⟨[], hnil, rfl⟩
  | case2 c hc => exact ⟨_, hnil.cons_break (singleton_mem_breakSpellings hc)⟩
  | case3 c hc => exact ⟨_, hnil.cons_other (Bool.eq_false_iff.mpr hc)⟩
  | case4 c d rest hc hd ih =>
      obtain ⟨pieces, hcut, hcount⟩ := ih
      have hpair : paired c d = true := by
        rw [paired, hc, Bool.true_and]
        exact hd
      rw [← hcount]
      exact ⟨_, hcut.cons_break (pair_mem_breakSpellings hpair)⟩
  | case5 c d rest hc hd ih =>
      obtain ⟨pieces, hcut, hcount⟩ := ih
      rw [← hcount]
      exact ⟨_, hcut.cons_break (singleton_mem_breakSpellings hc)⟩
  | case6 c d rest hc ih =>
      obtain ⟨pieces, hcut, hcount⟩ := ih
      rw [← hcount]
      exact ⟨_, hcut.cons_other (Bool.eq_false_iff.mpr hc)⟩

/-- No way of cutting makes fewer breaks: a piece that is a break counts
for one, and no cut makes a count smaller. -/
theorem CutAs.lineBreaks_le (h : CutAs text pieces) : lineBreaks text ≤ breaksAmong pieces := by
  induction pieces generalizing text with
  | nil =>
      rw [← h.flatten]
      exact Nat.le_refl 0
  | cons piece pieces ih =>
      have hrest : CutAs pieces.flatten pieces :=
        ⟨rfl, fun other hother => h.piece other (List.mem_cons_of_mem piece hother)⟩
      have hle := ih hrest
      rw [← h.flatten, List.flatten_cons]
      rcases h.piece piece List.mem_cons_self with hbreak | ⟨c, hc, rfl⟩
      · have hcut := (lineBreaks_append_bounds piece pieces.flatten).1
        rw [lineBreaks_of_mem_breakSpellings hbreak] at hcut
        rw [(hrest.cons_break hbreak).2]
        omega
      · rw [List.singleton_append, lineBreaks_cons_of_not_isBreak hc, (hrest.cons_other hc).2]
        exact hle

/-- A text has half as many breaks as each run of alternating break
characters is long, rounded up and added up over the runs. That is the
least number of breaks into which its break characters can be cut. A cut
of the text makes at most one break more, and none where the characters
on its two sides are not a pair. -/
theorem lineBreaks_exact :
    (∀ text : Text,
      lineBreaks text = ((breakRuns text).map fun run => (run.length + 1) / 2).sum ∧
      IsLeast {n | ∃ pieces, CutAs text pieces ∧ breaksAmong pieces = n} (lineBreaks text)) ∧
    ∀ a b : Text,
      lineBreaks (a ++ b) ≤ lineBreaks a + lineBreaks b ∧
      lineBreaks a + lineBreaks b ≤ lineBreaks (a ++ b) + 1 ∧
      (¬ (a.getLast? = some '\r' ∧ b.head? = some '\n') →
        ¬ (a.getLast? = some '\n' ∧ b.head? = some '\r') →
          lineBreaks (a ++ b) = lineBreaks a + lineBreaks b) := by
  refine ⟨fun text => ⟨lineBreaks_eq_sum_breakRuns text, exists_cutAs text, ?_⟩, fun a b => ?_⟩
  · rintro _ ⟨pieces, hcut, rfl⟩
    exact hcut.lineBreaks_le
  · obtain ⟨hle, hge⟩ := lineBreaks_append_bounds a b
    refine ⟨hle, hge, fun hreturn hfeed => lineBreaks_append_of_not_paired ?_⟩
    intro c hc d hd
    rw [Bool.eq_false_iff]
    intro hpair
    rcases paired_iff.mp hpair with ⟨rfl, rfl⟩ | ⟨rfl, rfl⟩
    · exact hreturn ⟨hc, hd⟩
    · exact hfeed ⟨hc, hd⟩

/-- Two equal characters side by side end a run. -/
example : breakRuns "\n\r\n\r\r".toList = ["\n\r\n\r".toList, "\r".toList] ∧
    lineBreaks "\n\r\n\r\r".toList = 3 := by
  decide +kernel

end StoredProc.Text
