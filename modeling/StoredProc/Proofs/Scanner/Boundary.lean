import StoredProc.Proofs.Scanner.Bytes

/-!
Every cut is on a boundary. A scanner of bytes that was asked anything, in
any order, and whether or not it was refused, stands where the scanner of
the text stands. That place is on a boundary and inside the bytes, and so
is every place that the next request cuts at.

Two facts about the text come with it. Raw text is the longest beginning
of the rest that does not hold the delimiter. An error about a character
names the character in front of the scanner, so there always is one.
-/

namespace StoredProc

open Text Text.Utf8

namespace ByteScanner

open ByteScan

/-- One request after another. -/
theorem after_inBytes (s : Scanner) (front : Text) (requests : List Request) :
    ∃ front', front' ++ (s.after requests).rest = front ++ s.rest ∧
      (s.inBytes front).after requests = some ((s.after requests).inBytes front') := by
  induction requests generalizing s front with
  | nil => exact ⟨front, rfl, rfl⟩
  | cons request requests ih =>
      obtain ⟨mid, hmid, hrun⟩ := (mirrors_perform request s front).exists_run
      obtain ⟨last, hlast, hrest⟩ := ih (Scan.leaves request.perform s) mid
      refine ⟨last, hlast.trans hmid, ?_⟩
      rw [after, List.foldlM_cons, hrun]
      exact hrest

/-- A scanner of bytes stands where a scanner of the script does, and
there it can be cut. -/
structure StandsAt (source : Text) (b : ByteScanner) (s : Scanner) : Prop where
  bytes : b.bytes = encode source
  place_le : b.place ≤ b.bytes.length
  isBoundary : isBoundary b.bytes b.place = true
  rest : slice? b.bytes b.place b.bytes.length = some s.rest
  line : b.line = s.line
  held : b.held = s.held
  trace : b.trace = s.trace

theorem standsAt_inBytes {source front : Text} {s : Scanner} (h : front ++ s.rest = source) :
    (s.inBytes front).StandsAt source s where
  bytes := congrArg encode h
  place_le := s.place_inBytes_le front
  isBoundary := isBoundary_size front s.rest
  rest := slice?_rest front s.rest
  line := rfl
  held := rfl
  trace := rfl

/-- At the end of the bytes is at the end of the text. -/
theorem isFinished_inBytes (s : Scanner) (front : Text) :
    (s.inBytes front).isFinished = s.isFinished := by
  unfold isFinished Scanner.isFinished
  rw [Scanner.held_inBytes]
  cases s.held with
  | some token => rfl
  | none =>
      rw [s.length_inBytes]
      cases s.rest with
      | nil => simp [Utf8.size, encode]
      | cons c more =>
          have hpos := size_pos (List.cons_ne_nil c more)
          exact decide_eq_false (by omega)

end ByteScanner

/-! ### What is found on the way -/

def Text.LongestWithout (d : Char) (raw text : Text) : Prop :=
  raw <+: text ∧ d ∉ raw ∧ ∀ other, other <+: text → d ∉ other → other <+: raw

theorem Text.eq_of_prefix_of_not_mem {d : Char} {front raw more : Text} (hfront : front <+: raw)
    (hraw : raw <+: front ++ d :: more) (hd : d ∉ raw) : raw = front := by
  obtain ⟨tail, rfl⟩ := hfront
  cases tail with
  | nil => rw [List.append_nil]
  | cons c tail =>
      have hc := (List.cons_prefix_cons.mp ((List.prefix_append_right_inj front).mp hraw)).1
      exact absurd (by simp [hc]) hd

theorem Text.longestWithout_iff {d : Char} {raw front : Text} (h : d ∉ front) (more : Text) :
    LongestWithout d raw (front ++ d :: more) ↔ raw = front := by
  constructor
  · rintro ⟨hraw, hd, hlongest⟩
    exact eq_of_prefix_of_not_mem (hlongest front (List.prefix_append _ _) h) hraw hd
  · rintro rfl
    refine ⟨List.prefix_append _ _, h, fun other hother hd => ?_⟩
    rcases List.prefix_or_prefix_of_prefix hother (List.prefix_append raw (d :: more)) with
      hshort | hlong
    · exact hshort
    · exact (eq_of_prefix_of_not_mem hlong hother hd) ▸ List.prefix_refl _

/-- An error about a character names the one that the scanner is in front
of. -/
def SyntaxError.NamesNext : SyntaxError → Scanner → Prop
  | unexpectedSymbol _ c, s => s.held = none ∧ s.rest.head? = some c
  | _, _ => True

namespace Scan

variable {α : Type} {m : Scan α} {s t : Scanner} {e : SyntaxError}

theorem eq_ok_of_outcome {a : α} (h : outcome m s = .ok a) : m s = .ok a (leaves m s) := by
  unfold outcome at h
  unfold leaves
  cases hs : m s with
  | ok b t =>
      rw [hs] at h
      cases h
      rfl
  | error e t =>
      rw [hs] at h
      cases h

theorem eq_error_of_outcome (h : outcome m s = .error e) : m s = .error e (leaves m s) := by
  unfold outcome at h
  unfold leaves
  cases hs : m s with
  | ok b t =>
      rw [hs] at h
      cases h
  | error e t =>
      rw [hs] at h
      cases h
      rfl

theorem namesNext_of_cut (hheld : s.held = none) (h : cut s = .error e t) : e.NamesNext t := by
  obtain ⟨c, hfirst, rfl, rfl⟩ := cut_eq_error h
  obtain ⟨⟨more, hrest⟩, -⟩ := Lexeme.exists_cons_of_first hfirst
  exact ⟨hheld, by rw [hrest, List.head?_cons]⟩

/-- Errors about a character come from cutting alone. -/
theorem keeps_namesNext (request : Request) :
    Keeps (fun _ => True) SyntaxError.NamesNext request.perform := by
  have hnext : Keeps (fun _ => True) SyntaxError.NamesNext next :=
    ⟨fun _ _ => trivial, fun _ h => namesNext_of_cut (next_eq_error h).1 (next_eq_error h).2⟩
  have hpeek : Keeps (fun _ => True) SyntaxError.NamesNext peek :=
    ⟨fun _ _ => trivial, fun _ h => namesNext_of_cut (peek_eq_error h).1 (peek_eq_error h).2⟩
  cases request with
  | next => exact hnext.bind fun _ => keeps_pure _
  | peek => exact hpeek.bind fun _ => keeps_pure _
  | peekKind => exact (hpeek.bind fun _ => keeps_pure _).bind fun _ => keeps_pure _
  | expect kind =>
      refine Keeps.bind ⟨fun _ _ => trivial, fun _ h => ?_⟩ fun _ => keeps_pure _
      rcases expect_eq_error h with h | ⟨token, -, -, rfl⟩
      · exact hnext.error trivial h
      · trivial
  | rawUntil d =>
      refine Keeps.bind ⟨fun _ _ => trivial, fun _ h => ?_⟩ fun _ => keeps_pure _
      rcases (rawUntil_eq_error h).2 with ⟨token, -, rfl⟩ | ⟨-, -, rfl⟩ <;> trivial
  | tokenize => exact hnext.tokenize.bind fun _ => keeps_pure _

/-- Raw text up to a delimiter is the longest beginning of what is left
that does not hold it. -/
theorem rawUntil_eq_ok_iff {d : Char} {raw : Text} :
    outcome (rawUntil d) s = .ok raw ↔
      s.held = none ∧ d ∈ s.rest ∧ LongestWithout d raw s.rest := by
  constructor
  · intro h
    obtain ⟨hheld, more, hrest, hraw, -⟩ := rawUntil_eq_ok_cases (eq_ok_of_outcome h)
    rw [hrest]
    exact ⟨hheld, by simp, (longestWithout_iff hraw more).mpr rfl⟩
  · rintro ⟨hheld, hmem, hlongest⟩
    obtain ⟨front, more, hrest, hfront⟩ := List.eq_append_cons_of_mem hmem
    rw [hrest, longestWithout_iff hfront] at hlongest
    rw [outcome, rawUntil_of_eq hheld hrest hfront, hlongest]

end Scan

namespace ByteScanner

/-- Whatever is asked of a scanner of bytes, and in whatever order, every
cut is made on boundaries: it is left at a place inside the bytes where
they can be cut, and whatever is asked next is answered as it is on text.
Raw text is the longest beginning of what is left without the delimiter,
which may be any character, and an error about a character names the one
that comes next. -/
theorem requests_stay_on_boundaries (source : Text) (requests : List Request) :
    ∃ b, (ofText source).after requests = some b ∧
      let s := (Scanner.ofText source).after requests
      b.StandsAt source s ∧ b.isFinished = s.isFinished ∧
      (∀ request : Request, ∃ b',
        request.performOnBytes b = some (Scan.outcome request.perform s, b') ∧
          b'.StandsAt source (Scan.leaves request.perform s)) ∧
      (∀ d raw, (∃ b', ByteScan.rawUntil d b = some (.ok raw, b')) ↔
        s.held = none ∧ d ∈ s.rest ∧ LongestWithout d raw s.rest) ∧
      ∀ (request : Request) line c b',
        request.performOnBytes b = some (.error (.unexpectedSymbol line c), b') →
          b'.held = none ∧
            ∃ more, slice? b'.bytes b'.place b'.bytes.length = some (c :: more) := by
  obtain ⟨front, hfront, hafter⟩ := after_inBytes (.ofText source) [] requests
  refine ⟨_, hafter, standsAt_inBytes hfront, isFinished_inBytes _ _, ?_, ?_, ?_⟩
  · intro request
    obtain ⟨last, hlast, hrun⟩ := (ByteScan.mirrors_perform request _ front).exists_run
    exact ⟨_, hrun, standsAt_inBytes (hlast.trans hfront)⟩
  · intro d raw
    obtain ⟨last, -, hrun⟩ := (ByteScan.mirrors_rawUntil d _ front).exists_run
    rw [hrun, ← Scan.rawUntil_eq_ok_iff]
    simp
  · intro request line c b' h
    obtain ⟨last, hlast, hrun⟩ := (ByteScan.mirrors_perform request _ front).exists_run
    rw [hrun, Option.some_inj, Prod.mk.injEq] at h
    obtain ⟨houtcome, rfl⟩ := h
    obtain ⟨hheld, hhead⟩ :=
      (Scan.keeps_namesNext request).error trivial (Scan.eq_error_of_outcome houtcome)
    obtain ⟨more, hrest⟩ := List.head?_eq_some_iff.mp hhead
    exact ⟨hheld, more, hrest ▸ slice?_rest last _⟩

end ByteScanner

end StoredProc
