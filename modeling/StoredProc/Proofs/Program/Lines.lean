import StoredProc.Proofs.Grammar.Lines
import StoredProc.Proofs.Program.Invariant
import StoredProc.Proofs.Program.Reading

/-!
Lines are exact. What is read from a script is on the line of its first
character, counted from the beginning of the script, and an error is on
the line of the token or character that it is about.

Reading counts from the other side: the grammar is asked for the lines
that are left between a place and the end. The two counts agree at every
place that no break lies across, and a scanner never stops anywhere else.
-/

namespace StoredProc

open Text Grammar Scan

/-- The line on which an end of the script begins: one more than there
are breaks in the part before it. -/
def lineIn (source place : Text) : Nat :=
  1 + lineBreaks (source.take (source.length - place.length))

theorem lineIn_append (before place : Text) :
    lineIn (before ++ place) place = 1 + lineBreaks before := by
  rw [lineIn, List.length_append, Nat.add_sub_cancel, List.take_left]

/-- Lines do not decrease towards the end. -/
theorem lineIn_le {source place place' : Text} (h : place' <:+ place) :
    lineIn source place ≤ lineIn source place' := by
  have hlength : source.length - place.length ≤ source.length - place'.length :=
    Nat.sub_le_sub_left h.length_le _
  obtain ⟨more, hmore⟩ := List.take_prefix_take_left hlength
  rw [lineIn, lineIn, ← hmore]
  exact Nat.add_le_add_left (lineBreaks_le_append _ more) 1

theorem lineIn_eq_lineAt {source before place : Text} (hsource : source = before ++ place)
    (hseam : Seam before place) : lineIn source place = lineAt (1 + lineBreaks source) place := by
  rw [hsource, lineIn_append, lineAt, lineBreaks_append_of_seam hseam]
  omega

namespace Program

/-- Both counts give the same script. -/
theorem script_lineIn_iff {source : Text} {statements : List Statement} :
    Script (lineIn source) source statements ↔
      Script (lineAt (1 + lineBreaks source)) source statements := by
  constructor
  · intro h
    have hnew := h.relabel (f := id)
      (fun before place hsource hseam => (lineIn_eq_lineAt hsource hseam).symm) rfl
      (seam_nil source)
    rwa [Statement.mapLine_id, List.map_id] at hnew
  · intro h
    have hnew := h.relabel (f := id)
      (fun before place hsource hseam => lineIn_eq_lineAt hsource hseam) rfl (seam_nil source)
    rwa [Statement.mapLine_id, List.map_id] at hnew

end Program

/-! ### Where a scanner stands -/

/-- The scanner is at a place of the script that no break lies across. -/
structure Scanner.StandsIn (source : Text) (s : Scanner) : Prop where
  faithful : s.Faithful (1 + lineBreaks source)
  place : ∃ before, source = before ++ s.unread ∧ Seam before s.unread

def SyntaxError.token? : SyntaxError → Option Token
  | mismatch _ found => some found
  | unexpected _ found => some found
  | misspelt _ found => some found
  | unexpectedSymbol _ _ => none
  | missingDelimiter _ _ => none
  | heldToken _ _ => none

/-- The error is about what follows `before` in the script, and `s` is
the scanner it leaves. A character or the beginning of raw text has not
been passed; a token has been, and is held if it was only looked at. -/
def SyntaxError.IsAt (before place : Text) (s : Scanner) : SyntaxError → Prop
  | unexpectedSymbol _ symbol =>
      (∃ tail, place = symbol :: tail) ∧ ¬ Lexes place ∧ s.held = none ∧ s.rest = place
  | missingDelimiter _ delimiter =>
      (∃ front mark kind, before = front ++ mark ∧ Cut kind mark place ∧
        kind.closer? = some delimiter) ∧ delimiter ∉ place ∧ s.held = none ∧ s.rest = place
  | mismatch wanted found =>
      found.kind ≠ wanted ∧ place = found.text ++ s.rest ∧ Cut found.kind found.text s.rest ∧
        s.held = none
  | unexpected _ found =>
      place = found.text ++ s.rest ∧ Cut found.kind found.text s.rest ∧ s.held = some found
  | misspelt _ _ => False
  | heldToken _ _ => False

def SyntaxError.StandsIn (source : Text) (e : SyntaxError) (s : Scanner) : Prop :=
  ∃ before place, source = before ++ place ∧ e.IsAt before place s ∧
    e.diagnostic.line? = some (1 + lineBreaks before)

section

variable {source : Text} {s t : Scanner} {token : Token} {e : SyntaxError} {kind : Kind} {d : Char}

/-- A token is on the line of its first character. -/
theorem Scan.Takes.line_eq {before rest : Text}
    (h : Takes (1 + lineBreaks source) s.unread token rest) (hsource : source = before ++ s.unread)
    (hseam : Seam before s.unread) : token.line = 1 + lineBreaks before := by
  rw [h.line, ← lineIn_eq_lineAt hsource hseam, hsource, lineIn_append]

namespace Scanner.StandsIn

theorem ofText (source : Text) : (Scanner.ofText source).StandsIn source :=
  ⟨faithful_ofText source, [], rfl, seam_nil source⟩

/-- The counter of a scanner that holds nothing is right. -/
theorem line_eq {before : Text} (h : s.StandsIn source) (hheld : s.held = none)
    (hsource : source = before ++ s.unread) (hseam : Seam before s.unread) :
    s.line = 1 + lineBreaks before := by
  have hline := h.faithful.line
  rw [hsource, lineBreaks_append_of_seam hseam, unread_of_none hheld] at hline
  omega

/-- After a token the scanner stands behind it. -/
theorem of_takes (h : s.StandsIn source)
    (htakes : Takes (1 + lineBreaks source) s.unread token t.rest)
    (ht : t.Faithful (1 + lineBreaks source)) (hheld : t.held = none) : t.StandsIn source := by
  obtain ⟨before, hsource, -⟩ := h.place
  refine ⟨ht, before ++ token.text, ?_, ?_⟩
  · rw [unread_of_none hheld, List.append_assoc, ← htakes.text_eq, hsource]
  · rw [unread_of_none hheld]
    exact htakes.cut.seam before

theorem next (h : s.StandsIn source) (hnext : Scan.next s = .ok token t) : t.StandsIn source := by
  obtain ⟨htakes, ht, hheld⟩ := takes_of_next h.faithful hnext
  exact h.of_takes htakes ht hheld

/-! ### Where an error stands -/

/-- A character that begins no token. -/
theorem cut_error (h : s.StandsIn source) (hheld : s.held = none) (hcut : cut s = .error e t) :
    e.StandsIn source t := by
  obtain ⟨c, hfirst, rfl, rfl⟩ := cut_eq_error hcut
  obtain ⟨before, hsource, hseam⟩ := h.place
  have hline := h.line_eq hheld hsource hseam
  rw [unread_of_none hheld] at hsource
  obtain ⟨hcons, hnone⟩ := Lexeme.exists_cons_of_first hfirst
  refine ⟨before, t.rest, hsource, ⟨hcons, ?_, hheld, rfl⟩, by rw [← hline]; rfl⟩
  rintro ⟨kind, token, rest, htext, hcut⟩
  exact hnone kind token rest htext hcut

/-- A token that was taken and is not of the kind asked for. -/
theorem mismatch (h : s.StandsIn source) (hnext : Scan.next s = .ok token t)
    (hkind : token.kind ≠ kind) : (SyntaxError.mismatch kind token).StandsIn source t := by
  obtain ⟨before, hsource, hseam⟩ := h.place
  obtain ⟨htakes, -, hheld⟩ := takes_of_next h.faithful hnext
  refine ⟨before, s.unread, hsource, ⟨hkind, htakes.text_eq, htakes.cut, hheld⟩, ?_⟩
  rw [← htakes.line_eq hsource hseam]
  rfl

/-- A token that was looked at and begins nothing that the grammar
has. -/
theorem unexpected (h : s.StandsIn source) (hheld : s.held = some token)
    (expected : Expectation) : (SyntaxError.unexpected expected token).StandsIn source s := by
  obtain ⟨before, hsource, hseam⟩ := h.place
  have htakes := Takes.of_held h.faithful hheld
  refine ⟨before, s.unread, hsource, ⟨htakes.text_eq, htakes.cut, hheld⟩, ?_⟩
  rw [← htakes.line_eq hsource hseam]
  rfl

theorem expect_error (h : s.StandsIn source) (hexpect : expect kind s = .error e t) :
    e.StandsIn source t := by
  rcases expect_eq_error hexpect with hnext | ⟨token, hnext, hkind, rfl⟩
  · obtain ⟨hheld, hcut⟩ := next_eq_error hnext
    exact h.cut_error hheld hcut
  · exact h.mismatch hnext hkind

/-- Raw text that a token opened and nothing closes. -/
theorem raw_error (h : s.StandsIn source) (hopen : kind.closer? = some d)
    (hexpect : expect kind s = .ok token t) {u : Scanner} (hraw : rawUntil d t = .error e u) :
    e.StandsIn source u := by
  obtain ⟨htakes, rfl, ht, hheld⟩ := takes_of_expect h.faithful hexpect
  have hstands := h.of_takes htakes ht hheld
  obtain ⟨rfl, ⟨held, hsome, -⟩ | ⟨-, hmem, rfl⟩⟩ := rawUntil_eq_error hraw
  · rw [hheld] at hsome
    cases hsome
  · obtain ⟨before, hsource, -⟩ := h.place
    have hsource' : source = (before ++ token.text) ++ u.unread := by
      rw [unread_of_none hheld, List.append_assoc, ← htakes.text_eq, hsource]
    have hline := hstands.line_eq hheld hsource' <| by
      rw [unread_of_none hheld]
      exact htakes.cut.seam before
    rw [unread_of_none hheld] at hsource'
    exact ⟨before ++ token.text, u.rest, hsource',
      ⟨⟨before, token.text, token.kind, rfl, htakes.cut, hopen⟩, hmem, hheld, rfl⟩,
      by rw [← hline]; rfl⟩

/-- A closing delimiter is no break, so none lies across the place before
it. -/
theorem raw_ok (h : s.StandsIn source) (hd : isBreak d = false) {raw : Text}
    (hraw : rawUntil d s = .ok raw t) : t.StandsIn source := by
  obtain ⟨before, hsource, -⟩ := h.place
  obtain ⟨tail, hunread, -, hrest, ht, hheld⟩ := raw_of_rawUntil hd h.faithful hraw
  refine ⟨ht, before ++ raw, ?_, ?_⟩
  · rw [unread_of_none hheld, hrest, List.append_assoc, ← hunread, hsource]
  · rw [unread_of_none hheld, hrest]
    exact .inl (stops_cons.mpr hd)

end Scanner.StandsIn

theorem Scan.keeps_expect_standsIn (kind : Kind) :
    Keeps (Scanner.StandsIn source) (SyntaxError.StandsIn source) (expect kind) :=
  ⟨fun hs hexpect => hs.next (next_of_expect hexpect).1, fun hs hexpect => hs.expect_error hexpect⟩

end

/-- To stand at a place of the script is an invariant, and every failure
stands at one. -/
theorem Scan.invariant_standsIn (source : Text) :
    Invariant (Scanner.StandsIn source) (SyntaxError.StandsIn source) where
  peek := by
    refine ⟨?_, ?_⟩
    · intro s token t hs hpeek
      obtain ⟨-, ht, hunread⟩ := takes_of_peek hs.faithful hpeek
      exact ⟨ht, by rw [hunread]; exact hs.place⟩
    · intro s e t hs hpeek
      obtain ⟨hheld, hcut⟩ := peek_eq_error hpeek
      exact hs.cut_error hheld hcut
  expect := keeps_expect_standsIn
  expectRaw := by
    intro kind d hopen
    refine keeps_expectRaw (keeps_expect_standsIn kind) ?_ ?_
    · intro s token t raw u hs hexpect hraw
      exact (hs.next (next_of_expect hexpect).1).raw_ok (Kind.isBreak_of_closer? hopen) hraw
    · intro s token t e u hs hexpect hraw
      exact hs.raw_error hopen hexpect hraw
  trace := fun event hs => ⟨⟨hs.faithful.line, hs.faithful.held⟩, hs.place⟩
  refuse := fun hs hheld expected => hs.unexpected hheld expected
  spelt := by
    intro s token t hs hnext
    exact ⟨t.rest, (takes_of_next hs.faithful hnext).1.cut⟩

/-! ### Scripts -/

namespace Program

theorem read_of_parse_error {source : Text} {e : SyntaxError} (h : parse source = .error e) :
    ∃ s, read (.ofText source) = .error e s := by
  unfold parse at h
  split at h
  · cases h
  · next s hread =>
      cases h
      exact ⟨s, hread⟩

/-- What is read is on the lines where it stands, so that the lines of
the statements do not decrease. An error is on the line of what reading
stopped at: the character, the token, or the beginning of the raw text
that it is about; and an error about the end of input is on the line of
the end. -/
theorem lines_exact (source : Text) :
    (∀ program, parse source = .ok program ↔
      program.line = 1 ∧ Script (lineIn source) source program.statements) ∧
    (∀ program, parse source = .ok program →
      (program.statements.map Statement.line).Pairwise (· ≤ ·)) ∧
    ∀ e, parse source = .error e →
      ∃ s before place, read (.ofText source) = .error e s ∧ source = before ++ place ∧
        e.IsAt before place s ∧ e.diagnostic.line? = some (1 + lineBreaks before) ∧
        ∀ token ∈ e.token?, token.kind = .eof → before = source := by
  have hscript : ∀ program, parse source = .ok program ↔
      program.line = 1 ∧ Script (lineIn source) source program.statements := by
    intro program
    rw [parse_eq_ok_iff, script_lineIn_iff]
  refine ⟨hscript, ?_, ?_⟩
  · intro program hparse
    obtain ⟨-, h⟩ := (hscript program).mp hparse
    exact (h.pairwise_line fun place place' hplace => lineIn_le hplace).2
  · intro e hparse
    obtain ⟨s, hread⟩ := read_of_parse_error hparse
    obtain ⟨before, place, hsource, hat, hline⟩ :=
      (invariant_standsIn source).read.error (.ofText source) hread
    refine ⟨s, before, place, hread, hsource, hat, hline, ?_⟩
    -- A token that is the end of input has nothing behind it.
    intro token htoken hend
    have hplace : place = token.text ++ s.rest ∧ Cut token.kind token.text s.rest := by
      cases e with
      | mismatch wanted found =>
          cases htoken
          exact ⟨hat.2.1, hat.2.2.1⟩
      | unexpected expected found =>
          cases htoken
          exact ⟨hat.1, hat.2.1⟩
      | misspelt expected found => exact hat.elim
      | unexpectedSymbol line symbol | missingDelimiter line delimiter | heldToken delimiter held =>
          cases htoken
    obtain ⟨htext, hrest⟩ := Cut.eof_iff.mp (hend ▸ hplace.2)
    rw [hsource, hplace.1, htext, hrest, List.append_nil, List.append_nil]

end Program

end StoredProc
