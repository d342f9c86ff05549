import StoredProc.Program
import StoredProc.Proofs.Statement.Forms

/-!
Reading a script is the grammar of scripts. What a statement reads holds
of a scanner at any place, so a script is read by repeating it from the
beginning of the text, and the repetition stops at the end of input and
nowhere else.

The lines in a statement come from the place where it is read. The
grammar is asked for the text alone, so the lines can be exchanged for
any others.
-/

namespace StoredProc

open Text Grammar Scan

namespace Program

variable {last : Nat}

/-! ### From statements to scripts -/

def NextStatementAt (line : Text → Nat) (text : Text) : Option Statement → Text → Prop
  | some statement, rest => StatementAt line text statement rest
  | none, rest => text = [] ∧ rest = []

theorem next_eof_iff {text : Text} : Next text .eof ↔ text = [] := by
  constructor
  · rintro ⟨token, rest, rfl, hcut⟩
    obtain ⟨rfl, rfl⟩ := Cut.eof_iff.mp hcut
    rfl
  · rintro rfl
    exact ⟨[], [], rfl, .eof⟩

theorem reads_nextStatement :
    Reads last Opens Opens nextStatement (NextStatementAt (lineAt last)) := by
  refine (reads_peekKind.bind (S := fun kind text found rest =>
    if kind = .eof then found = none ∧ rest = text
    else ∃ statement, found = some statement ∧ StatementAt (lineAt last) text statement rest)
    fun kind => ?_).congr ?_ ?_
  · split
    · exact reads_pure none
    · refine (Statement.reads_parse.bind fun statement => (reads_note _).bind fun _ =>
        reads_pure _).congr ?_ ?_
      · rintro text _ rest ⟨statement, _, h, -, _, rfl, rfl, rfl⟩
        exact ⟨statement, rfl, h⟩
      · rintro text _ rest ⟨statement, rfl, h⟩ -
        exact ⟨statement, rest, h, (), rest, rfl, rfl, rfl⟩
  · rintro text found rest ⟨kind, _, ⟨rfl, hnext⟩, h⟩
    split at h
    · next hkind =>
        obtain ⟨rfl, rfl⟩ := h
        subst hkind
        have hend := next_eof_iff.mp hnext
        exact ⟨hend, hend⟩
    · obtain ⟨statement, rfl, h⟩ := h
      exact h
  · intro text found rest h hrest
    cases found with
    | none =>
        obtain ⟨rfl, rfl⟩ := h
        exact ⟨.eof, [], ⟨rfl, next_eof_iff.mpr rfl⟩, rfl, rfl⟩
    | some statement =>
        obtain ⟨kind, hnext, hform⟩ := Statement.formOf_of_statementAt h
        refine ⟨kind, text, ⟨rfl, hnext⟩, ?_⟩
        have hkind : kind ≠ .eof := by
          rintro rfl
          exact hform
        rw [if_neg hkind]
        exact ⟨statement, rfl, h⟩

theorem repeats_iff_script {line : Text → Nat} {text rest : Text} {statements : List Statement} :
    Repeats (NextStatementAt line) text statements rest ↔
      Script line text statements ∧ rest = [] := by
  constructor
  · intro h
    induction h with
    | done h =>
        obtain ⟨rfl, rfl⟩ := h
        exact ⟨.nil, rfl⟩
    | more h hmore ih => exact ⟨.cons h ih.1, ih.2⟩
  · rintro ⟨h, rfl⟩
    induction h with
    | nil => exact .done ⟨rfl, rfl⟩
    | cons h hrest ih => exact .more h ih

/-- Reading succeeds on the texts that are scripts, with the statements
that the grammar gives them. A name or a statement is on the line of its
first character. -/
theorem parse_eq_ok_iff {source : Text} {program : Program} :
    parse source = .ok program ↔
      program.line = 1 ∧
        Script (lineAt (1 + lineBreaks source)) source program.statements := by
  have hreads : Reads (1 + lineBreaks source) Opens Opens
      (many nextStatement advancing_nextStatement) (Repeats (NextStatementAt _)) :=
    reads_many advancing_nextStatement reads_nextStatement
  have hstart := Scanner.faithful_ofText source
  constructor
  · intro h
    unfold parse at h
    split at h
    · next s hread =>
        cases h
        obtain ⟨_, t, hget, hread⟩ := bind_eq_ok hread
        cases hget
        obtain ⟨statements, u, hmany, hread⟩ := bind_eq_ok hread
        cases hread
        obtain ⟨hrepeats, -⟩ := hreads.sound hstart hmany
        exact ⟨rfl, (repeats_iff_script.mp hrepeats).1⟩
    · cases h
  · rintro ⟨hline, hscript⟩
    obtain ⟨line, statements⟩ := program
    cases hline
    have hopens : Opens [] := ⟨.eof, next_eof_iff.mpr rfl, rfl⟩
    obtain ⟨t, hmany, -⟩ :=
      hreads.complete hstart (repeats_iff_script.mpr ⟨hscript, rfl⟩) hopens
    have hread : read (.ofText source) = .ok ⟨1, statements⟩ t := bind_of_ok hmany
    rw [parse, hread]

/-- A text is read as the statements `p`, lines aside, if and only if it
is a script of the statements `p`, lines aside. -/
theorem parse_iff_script (source : Text) (p : List Statement) :
    (∃ program, parse source = .ok program ∧
        program.statements.map Statement.bare = p.map Statement.bare) ↔
      Script (fun _ => 0) source (p.map Statement.bare) := by
  constructor
  · rintro ⟨program, hparse, hbare⟩
    obtain ⟨-, hscript⟩ := parse_eq_ok_iff.mp hparse
    -- The same text with all lines zero is a script of the bare statements.
    obtain ⟨statements, hscript', hsame⟩ := hscript.withLine fun _ => 0
    rw [hscript'.map_bare, hbare] at hsame
    rwa [← hsame]
  · intro hscript
    obtain ⟨statements, hscript', hsame⟩ := hscript.withLine (lineAt (1 + lineBreaks source))
    rw [hscript.map_bare] at hsame
    exact ⟨⟨1, statements⟩, parse_eq_ok_iff.mpr ⟨rfl, hscript'⟩, hsame⟩

end Program

end StoredProc
