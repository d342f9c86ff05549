import StoredProc.Proofs.Program.Invariant
import StoredProc.Proofs.Scanner.Lockstep

/-!
Two runs that go together go together through a whole script. Each form
of a statement is put together from the operations that a coupling was
checked for, so the proofs list its parts in order, and what the two runs
read is the same but for the lines.
-/

namespace StoredProc

open Scan Statement.Parse

namespace Scan.Coupling.Lawful

variable {c : Coupling}

/-! ### Parts of a form -/

theorem follows_peekKind (h : c.Lawful) : Follows c (· = ·) peekKind peekKind :=
  h.follows_peek.bind fun _ _ htoken => follows_pure (h.kind htoken)

theorem follows_skipBlank (h : c.Lawful) : Follows c (fun _ _ => True) skipBlank skipBlank := by
  refine h.follows_peekKind.bind fun kind kind' hkind => ?_
  subst hkind
  split
  · exact (h.follows_expect .blank).bind fun _ _ _ => follows_pure trivial
  · exact follows_pure trivial

theorem follows_expectSpaced (h : c.Lawful) (kind : Kind) :
    Follows c (c.Takes kind) (expectSpaced kind) (expectSpaced kind) :=
  h.follows_skipBlank.bind fun _ _ _ => h.follows_expect kind

/-- A token that one run refuses is refused by the other. -/
theorem follows_unexpected {α β : Type} {P : α → β → Prop} (h : c.Lawful)
    (expected : Expectation) :
    Follows c P (Statement.Parse.unexpected expected) (Statement.Parse.unexpected expected) := by
  have hlost {s : Scanner} (hs : c.lost s) :
      Stray c P ((Statement.Parse.unexpected expected : Scan α) s) := by
    refine stray_of_keeps (h.lost.unexpected expected) hs ?_
    intro a t hok
    obtain ⟨token, u, -, hthrow⟩ := bind_eq_ok hok
    cases hthrow
  refine ⟨?_, hlost⟩
  intro s s' hs
  have hagree := h.follows_peek.rel hs
  generalize hpeek : Scan.peek s = r at hagree
  generalize hpeek' : Scan.peek s' = r' at hagree
  rw [Statement.Parse.unexpected, Statement.Parse.unexpected]
  cases hagree with
  | error he =>
      rw [bind_of_error hpeek, bind_of_error hpeek']
      exact .error he
  | ok htoken ht =>
      rw [bind_of_ok hpeek, bind_of_ok hpeek']
      exact .error (h.unexpected htoken expected)
  | stray hstray =>
      cases hstray with
      | error he =>
          rw [bind_of_error hpeek]
          exact .stray (.error he)
      | ok htoken ht =>
          rw [bind_of_ok hpeek]
          exact .stray (.error (h.lost.refuse ht (held_of_peek hpeek) expected))

theorem bare_plainVariable (h : c.Lawful) {token token' : Token}
    (htoken : c.Takes .name token token') :
    (plainVariable token).bare = (plainVariable token').bare := by
  rw [plainVariable, plainVariable, h.name htoken.1 htoken.2]
  rfl

theorem follows_sigilVariable (h : c.Lawful) :
    Follows c (fun var var' => var.bare = var'.bare) sigilVariable sigilVariable := by
  refine (h.follows_expect .dollar).bind fun dollar dollar' _ => ?_
  refine (h.follows_expect .name).bind fun name name' hname => follows_pure ?_
  exact h.bare_plainVariable hname

theorem follows_quoted (h : c.Lawful) {mark : Kind} {delimiter : Char}
    (hmark : mark.closer? = some delimiter) :
    Follows c (· = ·) (quoted mark delimiter) (quoted mark delimiter) := by
  rw [quoted_eq]
  exact (h.follows_expectRaw hmark).bind fun _ _ hraw =>
    (h.follows_expect mark).bind fun _ _ _ => follows_pure hraw.2

theorem follows_literal (h : c.Lawful) : Follows c (· = ·) literal literal := by
  refine h.follows_peekKind.bind fun kind kind' hkind => ?_
  subst hkind
  split
  · exact (h.follows_expect .quotePair).bind fun _ _ _ => follows_pure rfl
  · exact (h.follows_expect .apostrophePair).bind fun _ _ _ => follows_pure rfl
  · exact h.follows_quoted rfl
  · exact h.follows_quoted rfl
  · exact h.follows_unexpected .literal

/-- Both tokens spell the type that their kind names. -/
theorem follows_valueType (h : c.Lawful) : Follows c (· = ·) valueType valueType := by
  refine h.follows_peekKind.bind fun kind kind' hkind => ?_
  subst hkind
  split
  · next hkind =>
      obtain ⟨type, rfl⟩ := Kind.isType_iff.mp hkind
      refine (h.follows_expect _).bind fun token token' htoken => ?_
      obtain ⟨hspelt, hspelt'⟩ := h.spelt htoken.1
      have hkind' := (h.kind htoken.1).symm.trans htoken.2
      rw [ValueType.ofWord?_eq_some (hspelt.toUpper_eq htoken.2),
        ValueType.ofWord?_eq_some (hspelt'.toUpper_eq hkind')]
      exact follows_pure rfl
  · exact h.follows_unexpected .valueType

theorem follows_direction (h : c.Lawful) : Follows c (· = ·) direction direction := by
  refine h.follows_peekKind.bind fun kind kind' hkind => ?_
  subst hkind
  split
  · next hkind =>
      obtain ⟨direction, rfl⟩ := Kind.isDirection_iff.mp hkind
      refine (h.follows_expect _).bind fun token token' htoken => ?_
      obtain ⟨hspelt, hspelt'⟩ := h.spelt htoken.1
      have hkind' := (h.kind htoken.1).symm.trans htoken.2
      rw [Direction.ofWord?_eq_some (hspelt.toUpper_eq htoken.2),
        Direction.ofWord?_eq_some (hspelt'.toUpper_eq hkind')]
      exact follows_pure rfl
  · exact h.follows_unexpected .direction

theorem follows_param (h : c.Lawful) :
    Follows c (fun param param' => param.bare = param'.bare) param param := by
  refine (h.follows_expectSpaced .name).bind fun name name' hname => ?_
  refine h.follows_skipBlank.bind fun _ _ _ => h.follows_valueType.bind fun type type' htype => ?_
  refine h.follows_skipBlank.bind fun _ _ _ =>
    h.follows_direction.bind fun direction direction' hdirection => follows_pure ?_
  rw [Param.bare, Param.bare, h.bare_plainVariable hname, htype, hdirection]

theorem follows_nextParam (h : c.Lawful) :
    Follows c (fun param param' => param.map Param.bare = param'.map Param.bare) nextParam
      nextParam := by
  refine h.follows_skipBlank.bind fun _ _ _ => h.follows_peekKind.bind fun kind kind' hkind => ?_
  subst hkind
  split
  · exact (h.follows_expect .comma).bind fun _ _ _ => h.follows_param.bind fun _ _ hparam =>
      follows_pure (congrArg some hparam)
  · exact follows_pure rfl

theorem follows_params (h : c.Lawful) :
    Follows c (fun params params' => params.map Param.bare = params'.map Param.bare) params
      params := by
  refine h.follows_param.bind fun first first' hfirst => ?_
  refine (follows_many advancing_nextParam advancing_nextParam h.follows_nextParam).bind
    fun others others' hothers => follows_pure ?_
  rw [List.map_cons, List.map_cons, hfirst, hothers]

/-! ### The forms -/

theorem follows_sigilAssignment (h : c.Lawful) :
    Follows c (fun st st' => st.bare = st'.bare) sigilAssignment sigilAssignment := by
  refine h.follows_sigilVariable.bind fun var var' hvar => ?_
  refine (h.follows_expectSpaced .equal).bind fun _ _ _ => h.follows_skipBlank.bind fun _ _ _ => ?_
  refine h.follows_literal.bind fun text text' htext => h.follows_skipBlank.bind fun _ _ _ =>
    follows_pure ?_
  rw [Statement.bare, Statement.bare, hvar, htext]

theorem follows_procedureHeader (h : c.Lawful) :
    Follows c (fun st st' => st.bare = st'.bare) procedureHeader procedureHeader := by
  refine (h.follows_expect (.keyword .create)).bind fun _ _ _ =>
    (h.follows_expectSpaced (.keyword .or)).bind fun _ _ _ =>
      (h.follows_expectSpaced (.keyword .replace)).bind fun _ _ _ =>
        (h.follows_expectSpaced (.keyword .procedure)).bind fun _ _ _ =>
          (h.follows_expectSpaced .name).bind fun name name' hname =>
            (h.follows_expectSpaced .leftParen).bind fun _ _ _ =>
              h.follows_params.bind fun params params' hparams =>
                (h.follows_expectSpaced .rightParen).bind fun _ _ _ =>
                  (h.follows_expectSpaced (.keyword .is)).bind fun _ _ _ => follows_pure ?_
  rw [Statement.bare, Statement.bare, Header.bare, Header.bare, h.bare_plainVariable hname, hparams]

theorem follows_declarationOf (h : c.Lawful) {name name' : Token}
    (hname : c.Takes .name name name') :
    Follows c (fun st st' => st.bare = st'.bare) (declarationOf name) (declarationOf name') := by
  refine h.follows_valueType.bind fun type type' htype =>
    (h.follows_expectSpaced .semicolon).bind fun _ _ _ => follows_pure ?_
  rw [Statement.bare, Statement.bare, h.bare_plainVariable hname, htype]

theorem follows_assignmentTo (h : c.Lawful) {name name' : Token}
    (hname : c.Takes .name name name') :
    Follows c (fun st st' => st.bare = st'.bare) (assignmentTo name) (assignmentTo name') := by
  refine (h.follows_expect .colon).bind fun _ _ _ => (h.follows_expect .equal).bind fun _ _ _ =>
    h.follows_skipBlank.bind fun _ _ _ => h.follows_literal.bind fun text text' htext =>
      (h.follows_expectSpaced .semicolon).bind fun _ _ _ => follows_pure ?_
  rw [Statement.bare, Statement.bare, h.bare_plainVariable hname, htext]

theorem follows_declarationOrAssignment (h : c.Lawful) :
    Follows c (fun st st' => st.bare = st'.bare) declarationOrAssignment
      declarationOrAssignment := by
  refine (h.follows_expect .name).bind fun name name' hname =>
    h.follows_skipBlank.bind fun _ _ _ => h.follows_peekKind.bind fun kind kind' hkind => ?_
  subst hkind
  split
  · exact h.follows_declarationOf hname
  · exact h.follows_declarationOf hname
  · exact h.follows_assignmentTo hname
  · exact h.follows_unexpected .typeOrAssignment

theorem follows_begin (h : c.Lawful) :
    Follows c (fun st st' => st.bare = st'.bare) begin begin :=
  (h.follows_expect (.keyword .beginBlock)).bind fun _ _ _ => follows_pure rfl

theorem follows_executeImmediate (h : c.Lawful) :
    Follows c (fun st st' => st.bare = st'.bare) executeImmediate executeImmediate := by
  refine (h.follows_expect (.keyword .execute)).bind fun _ _ _ =>
    (h.follows_expectSpaced (.keyword .immediate)).bind fun _ _ _ =>
      (h.follows_expectSpaced .name).bind fun name name' hname =>
        (h.follows_expectSpaced .semicolon).bind fun _ _ _ => follows_pure ?_
  rw [Statement.bare, Statement.bare, h.bare_plainVariable hname]

theorem follows_ending (h : c.Lawful) :
    Follows c (fun st st' => st.bare = st'.bare) ending ending := by
  rw [ending_eq]
  exact (h.follows_expectRaw rfl).bind fun _ _ _ => (h.follows_expect .semicolon).bind fun _ _ _ =>
    follows_pure rfl

theorem follows_blanks (h : c.Lawful) :
    Follows c (fun st st' => st.bare = st'.bare) blanks blanks :=
  (h.follows_expect .blank).bind fun _ _ _ => follows_pure rfl

theorem follows_printing (h : c.Lawful) :
    Follows c (fun st st' => st.bare = st'.bare) printing printing := by
  refine (h.follows_expect (.keyword .print)).bind fun _ _ _ =>
    (h.follows_expectSpaced .leftParen).bind fun _ _ _ => h.follows_skipBlank.bind fun _ _ _ =>
      h.follows_sigilVariable.bind fun var var' hvar =>
        (h.follows_expectSpaced .rightParen).bind fun _ _ _ =>
          h.follows_skipBlank.bind fun _ _ _ => follows_pure ?_
  rw [Statement.bare, Statement.bare, hvar]

/-! ### Scripts -/

theorem follows_statement (h : c.Lawful) :
    Follows c (fun st st' => st.bare = st'.bare) Statement.parse Statement.parse := by
  refine h.follows_peekKind.bind fun kind kind' hkind => ?_
  subst hkind
  split
  · exact h.follows_sigilAssignment
  · exact h.follows_procedureHeader
  · exact h.follows_declarationOrAssignment
  · exact h.follows_begin
  · exact h.follows_executeImmediate
  · exact h.follows_ending
  · exact h.follows_blanks
  · exact h.follows_printing
  · exact h.follows_unexpected .statement

theorem follows_note (h : c.Lawful) (statement statement' : Statement) :
    Follows c (fun _ _ => True) (note (.parsed statement)) (note (.parsed statement')) :=
  ⟨fun hs => .ok trivial (h.trace statement statement' hs),
    fun hs => .ok (b := ()) trivial (h.lost.trace statement hs)⟩

theorem follows_nextStatement (h : c.Lawful) :
    Follows c (fun st st' => st.map Statement.bare = st'.map Statement.bare)
      Program.nextStatement Program.nextStatement := by
  refine h.follows_peekKind.bind fun kind kind' hkind => ?_
  subst hkind
  split
  · exact follows_pure rfl
  · refine h.follows_statement.bind fun st st' hst => ?_
    exact (h.follows_note _ _).bind fun _ _ _ => follows_pure (congrArg some hst)

/-- What is read of a script is the same in both runs, but for the
lines. -/
theorem follows_read (h : c.Lawful) :
    Follows c (fun program program' =>
        program.statements.map Statement.bare = program'.statements.map Statement.bare)
      Program.read Program.read := by
  have hget : Follows c (fun _ _ => True) (get : Scan Scanner) get :=
    ⟨fun hs => .ok trivial hs, fun {s} hs => .ok (b := s) trivial hs⟩
  exact hget.bind fun _ _ _ =>
    (follows_many _ _ h.follows_nextStatement).bind fun _ _ hstatements =>
      follows_pure hstatements

end Scan.Coupling.Lawful

end StoredProc
