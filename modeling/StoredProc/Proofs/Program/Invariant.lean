import StoredProc.Program
import StoredProc.Proofs.Scanner.Invariant
import StoredProc.Proofs.Statement.Forms

/-!
An invariant of the operations that the language asks for is an invariant
of reading a script. Each form of a statement is put together from these
operations, so the proofs list its parts in order. Only the words for
types and directions need more: there a failure is written into the form
that never comes, because the token is spelled as its kind says.
-/

namespace StoredProc

open Scan Statement.Parse

/-! ### Words for types and directions -/

theorem Token.Spelt.toUpper_eq {token : Token} (h : token.Spelt) {k : Keyword}
    (hk : token.kind = .keyword k) : token.text.toUpper = k.spelling := by
  obtain ⟨rest, hcut⟩ := h
  rw [hk] at hcut
  exact (Cut.keyword_iff.mp hcut).2.1

/-- A token that names a type spells that type. -/
theorem Token.Spelt.exists_valueType {token : Token} (h : token.Spelt)
    (hkind : token.kind.isType = true) : ∃ type, ValueType.ofWord? token.text = some type := by
  obtain ⟨type, hk⟩ := Kind.isType_iff.mp hkind
  exact ⟨type, ValueType.ofWord?_eq_some (h.toUpper_eq hk)⟩

/-- A token that names a direction spells that direction. -/
theorem Token.Spelt.exists_direction {token : Token} (h : token.Spelt)
    (hkind : token.kind.isDirection = true) :
    ∃ direction, Direction.ofWord? token.text = some direction := by
  obtain ⟨direction, hk⟩ := Kind.isDirection_iff.mp hkind
  exact ⟨direction, Direction.ofWord?_eq_some (h.toUpper_eq hk)⟩

namespace Scan.Invariant

variable {inv : Scanner → Prop} {fault : SyntaxError → Scanner → Prop}

/-! ### Parts of a form -/

theorem peekKind (h : Invariant inv fault) : Keeps inv fault peekKind :=
  h.peek.bind fun _ => keeps_pure _

theorem skipBlank (h : Invariant inv fault) : Keeps inv fault skipBlank := by
  refine h.peekKind.bind fun kind => ?_
  split
  · exact (h.expect .blank).bind fun _ => keeps_pure _
  · exact keeps_pure _

theorem expectSpaced (h : Invariant inv fault) (kind : Kind) :
    Keeps inv fault (expectSpaced kind) :=
  h.skipBlank.bind fun _ => h.expect kind

/-- A token that is refused is held. -/
theorem unexpected {α : Type} (h : Invariant inv fault) (expected : Expectation) :
    Keeps inv fault (unexpected expected : Scan α) := by
  refine ⟨?_, ?_⟩
  · intro s a t hs hok
    obtain ⟨token, u, -, hok⟩ := bind_eq_ok hok
    cases hok
  · intro s e t hs herror
    rcases bind_eq_error herror with hpeek | ⟨token, u, hpeek, hthrow⟩
    · exact h.peek.error hs hpeek
    · cases hthrow
      exact h.refuse (h.peek.ok hs hpeek) (held_of_peek hpeek) expected

theorem sigilVariable (h : Invariant inv fault) : Keeps inv fault sigilVariable :=
  (h.expect .dollar).bind fun _ => (h.expect .name).bind fun _ => keeps_pure _

theorem quoted (h : Invariant inv fault) {mark : Kind} {delimiter : Char}
    (hmark : mark.closer? = some delimiter) : Keeps inv fault (quoted mark delimiter) := by
  rw [quoted_eq]
  exact (h.expectRaw hmark).bind fun _ => (h.expect mark).bind fun _ => keeps_pure _

theorem literal (h : Invariant inv fault) : Keeps inv fault literal := by
  refine h.peekKind.bind fun kind => ?_
  split
  · exact (h.expect .quotePair).bind fun _ => keeps_pure _
  · exact (h.expect .apostrophePair).bind fun _ => keeps_pure _
  · exact h.quoted rfl
  · exact h.quoted rfl
  · exact h.unexpected .literal

theorem valueType (h : Invariant inv fault) : Keeps inv fault valueType := by
  refine h.peekKind.bind fun kind => ?_
  split
  · next hkind =>
      refine (h.expect kind).bind_of_mem fun hs hexpect => ?_
      obtain ⟨hnext, rfl⟩ := next_of_expect hexpect
      obtain ⟨type, htype⟩ := (h.spelt hs hnext).exists_valueType hkind
      rw [htype]
      exact keeps_pure type
  · exact h.unexpected .valueType

theorem direction (h : Invariant inv fault) : Keeps inv fault direction := by
  refine h.peekKind.bind fun kind => ?_
  split
  · next hkind =>
      refine (h.expect kind).bind_of_mem fun hs hexpect => ?_
      obtain ⟨hnext, rfl⟩ := next_of_expect hexpect
      obtain ⟨direction, hdirection⟩ := (h.spelt hs hnext).exists_direction hkind
      rw [hdirection]
      exact keeps_pure direction
  · exact h.unexpected .direction

theorem param (h : Invariant inv fault) : Keeps inv fault param :=
  (h.expectSpaced .name).bind fun _ => h.skipBlank.bind fun _ => h.valueType.bind fun _ =>
    h.skipBlank.bind fun _ => h.direction.bind fun _ => keeps_pure _

theorem nextParam (h : Invariant inv fault) : Keeps inv fault nextParam := by
  refine h.skipBlank.bind fun _ => h.peekKind.bind fun kind => ?_
  split
  · exact (h.expect .comma).bind fun _ => h.param.bind fun _ => keeps_pure _
  · exact keeps_pure none

theorem params (h : Invariant inv fault) : Keeps inv fault params :=
  h.param.bind fun _ => (keeps_many advancing_nextParam h.nextParam).bind fun _ => keeps_pure _

/-! ### The forms -/

theorem sigilAssignment (h : Invariant inv fault) : Keeps inv fault sigilAssignment :=
  h.sigilVariable.bind fun _ => (h.expectSpaced .equal).bind fun _ => h.skipBlank.bind fun _ =>
    h.literal.bind fun _ => h.skipBlank.bind fun _ => keeps_pure _

theorem procedureHeader (h : Invariant inv fault) : Keeps inv fault procedureHeader :=
  (h.expect (.keyword .create)).bind fun _ => (h.expectSpaced (.keyword .or)).bind fun _ =>
    (h.expectSpaced (.keyword .replace)).bind fun _ =>
      (h.expectSpaced (.keyword .procedure)).bind fun _ => (h.expectSpaced .name).bind fun _ =>
        (h.expectSpaced .leftParen).bind fun _ => h.params.bind fun _ =>
          (h.expectSpaced .rightParen).bind fun _ =>
            (h.expectSpaced (.keyword .is)).bind fun _ => keeps_pure _

theorem declarationOf (h : Invariant inv fault) (name : Token) :
    Keeps inv fault (declarationOf name) :=
  h.valueType.bind fun _ => (h.expectSpaced .semicolon).bind fun _ => keeps_pure _

theorem assignmentTo (h : Invariant inv fault) (name : Token) :
    Keeps inv fault (assignmentTo name) :=
  (h.expect .colon).bind fun _ => (h.expect .equal).bind fun _ => h.skipBlank.bind fun _ =>
    h.literal.bind fun _ => (h.expectSpaced .semicolon).bind fun _ => keeps_pure _

theorem declarationOrAssignment (h : Invariant inv fault) :
    Keeps inv fault declarationOrAssignment := by
  refine (h.expect .name).bind fun name => h.skipBlank.bind fun _ => h.peekKind.bind fun kind => ?_
  split
  · exact h.declarationOf name
  · exact h.declarationOf name
  · exact h.assignmentTo name
  · exact h.unexpected .typeOrAssignment

theorem begin (h : Invariant inv fault) : Keeps inv fault begin :=
  (h.expect (.keyword .beginBlock)).bind fun _ => keeps_pure _

theorem executeImmediate (h : Invariant inv fault) : Keeps inv fault executeImmediate :=
  (h.expect (.keyword .execute)).bind fun _ => (h.expectSpaced (.keyword .immediate)).bind fun _ =>
    (h.expectSpaced .name).bind fun _ => (h.expectSpaced .semicolon).bind fun _ => keeps_pure _

theorem ending (h : Invariant inv fault) : Keeps inv fault ending := by
  rw [ending_eq]
  exact (h.expectRaw rfl).bind fun _ => (h.expect .semicolon).bind fun _ => keeps_pure _

theorem blanks (h : Invariant inv fault) : Keeps inv fault blanks :=
  (h.expect .blank).bind fun _ => keeps_pure _

theorem printing (h : Invariant inv fault) : Keeps inv fault printing :=
  (h.expect (.keyword .print)).bind fun _ => (h.expectSpaced .leftParen).bind fun _ =>
    h.skipBlank.bind fun _ => h.sigilVariable.bind fun _ =>
      (h.expectSpaced .rightParen).bind fun _ => h.skipBlank.bind fun _ => keeps_pure _

/-! ### Scripts -/

theorem statement (h : Invariant inv fault) : Keeps inv fault Statement.parse := by
  refine h.peekKind.bind fun kind => ?_
  split
  · exact h.sigilAssignment
  · exact h.procedureHeader
  · exact h.declarationOrAssignment
  · exact h.begin
  · exact h.executeImmediate
  · exact h.ending
  · exact h.blanks
  · exact h.printing
  · exact h.unexpected .statement

theorem nextStatement (h : Invariant inv fault) : Keeps inv fault Program.nextStatement := by
  refine h.peekKind.bind fun kind => ?_
  split
  · exact keeps_pure none
  · exact h.statement.bind fun _ => (keeps_note (h.trace _)).bind fun _ => keeps_pure _

/-- Reading a script keeps the invariant, and where it fails the error
fits the scanner that is left. -/
theorem read (h : Invariant inv fault) : Keeps inv fault Program.read := by
  have hget : Keeps inv fault (get : Scan Scanner) := by
    refine ⟨?_, ?_⟩
    · intro s a t hs hok
      cases hok
      exact hs
    · intro s e t hs herror
      cases herror
  exact hget.bind fun _ =>
    (keeps_many Program.advancing_nextStatement h.nextStatement).bind fun _ => keeps_pure _

end Scan.Invariant

end StoredProc
