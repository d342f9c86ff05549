import StoredProc.Scanner.Progress
import StoredProc.Statement

/-!
Reading one statement. The kind of the next token decides which form is
read, and from then on the form decides what may come next: there is no
going back. Blanks are allowed between any two tokens of a form, except
inside `$name` and `:=`.

A form begins with a token that it takes, so reading a statement always
makes the scanner smaller. The proofs follow the forms.
-/

namespace StoredProc.Statement

namespace Parse

open Scan

/-! ### Parts of a form -/

def skipBlank : Scan Unit := do
  if (← peekKind) = .blank then
    let _ ← expect .blank
    return ()
  else return ()

/-- A token of a kind, with or without blanks before it. -/
def expectSpaced (kind : Kind) : Scan Token := do
  skipBlank
  expect kind

def unexpected {α : Type} (expected : Expectation) : Scan α := do
  let token ← peek
  throw (.unexpected expected token)

/-- `$name`, which is at the line of its dollar sign. -/
def sigilVariable : Scan Variable := do
  let dollar ← expect .dollar
  let name ← expect .name
  return ⟨dollar.line, name.text⟩

def plainVariable (token : Token) : Variable := ⟨token.line, token.text⟩

def quoted (mark : Kind) (delimiter : Char) : Scan Text := do
  let _ ← expect mark
  let text ← rawUntil delimiter
  let _ ← expect mark
  return text

/-- A literal: raw text between double quotes or between apostrophes. Two
quotes side by side are the empty literal. -/
def literal : Scan Text := do
  match ← peekKind with
  | .quotePair =>
      let _ ← expect .quotePair
      return []
  | .apostrophePair =>
      let _ ← expect .apostrophePair
      return []
  | .quote => quoted .quote '"'
  | .apostrophe => quoted .apostrophe '\x27'
  | _ => unexpected .literal

def valueType : Scan ValueType := do
  let kind ← peekKind
  if kind.isType then
    let token ← expect kind
    match ValueType.ofWord? token.text with
    | some type => return type
    | none => throw (.misspelt .valueType token)
  else unexpected .valueType

def direction : Scan Direction := do
  let kind ← peekKind
  if kind.isDirection then
    let token ← expect kind
    match Direction.ofWord? token.text with
    | some direction => return direction
    | none => throw (.misspelt .direction token)
  else unexpected .direction

def param : Scan Param := do
  let name ← expectSpaced .name
  skipBlank
  let type ← valueType
  skipBlank
  let direction ← direction
  return ⟨name.line, plainVariable name, type, direction⟩

def nextParam : Scan (Option Param) := do
  skipBlank
  if (← peekKind) = .comma then
    let _ ← expect .comma
    let param ← param
    return some param
  else return none

/-! ### What the parts take -/

theorem steady_skipBlank : Steady skipBlank := by
  refine steady_peekKind.bind fun kind => ?_
  split
  · exact (consuming_expect (by decide)).steady.bind fun _ => steady_pure _
  · exact steady_pure _

theorem consuming_expectSpaced {kind : Kind} (hk : kind ≠ .eof) :
    Consuming (expectSpaced kind) :=
  steady_skipBlank.bind_consuming fun _ => consuming_expect hk

theorem consuming_unexpected {α : Type} (expected : Expectation) :
    Consuming (unexpected expected : Scan α) :=
  steady_peek.bind_consuming fun _ => consuming_throw _

theorem consuming_sigilVariable : Consuming sigilVariable :=
  (consuming_expect (by decide)).bind fun _ =>
    (consuming_expect (by decide)).steady.bind fun _ => steady_pure _

theorem consuming_quoted {mark : Kind} (hk : mark ≠ .eof) (delimiter : Char) :
    Consuming (quoted mark delimiter) :=
  (consuming_expect hk).bind fun _ =>
    (steady_rawUntil delimiter).bind fun _ =>
      (consuming_expect hk).steady.bind fun _ => steady_pure _

theorem consuming_literal : Consuming literal := by
  refine steady_peekKind.bind_consuming fun kind => ?_
  split
  · exact (consuming_expect (by decide)).bind fun _ => steady_pure _
  · exact (consuming_expect (by decide)).bind fun _ => steady_pure _
  · exact consuming_quoted (by decide) _
  · exact consuming_quoted (by decide) _
  · exact consuming_unexpected _

theorem consuming_valueType : Consuming valueType := by
  refine steady_peekKind.bind_consuming fun kind => ?_
  split
  · next hkind =>
      refine (consuming_expect (by rintro rfl; cases hkind)).bind fun token => ?_
      split
      · exact steady_pure _
      · exact (consuming_throw _).steady
  · exact consuming_unexpected _

theorem consuming_direction : Consuming direction := by
  refine steady_peekKind.bind_consuming fun kind => ?_
  split
  · next hkind =>
      refine (consuming_expect (by rintro rfl; cases hkind)).bind fun token => ?_
      split
      · exact steady_pure _
      · exact (consuming_throw _).steady
  · exact consuming_unexpected _

theorem consuming_param : Consuming param :=
  (consuming_expectSpaced (by decide)).bind fun _ =>
    steady_skipBlank.bind fun _ =>
      consuming_valueType.steady.bind fun _ =>
        steady_skipBlank.bind fun _ =>
          consuming_direction.steady.bind fun _ => steady_pure _

theorem steady_nextParam : Steady nextParam := by
  refine steady_skipBlank.bind fun _ => steady_peekKind.bind fun kind => ?_
  split
  · exact (consuming_expect (by decide)).steady.bind fun _ =>
      consuming_param.steady.bind fun _ => steady_pure _
  · exact steady_pure _

/-- A further parameter takes at least its comma. -/
theorem advancing_nextParam : Advancing nextParam := by
  intro s p u h
  obtain ⟨_, t₁, h₁, h⟩ := bind_eq_ok h
  obtain ⟨kind, t₂, h₂, h⟩ := bind_eq_ok h
  have hle : t₂.size ≤ s.size := Nat.le_trans (steady_peekKind h₂) (steady_skipBlank h₁)
  split at h
  · obtain ⟨_, t₃, h₃, h⟩ := bind_eq_ok h
    obtain ⟨q, t₄, h₄, h⟩ := bind_eq_ok h
    cases h
    have hcomma := consuming_expect (by decide) h₃
    have hparam := consuming_param h₄
    omega
  · cases h

/-! ### The forms -/

def params : Scan (List Param) := do
  let first ← param
  let others ← many nextParam advancing_nextParam
  return first :: others

/-- `$name = literal`, with the blanks after it. -/
def sigilAssignment : Scan Statement := do
  let var ← sigilVariable
  let _ ← expectSpaced .equal
  skipBlank
  let text ← literal
  skipBlank
  return .assignment var.line var text

/-- `CREATE OR REPLACE PROCEDURE name (params) IS`. -/
def procedureHeader : Scan Statement := do
  let create ← expect (.keyword .create)
  let _ ← expectSpaced (.keyword .or)
  let _ ← expectSpaced (.keyword .replace)
  let _ ← expectSpaced (.keyword .procedure)
  let name ← expectSpaced .name
  let _ ← expectSpaced .leftParen
  let params ← params
  let _ ← expectSpaced .rightParen
  let _ ← expectSpaced (.keyword .is)
  return .procedure ⟨create.line, plainVariable name, params⟩

/-- `type;`, after the name it declares. -/
def declarationOf (name : Token) : Scan Statement := do
  let type ← valueType
  let _ ← expectSpaced .semicolon
  return .declaration name.line (plainVariable name) type

/-- `:= literal;`, after the name it assigns to. -/
def assignmentTo (name : Token) : Scan Statement := do
  let _ ← expect .colon
  let _ ← expect .equal
  skipBlank
  let text ← literal
  let _ ← expectSpaced .semicolon
  return .assignment name.line (plainVariable name) text

def declarationOrAssignment : Scan Statement := do
  let name ← expect .name
  skipBlank
  match ← peekKind with
  | .keyword .integer => declarationOf name
  | .keyword .char => declarationOf name
  | .colon => assignmentTo name
  | _ => unexpected .typeOrAssignment

def begin : Scan Statement := do
  let token ← expect (.keyword .beginBlock)
  return .blockStart token.line

/-- `EXECUTE IMMEDIATE name;`. -/
def executeImmediate : Scan Statement := do
  let token ← expect (.keyword .execute)
  let _ ← expectSpaced (.keyword .immediate)
  let name ← expectSpaced .name
  let _ ← expectSpaced .semicolon
  return .execute token.line (plainVariable name)

/-- `END` and anything up to the next semicolon. -/
def ending : Scan Statement := do
  let token ← expect (.keyword .endBlock)
  let _ ← rawUntil ';'
  let _ ← expect .semicolon
  return .blockEnd token.line

def blanks : Scan Statement := do
  let token ← expect .blank
  return .blank token.line

/-- `PRINT($name)`, with the blanks after it. -/
def printing : Scan Statement := do
  let token ← expect (.keyword .print)
  let _ ← expectSpaced .leftParen
  skipBlank
  let var ← sigilVariable
  let _ ← expectSpaced .rightParen
  skipBlank
  return .print token.line var

/-! ### What the forms take -/

theorem consuming_params : Consuming params :=
  consuming_param.bind fun _ =>
    (steady_many advancing_nextParam steady_nextParam).bind fun _ => steady_pure _

theorem consuming_sigilAssignment : Consuming sigilAssignment :=
  consuming_sigilVariable.bind fun _ =>
    (consuming_expectSpaced (by decide)).steady.bind fun _ =>
      steady_skipBlank.bind fun _ =>
        consuming_literal.steady.bind fun _ =>
          steady_skipBlank.bind fun _ => steady_pure _

theorem consuming_procedureHeader : Consuming procedureHeader :=
  (consuming_expect (by decide)).bind fun _ =>
    (consuming_expectSpaced (by decide)).steady.bind fun _ =>
      (consuming_expectSpaced (by decide)).steady.bind fun _ =>
        (consuming_expectSpaced (by decide)).steady.bind fun _ =>
          (consuming_expectSpaced (by decide)).steady.bind fun _ =>
            (consuming_expectSpaced (by decide)).steady.bind fun _ =>
              consuming_params.steady.bind fun _ =>
                (consuming_expectSpaced (by decide)).steady.bind fun _ =>
                  (consuming_expectSpaced (by decide)).steady.bind fun _ => steady_pure _

theorem steady_declarationOf (name : Token) : Steady (declarationOf name) :=
  consuming_valueType.steady.bind fun _ =>
    (consuming_expectSpaced (by decide)).steady.bind fun _ => steady_pure _

theorem steady_assignmentTo (name : Token) : Steady (assignmentTo name) :=
  (consuming_expect (by decide)).steady.bind fun _ =>
    (consuming_expect (by decide)).steady.bind fun _ =>
      steady_skipBlank.bind fun _ =>
        consuming_literal.steady.bind fun _ =>
          (consuming_expectSpaced (by decide)).steady.bind fun _ => steady_pure _

theorem consuming_declarationOrAssignment : Consuming declarationOrAssignment := by
  refine (consuming_expect (by decide)).bind fun name => ?_
  refine steady_skipBlank.bind fun _ => steady_peekKind.bind fun kind => ?_
  split
  · exact steady_declarationOf name
  · exact steady_declarationOf name
  · exact steady_assignmentTo name
  · exact (consuming_unexpected _).steady

theorem consuming_begin : Consuming begin :=
  (consuming_expect (by decide)).bind fun _ => steady_pure _

theorem consuming_executeImmediate : Consuming executeImmediate :=
  (consuming_expect (by decide)).bind fun _ =>
    (consuming_expectSpaced (by decide)).steady.bind fun _ =>
      (consuming_expectSpaced (by decide)).steady.bind fun _ =>
        (consuming_expectSpaced (by decide)).steady.bind fun _ => steady_pure _

theorem consuming_ending : Consuming ending :=
  (consuming_expect (by decide)).bind fun _ =>
    (steady_rawUntil _).bind fun _ =>
      (consuming_expect (by decide)).steady.bind fun _ => steady_pure _

theorem consuming_blanks : Consuming blanks :=
  (consuming_expect (by decide)).bind fun _ => steady_pure _

theorem consuming_printing : Consuming printing :=
  (consuming_expect (by decide)).bind fun _ =>
    (consuming_expectSpaced (by decide)).steady.bind fun _ =>
      steady_skipBlank.bind fun _ =>
        consuming_sigilVariable.steady.bind fun _ =>
          (consuming_expectSpaced (by decide)).steady.bind fun _ =>
            steady_skipBlank.bind fun _ => steady_pure _

end Parse

/-! ### Statements -/

open Scan Parse

def parse : Scan Statement := do
  match ← peekKind with
  | .dollar => sigilAssignment
  | .keyword .create => procedureHeader
  | .name => declarationOrAssignment
  | .keyword .beginBlock => begin
  | .keyword .execute => executeImmediate
  | .keyword .endBlock => ending
  | .blank => blanks
  | .keyword .print => printing
  | _ => unexpected .statement

/-- A statement takes at least the token it begins with. -/
theorem consuming_parse : Consuming parse := by
  refine steady_peekKind.bind_consuming fun kind => ?_
  split
  · exact consuming_sigilAssignment
  · exact consuming_procedureHeader
  · exact consuming_declarationOrAssignment
  · exact consuming_begin
  · exact consuming_executeImmediate
  · exact consuming_ending
  · exact consuming_blanks
  · exact consuming_printing
  · exact consuming_unexpected _

end StoredProc.Statement
