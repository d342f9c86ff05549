import StoredProc.Statement.Parse

/-!
A script as a whole: statements one after another up to the end of
input. Reading stops at the first statement that cannot be read.
-/

namespace StoredProc

/-- A script: its statements in order, and the line reading began on. -/
structure Program where
  line : Nat
  statements : List Statement
  deriving DecidableEq, Repr

namespace Program

open Scan

def nextStatement : Scan (Option Statement) := do
  if (← peekKind) = .eof then return none
  else
    let statement ← Statement.parse
    note (.parsed statement)
    return some statement

theorem advancing_nextStatement : Advancing nextStatement := by
  intro s statement u h
  obtain ⟨kind, t₁, h₁, h⟩ := bind_eq_ok h
  split at h
  · cases h
  · obtain ⟨parsed, t₂, h₂, h⟩ := bind_eq_ok h
    obtain ⟨_, t₃, h₃, h⟩ := bind_eq_ok h
    cases h
    have hpeek := steady_peekKind h₁
    have hparse := Statement.consuming_parse h₂
    have hnote := steady_note _ h₃
    omega

def read : Scan Program := do
  let line := (← get).line
  let statements ← many nextStatement advancing_nextStatement
  return ⟨line, statements⟩

def parse (source : Text) : Except SyntaxError Program :=
  match read (.ofText source) with
  | .ok program _ => .ok program
  | .error e _ => .error e

/-- The events of reading a script, oldest first. -/
def parseEvents (source : Text) : List Event :=
  match read (.ofText source) with
  | .ok _ s => s.trace.reverse
  | .error _ s => s.trace.reverse

end Program

end StoredProc
