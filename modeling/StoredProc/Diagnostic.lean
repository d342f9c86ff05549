import StoredProc.Text.Basic

/-!
What a user is told when something fails: one message, the line of the
script it is about where there is one, and the reason beneath it where
the failure came from outside.
-/

namespace StoredProc

inductive Diagnostic where
  /-- Reading or writing failed, for a reason given from outside. -/
  | io (reason : Text)
  /-- The script cannot be cut into the tokens that are needed. -/
  | lexical (line : Nat) (problem : Text)
  /-- The tokens do not form a statement. -/
  | grammar (line : Nat) (expected found : Text)
  /-- A value is printed that nothing has assigned. -/
  | unknownVariable (line : Nat) (name : Text)
  /-- An operation was used against its rules. -/
  | internal (problem : Text)
  /-- A text would be longer than any text can be. This is no report: the
  program is broken off where it stands. -/
  | capacity
  deriving DecidableEq, Repr

namespace Diagnostic

def atLine (line : Nat) (message : Text) : Text :=
  "line ".toList ++ Text.ofNat line ++ ": ".toList ++ message

/-- The message, on one line if its parts are. -/
def message : Diagnostic → Text
  | io reason => "I/O error: ".toList ++ reason
  | lexical line problem => atLine line ("lex error: ".toList ++ problem)
  | grammar line expected found =>
      atLine line
        ("parse error: expected ".toList ++ expected ++ ", found ".toList ++ found)
  | unknownVariable line name =>
      atLine line ("variable $".toList ++ name ++ " was never assigned".toList)
  | internal problem => "internal error: ".toList ++ problem
  | capacity => "capacity overflow".toList

def line? : Diagnostic → Option Nat
  | lexical line _ => some line
  | grammar line _ _ => some line
  | unknownVariable line _ => some line
  | io _ => none
  | internal _ => none
  | capacity => none

def reason? : Diagnostic → Option Text
  | io reason => some reason
  | _ => none

end Diagnostic

end StoredProc
