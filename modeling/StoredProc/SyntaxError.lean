import StoredProc.Diagnostic
import StoredProc.Text.Quoted
import StoredProc.Token

/-!
The ways in which reading a script fails. An error holds the token or
character it is about; the words are chosen when it is reported.
-/

namespace StoredProc

/-- What the grammar asks for at a place where several tokens would
do. -/
inductive Expectation where
  | statement
  | literal
  | typeOrAssignment
  | valueType
  | direction
  deriving DecidableEq, Repr

def Expectation.label : Expectation → Text
  | statement => "statement".toList
  | literal => "string literal".toList
  | typeOrAssignment => "variable type or ':='".toList
  | valueType => "parameter type (INTEGER or CHAR)".toList
  | direction => "parameter direction (IN or OUT)".toList

inductive SyntaxError where
  /-- No token begins with this character. -/
  | unexpectedSymbol (line : Nat) (symbol : Char)
  /-- Raw text has no end: its delimiter does not occur. -/
  | missingDelimiter (line : Nat) (delimiter : Char)
  /-- A token of one kind was asked for and another was next. -/
  | mismatch (wanted : Kind) (found : Token)
  /-- No continuation of the grammar begins with the token. -/
  | unexpected (expected : Expectation) (found : Token)
  /-- A token of the right kind does not spell what its kind says. -/
  | misspelt (expected : Expectation) (found : Token)
  /-- Raw text was asked for while a token was looked at but not taken. -/
  | heldToken (delimiter : Char) (held : Token)
  deriving DecidableEq, Repr

def SyntaxError.diagnostic : SyntaxError → Diagnostic
  | unexpectedSymbol line symbol =>
      .lexical line ("unexpected symbol ".toList ++ Text.Quoted.ofChar symbol)
  | missingDelimiter line delimiter =>
      .lexical line ("missing delimiter ".toList ++ Text.Quoted.ofChar delimiter)
  | mismatch wanted found =>
      .lexical found.line
        ("expected ".toList ++ wanted.label ++ ", found ".toList ++ found.describe)
  | unexpected expected found => .grammar found.line expected.label found.describe
  | misspelt expected found =>
      .grammar found.line expected.label ('`' :: found.text ++ ['`'])
  | heldToken delimiter held =>
      .internal ("scan_until(".toList ++ Text.Quoted.ofChar delimiter ++ ") called with ".toList ++
        held.describe ++ " pending on line ".toList ++ Text.ofNat held.line)

end StoredProc
