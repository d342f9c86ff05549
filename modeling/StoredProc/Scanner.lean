import StoredProc.Event
import StoredProc.SyntaxError
import StoredProc.Text.Utf8
import StoredProc.Token.Lexeme

/-!
A scanner reads a script from left to right. It hands out one token at a
time, can look one token ahead, and can pass over raw text up to a
delimiter, which is how the inside of a literal is read.

An operation that fails leaves a scanner behind as well: a caller may go
on from there. So operations live in `Scan`, where both outcomes carry
the scanner they end in.
-/

namespace StoredProc

/-- A place in a script. `held` is a token that was looked at and not yet
taken; the scanner has passed it, so `rest` and `line` are those after
it. The trace has the newest event first. -/
structure Scanner where
  rest : Text
  line : Nat
  held : Option Token
  trace : List Event
  deriving DecidableEq, Repr

namespace Scanner

def ofText (source : Text) : Scanner := ⟨source, 1, none, []⟩

def isFinished (s : Scanner) : Bool :=
  match s.held with
  | some token => token.kind = .eof
  | none => s.rest.isEmpty

/-- The scanner after a token was cut off its text. The end of input is
no event. -/
def pass (s : Scanner) (l : Lexeme) : Scanner where
  rest := l.rest
  line := s.line + Text.lineBreaks l.text
  held := s.held
  trace := if l.kind = .eof then s.trace else .token ⟨s.line, l.kind, l.text⟩ :: s.trace

def passRaw (s : Scanner) (delimiter : Char) (text rest : Text) : Scanner where
  rest := rest
  line := s.line + Text.lineBreaks text
  held := s.held
  trace := .skippedTo delimiter (s.line + Text.lineBreaks text) (Text.Utf8.size text) :: s.trace

end Scanner

abbrev Scan := EStateM SyntaxError Scanner

namespace Scan

/-! ### Operations -/

/-- Cut the next token off the text, whatever is held. -/
def cut : Scan Token := fun s =>
  match Lexeme.first s.rest with
  | .ok l => .ok ⟨s.line, l.kind, l.text⟩ (s.pass l)
  | .error c => .error (.unexpectedSymbol s.line c) s

def next : Scan Token := fun s =>
  match s.held with
  | some token => .ok token { s with held := none }
  | none => cut s

def peek : Scan Token := fun s =>
  match s.held with
  | some token => .ok token s
  | none =>
      match cut s with
      | .ok token t => .ok token { t with held := some token }
      | .error e t => .error e t

def peekKind : Scan Kind := do
  let token ← peek
  return token.kind

/-- Take the next token, which has to be of a kind. A token of another
kind is taken all the same. -/
def expect (kind : Kind) : Scan Token := do
  let token ← next
  if token.kind = kind then return token else throw (.mismatch kind token)

/-- Take the raw text before the next `delimiter`, and leave the
delimiter. The text is not cut into tokens, so no token may be held. -/
def rawUntil (delimiter : Char) : Scan Text := fun s =>
  match s.held with
  | some token => .error (.heldToken delimiter token) s
  | none =>
      match s.rest.dropWhile (· != delimiter) with
      | [] => .error (.missingDelimiter s.line delimiter) s
      | rest =>
          let text := s.rest.takeWhile (· != delimiter)
          .ok text (s.passRaw delimiter text rest)

def note (event : Event) : Scan Unit := fun s =>
  .ok () { s with trace := event :: s.trace }

end Scan

end StoredProc
