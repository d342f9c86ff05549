import StoredProc.Statement
import StoredProc.Token

/-!
The events of a run, in the order in which they happen: what was read,
what was understood, and what was written. An event holds what it is
about; its level, line and message are read off it.
-/

namespace StoredProc

/-- How much a listener has to care to hear of an event. -/
inductive Level where
  | warn
  | info
  | debug
  | trace
  deriving DecidableEq, Repr

/-- The most severe level comes first. -/
def Level.rank : Level → Nat
  | warn => 0
  | info => 1
  | debug => 2
  | trace => 3

inductive Event where
  /-- A token was cut off the script. -/
  | token (token : Token)
  /-- Raw text of this many bytes was passed; the line is the one after
  it. -/
  | skippedTo (delimiter : Char) (line bytes : Nat)
  /-- A statement was read. -/
  | parsed (statement : Statement)
  /-- A statement changes nothing when it is run. -/
  | idle (statement : Statement)
  /-- Code of this many bytes is about to be written. -/
  | emitting (statement : Statement) (bytes : Nat)
  /-- A second procedure begins while one is current. -/
  | replaced (new old : Header)
  deriving DecidableEq, Repr

inductive Particular where
  | number (n : Nat)
  | text (text : Text)
  | kind (kind : Kind)
  deriving DecidableEq, Repr

namespace Event

def level : Event → Level
  | token _ => .trace
  | skippedTo _ _ _ => .trace
  | parsed _ => .debug
  | idle _ => .debug
  | emitting _ _ => .debug
  | replaced _ _ => .warn

def line : Event → Nat
  | token t => t.line
  | skippedTo _ line _ => line
  | parsed s => s.line
  | idle s => s.line
  | emitting s _ => s.line
  | replaced new _ => new.line

def message : Event → Text
  | token _ => "token".toList
  | skippedTo delimiter _ _ => "scanned up to ".toList ++ Text.Quoted.ofChar delimiter
  | parsed s => "parsed ".toList ++ s.summary
  | idle s => "nothing to resolve for ".toList ++ s.summary
  | emitting s _ => "emitting ".toList ++ s.summary
  | replaced new old =>
      "procedure ".toList ++ new.name.name ++ " replaces ".toList ++ old.name.name ++
        " from line ".toList ++ Text.ofNat old.line

/-- The particulars of an event besides its line: what a token is and how
it is spelled, and the length of text in bytes. -/
def particulars : Event → List (Text × Particular)
  | token t => [("kind".toList, .kind t.kind), ("text".toList, .text (Text.Quoted.ofText t.text))]
  | skippedTo _ _ bytes => [("len".toList, .number bytes)]
  | emitting _ bytes => [("bytes".toList, .number bytes)]
  | parsed _ => []
  | idle _ => []
  | replaced _ _ => []

def heardAt (level : Level) (events : List Event) : List Event :=
  events.filter fun event => event.level.rank ≤ level.rank

end Event

end StoredProc
