import StoredProc.Text.Utf8

/-!
What a terminal shows of a text. Control characters show nothing, and an
escape character begins a sequence that is an order to the terminal, no
part of which is shown. Text that comes from outside is shown this way,
so that it cannot give orders.

The text is read from left to right by a `Reader`, which knows what kind
of sequence it is in and whether the last character was shown.
-/

namespace StoredProc.Text.Terminal

inductive Mode where
  /-- No sequence. -/
  | plain
  /-- After an escape character. -/
  | escape
  /-- An escape sequence that goes on. -/
  | escapeMore
  /-- A control sequence. -/
  | control
  /-- A device control string, and its parts before the contents. -/
  | device
  | deviceParam
  | deviceMore
  /-- The contents of a string that is meant for the terminal. -/
  | string
  /-- A command to the system. -/
  | command
  deriving DecidableEq, Repr

/-! ### Characters

The graphic characters of ASCII fall into three groups: the first, up to
the slash, goes on with a sequence; digits and some signs are parameters;
the rest, from the at sign on, ends it. -/

/-- The layout characters that a sequence does not swallow. -/
def isLayout (c : Char) : Bool := c = '\t' || c = '\n' || c = '\x0c' || c = '\r'

def isGraphic (c : Char) : Bool := ' ' ≤ c && c ≤ '~'

def isMore (c : Char) : Bool := ' ' ≤ c && c ≤ '/'

def isParam (c : Char) : Bool := '0' ≤ c && c ≤ '?'

def isFinal (c : Char) : Bool := '@' ≤ c && c ≤ '~'

def holdsTerminator (c : Char) : Bool := (Utf8.encode [c]).contains 0x9c

/-! ### Sequences -/

/-- The mode after a character that belongs to a sequence. A character
that has no place in it changes nothing. -/
def Mode.after (mode : Mode) (c : Char) : Mode :=
  match mode with
  | plain => plain
  | escape =>
      if isMore c then escapeMore
      else if c = '[' then control
      else if c = ']' then command
      else if c = 'P' then device
      else if c = 'X' || c = '^' || c = '_' then string
      else if isParam c || isFinal c then plain
      else escape
  | escapeMore => if isParam c || isFinal c then plain else escapeMore
  | control => if isFinal c then plain else control
  | device =>
      if isMore c then deviceMore
      else if isParam c then deviceParam
      else if isFinal c then string
      else device
  | deviceParam =>
      if isMore c then deviceMore
      else if isFinal c || ('<' ≤ c && c ≤ '?') then string
      else deviceParam
  | deviceMore => if isParam c || isFinal c then string else deviceMore
  | string => if holdsTerminator c then plain else string
  | command => if c = '\x07' then plain else command

def Mode.keepsLayout : Mode → Bool
  | escape | escapeMore | control => true
  | _ => false

/-! ### Reading -/

structure Reader where
  mode : Mode
  showing : Bool
  deriving DecidableEq, Repr

/-- Read a character; it is shown if the reader is showing then. An escape
character begins a sequence anywhere, and two controls break off any.
Once a layout character is shown in the middle of a sequence, what
follows is shown too, up to a character that shows nothing; from there
the sequence goes on, unless a character outside ASCII has ended it. -/
def Reader.read (reader : Reader) (c : Char) : Reader :=
  if c = '\x1b' then ⟨.escape, false⟩
  else if c = '\x18' || c = '\x1a' then ⟨.plain, false⟩
  else if reader.showing || reader.mode = .plain then
    if 0x80 ≤ c.toNat then ⟨.plain, true⟩
    else ⟨reader.mode, isGraphic c || isLayout c⟩
  else if reader.mode.keepsLayout && isLayout c then ⟨reader.mode, true⟩
  else ⟨reader.mode.after c, false⟩

def Reader.shown (reader : Reader) : Text → Text
  | [] => []
  | c :: rest =>
      let reader := reader.read c
      if reader.showing then c :: reader.shown rest else reader.shown rest

def shown (text : Text) : Text := Reader.shown ⟨.plain, true⟩ text

end StoredProc.Text.Terminal
