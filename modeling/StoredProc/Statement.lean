import StoredProc.Text.Quoted

/-!
The statements of a script. Each keeps the line it begins on, and each
name it holds keeps the line of its own; blanks between statements are
statements that do nothing.

A statement has a one-line summary, in which a literal is quoted and
escaped.
-/

namespace StoredProc

structure Variable where
  line : Nat
  name : Text
  deriving DecidableEq, Repr

inductive ValueType where
  | integer
  | char
  deriving DecidableEq, Repr

/-- Whether a parameter is bound on entry or on return. -/
inductive Direction where
  | input
  | output
  deriving DecidableEq, Repr

structure Param where
  line : Nat
  var : Variable
  type : ValueType
  direction : Direction
  deriving DecidableEq, Repr

structure Header where
  line : Nat
  name : Variable
  params : List Param
  deriving DecidableEq, Repr

inductive Statement where
  /-- A text is assigned to a name. -/
  | assignment (line : Nat) (var : Variable) (literal : Text)
  /-- The value of a name is printed. -/
  | print (line : Nat) (var : Variable)
  /-- A procedure begins. -/
  | procedure (header : Header)
  /-- A name is declared. -/
  | declaration (line : Nat) (var : Variable) (type : ValueType)
  /-- The body of a procedure begins. -/
  | blockStart (line : Nat)
  /-- The text that a name holds is sent to the database. -/
  | execute (line : Nat) (sql : Variable)
  /-- The body of a procedure ends. -/
  | blockEnd (line : Nat)
  /-- Blanks between statements. -/
  | blank (line : Nat)
  deriving DecidableEq, Repr

/-! ### Words for types and directions -/

def ValueType.spelling : ValueType → Text
  | integer => "integer".toList
  | char => "char".toList

def ValueType.ofWord? (word : Text) : Option ValueType :=
  [integer, char].find? (·.spelling = word.toLower)

def Direction.spelling : Direction → Text
  | input => "in".toList
  | output => "out".toList

def Direction.ofWord? (word : Text) : Option Direction :=
  [input, output].find? (·.spelling = word.toLower)

/-! ### Parts of a statement -/

/-- The names bound on entry to a procedure, in order. -/
def Header.inputs (header : Header) : List Text :=
  (header.params.filter (·.direction = .input)).map (·.var.name)

def Statement.line : Statement → Nat
  | assignment line _ _ => line
  | print line _ => line
  | procedure header => header.line
  | declaration line _ _ => line
  | blockStart line => line
  | execute line _ => line
  | blockEnd line => line
  | blank line => line

/-! ### Summaries -/

def Param.summary (param : Param) : Text :=
  param.var.name ++ ' ' :: param.type.spelling ++ ' ' :: param.direction.spelling

def Header.summary (header : Header) : Text :=
  "Procedure ".toList ++ header.name.name ++ '(' ::
    Text.join ", ".toList (header.params.map Param.summary) ++ [')']

/-- A statement on one line, whatever text it holds. -/
def Statement.summary : Statement → Text
  | assignment _ var literal =>
      "Assignment ".toList ++ var.name ++ " = ".toList ++ Text.Quoted.ofText literal
  | print _ var => "Print ".toList ++ var.name
  | procedure header => header.summary
  | declaration _ var type => "Declare ".toList ++ var.name ++ ' ' :: type.spelling
  | blockStart _ => "Begin".toList
  | execute _ sql => "Execute ".toList ++ sql.name
  | blockEnd _ => "End".toList
  | blank _ => "Ignored".toList

end StoredProc
