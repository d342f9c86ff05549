import StoredProc.Text.Basic

/-!
Tokens: the classified pieces a script is cut into. Blanks are tokens
too, so that the texts of a token list put together are the script
itself and every line number can be recovered from it.
-/

namespace StoredProc

inductive Keyword where
  | print
  | procedure
  | input
  | output
  | integer
  | char
  | create
  | or
  | replace
  | is
  | beginBlock
  | endBlock
  | execute
  | immediate
  deriving DecidableEq, Repr

namespace Keyword

def all : List Keyword :=
  [print, procedure, input, output, integer, char, create, or, replace, is, beginBlock, endBlock,
    execute, immediate]

def spelling : Keyword → Text
  | print => "PRINT".toList
  | procedure => "PROCEDURE".toList
  | input => "IN".toList
  | output => "OUT".toList
  | integer => "INTEGER".toList
  | char => "CHAR".toList
  | create => "CREATE".toList
  | or => "OR".toList
  | replace => "REPLACE".toList
  | is => "IS".toList
  | beginBlock => "BEGIN".toList
  | endBlock => "END".toList
  | execute => "EXECUTE".toList
  | immediate => "IMMEDIATE".toList

def ofWord? (word : Text) : Option Keyword := all.find? (·.spelling = word.toUpper)

end Keyword

/-- What a token is. A quote that is followed by the same quote makes one
token with it, the empty literal. -/
inductive Kind where
  | keyword (word : Keyword)
  | leftParen
  | rightParen
  | equal
  | colon
  | comma
  | semicolon
  | quote
  | quotePair
  | apostrophe
  | apostrophePair
  | dollar
  | name
  | blank
  | eof
  deriving DecidableEq, Repr

namespace Kind

def label : Kind → Text
  | keyword word => "keyword ".toList ++ word.spelling
  | leftParen => "'('".toList
  | rightParen => "')'".toList
  | equal => "'='".toList
  | colon => "':'".toList
  | comma => "','".toList
  | semicolon => "';'".toList
  | quote => "'\"'".toList
  | quotePair => "'\"\"'".toList
  | apostrophe => "\"'\"".toList
  | apostrophePair => "\"''\"".toList
  | dollar => "'$'".toList
  | name => "identifier".toList
  | blank => "whitespace".toList
  | eof => "end of input".toList

def isType : Kind → Bool
  | keyword .integer | keyword .char => true
  | _ => false

def isDirection : Kind → Bool
  | keyword .input | keyword .output => true
  | _ => false

def isKeyword : Kind → Bool
  | keyword _ => true
  | _ => false

end Kind

/-- A piece of a script: its kind, its spelling, and the line it begins
on. -/
structure Token where
  line : Nat
  kind : Kind
  text : Text
  deriving DecidableEq, Repr

/-- How messages call a token: words by their spelling in the script, all
else by kind. -/
def Token.describe (token : Token) : Text :=
  match token.kind with
  | .name => "identifier `".toList ++ token.text ++ "`".toList
  | .keyword _ => "keyword `".toList ++ token.text ++ "`".toList
  | kind => kind.label

end StoredProc
