/-!
Text is the list of its characters. A script is cut into tokens, a token
carries its own spelling, and generated code is put together from
pieces, so every one of these steps is an operation on lists.

The module fixes the character classes of the script language, all of
them inside ASCII, and the rule by which lines are counted: a carriage
return and a line feed that stand next to each other, in either order,
are one break.
-/

namespace StoredProc

abbrev Text := List Char

namespace Text

def ofNat (n : Nat) : Text := Nat.toDigits 10 n

def join (separator : Text) : List Text → Text
  | [] => []
  | [piece] => piece
  | piece :: pieces => piece ++ separator ++ join separator pieces

/-- The pieces between the occurrences of a separator. There is one piece
more than there are separators. -/
def split (separator : Char) : Text → List Text
  | [] => [[]]
  | c :: rest =>
      if c = separator then [] :: split separator rest
      else
        match split separator rest with
        | [] => [[c]]
        | piece :: pieces => (c :: piece) :: pieces

def covers (ranges : List (Nat × Nat)) (c : Char) : Bool :=
  ranges.any fun range => range.1 ≤ c.toNat && c.toNat ≤ range.2

/-! ### Character classes -/

/-- The six layout characters: space, tab, line feed, carriage return,
vertical tab and form feed. -/
def isBlank (c : Char) : Bool :=
  c = ' ' || c = '\t' || c = '\n' || c = '\r' || c = '\x0b' || c = '\x0c'

def isWordStart (c : Char) : Bool := c.isAlpha || c = '_'

def isWordPart (c : Char) : Bool := c.isAlphanum || c = '_'

theorem isWordPart_of_isWordStart {c : Char} (h : isWordStart c) : isWordPart c := by
  simp only [isWordStart, isWordPart, Char.isAlphanum, Bool.or_eq_true] at h ⊢
  rcases h with h | h
  · exact .inl (.inl h)
  · exact .inr h

/-! ### Letter case

Only ASCII letters have case here: keywords are ASCII, and a letter
outside it never makes two spellings equal. -/

/-- The text with its ASCII letters in upper case. -/
def toUpper (text : Text) : Text := text.map Char.toUpper

def toLower (text : Text) : Text := text.map Char.toLower

/-! ### Lines -/

def isBreak (c : Char) : Bool := c = '\r' || c = '\n'

/-- The number of line breaks. Reading from the left, two different
break characters side by side are one break; every other break character
is one by itself. -/
def lineBreaks : Text → Nat
  | [] => 0
  | [c] => if isBreak c then 1 else 0
  | c :: d :: rest =>
      if isBreak c then
        if isBreak d && c != d then 1 + lineBreaks rest else 1 + lineBreaks (d :: rest)
      else lineBreaks (d :: rest)

end Text

end StoredProc
