import StoredProc.Text.GraphemeExtend
import StoredProc.Text.Unprintable

/-!
Quoted text, as messages and summaries show it: every character that
could be mistaken for something else, or not be seen at all, is written
as an escape. What stands between the quotes is printable and holds no
bare quote, so that a quoted text can be told from what surrounds it.
-/

namespace StoredProc.Text.Quoted

def codePoint (c : Char) : Text :=
  "\\u\x7b".toList ++ Nat.toDigits 16 c.toNat ++ "\x7d".toList

/-- One character between two `quote`s. The quote itself and the
backslash are escaped; so are the four controls that have a letter, and
by code point whatever extends the character before it or shows
nothing. -/
def escape (quote c : Char) : Text :=
  if c = '\x00' then "\\0".toList
  else if c = '\t' then "\\t".toList
  else if c = '\r' then "\\r".toList
  else if c = '\n' then "\\n".toList
  else if c = '\\' || c = quote then ['\\', c]
  else if GraphemeExtend.test c || Unprintable.test c then codePoint c
  else [c]

def ofText (text : Text) : Text := '"' :: text.flatMap (escape '"') ++ ['"']

def ofChar (c : Char) : Text := '\x27' :: escape '\x27' c ++ ['\x27']

end StoredProc.Text.Quoted
