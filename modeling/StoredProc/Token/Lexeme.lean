import StoredProc.Token

/-!
Cutting the first token off a text. The cut is decided by the first
character, and by the second only for a pair of quotes; words and blanks
run as far as their class goes. Positions play no part here.
-/

namespace StoredProc

/-- The first token of a text, and the text after it. -/
structure Lexeme where
  kind : Kind
  text : Text
  rest : Text
  deriving DecidableEq, Repr

namespace Kind

/-- The tokens that are one character long whatever follows. -/
def ofPunctuation? : Char → Option Kind
  | '$' => some dollar
  | '(' => some leftParen
  | ')' => some rightParen
  | '=' => some equal
  | ',' => some comma
  | ':' => some colon
  | ';' => some semicolon
  | _ => none

/-- The kind of a quote that stands alone, and of the quote written
twice. -/
def ofQuote? : Char → Option (Kind × Kind)
  | '"' => some (quote, quotePair)
  | '\x27' => some (apostrophe, apostrophePair)
  | _ => none

def ofWord (word : Text) : Kind :=
  match Keyword.ofWord? word with
  | some k => keyword k
  | none => name

end Kind

namespace Lexeme

def ofQuote (alone pair : Kind) (c : Char) : Text → Lexeme
  | d :: rest => if d = c then ⟨pair, [c, d], rest⟩ else ⟨alone, [c], d :: rest⟩
  | [] => ⟨alone, [c], []⟩

def ofRun (test : Char → Bool) (kind : Text → Kind) (text : Text) : Lexeme :=
  ⟨kind (text.takeWhile test), text.takeWhile test, text.dropWhile test⟩

/-- The first token of a text. It fails with the first character where no
token begins with that character; at the end of the text it is the empty
token of kind `eof`. -/
def first : Text → Except Char Lexeme
  | [] => .ok ⟨.eof, [], []⟩
  | c :: rest =>
      match Kind.ofPunctuation? c, Kind.ofQuote? c with
      | some kind, _ => .ok ⟨kind, [c], rest⟩
      | none, some (alone, pair) => .ok (ofQuote alone pair c rest)
      | none, none =>
          if Text.isWordStart c then .ok (ofRun Text.isWordPart Kind.ofWord (c :: rest))
          else if Text.isBlank c then .ok (ofRun Text.isBlank (fun _ => .blank) (c :: rest))
          else .error c

/-! ### What a cut keeps -/

theorem text_append_rest_ofQuote (alone pair : Kind) (c : Char) (rest : Text) :
    (ofQuote alone pair c rest).text ++ (ofQuote alone pair c rest).rest = c :: rest := by
  unfold ofQuote
  split
  · split <;> rfl
  · rfl

theorem text_append_rest_ofRun (test : Char → Bool) (kind : Text → Kind) (text : Text) :
    (ofRun test kind text).text ++ (ofRun test kind text).rest = text :=
  List.takeWhile_append_dropWhile

/-- Nothing is lost: the token and the rest are the text. -/
theorem text_append_rest_of_first {text : Text} {l : Lexeme} (h : first text = .ok l) :
    l.text ++ l.rest = text := by
  unfold first at h
  split at h
  · cases h; rfl
  · split at h
    · cases h; rfl
    · cases h; exact text_append_rest_ofQuote ..
    · split at h
      · cases h; exact text_append_rest_ofRun ..
      · split at h
        · cases h; exact text_append_rest_ofRun ..
        · cases h

theorem text_ofQuote_ne_nil (alone pair : Kind) (c : Char) (rest : Text) :
    (ofQuote alone pair c rest).text ≠ [] := by
  unfold ofQuote
  split
  · split <;> simp
  · simp

theorem text_ofRun_ne_nil {test : Char → Bool} {c : Char} (h : test c = true)
    (kind : Text → Kind) (rest : Text) : (ofRun test kind (c :: rest)).text ≠ [] := by
  simp [ofRun, h]

/-- Before the end of the text a token is never empty. -/
theorem text_ne_nil_of_first {c : Char} {rest : Text} {l : Lexeme}
    (h : first (c :: rest) = .ok l) : l.text ≠ [] := by
  rw [first] at h
  split at h
  · cases h; simp
  · cases h; exact text_ofQuote_ne_nil _ _ _ _
  · split at h
    · next hc =>
        cases h
        exact text_ofRun_ne_nil (Text.isWordPart_of_isWordStart hc) _ _
    · split at h
      · next hc => cases h; exact text_ofRun_ne_nil hc _ _
      · cases h

/-- A token that is not the end of the text makes the rest shorter. -/
theorem length_rest_lt_of_first {text : Text} {l : Lexeme} (h : first text = .ok l)
    (hk : l.kind ≠ .eof) : l.rest.length < text.length := by
  cases text with
  | nil => cases h; exact absurd rfl hk
  | cons c rest =>
      have hlen := congrArg List.length (text_append_rest_of_first h)
      have hpos := List.length_pos_iff.mpr (text_ne_nil_of_first h)
      rw [List.length_append] at hlen
      omega

/-- No cut makes the rest longer. -/
theorem length_rest_le_of_first {text : Text} {l : Lexeme} (h : first text = .ok l) :
    l.rest.length ≤ text.length := by
  have hlen := congrArg List.length (text_append_rest_of_first h)
  rw [List.length_append] at hlen
  omega

end Lexeme

end StoredProc
