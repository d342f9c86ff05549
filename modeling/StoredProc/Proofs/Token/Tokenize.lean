import StoredProc.Proofs.Scanner.Reading

/-!
Cutting a whole script into tokens. Which scripts can be cut is a
question about single characters: each has to be one that some token can
hold, and a digit has to stand behind another character of a word,
because no token begins with one. The tokens are then the only ones there
are, and where the script cannot be cut it is the first character out of
place that is reported.
-/

namespace StoredProc

open Text

/-! ### Which scripts can be cut -/

namespace Text

/-- The character may stand after the text: it is a mark, a quote, a
blank, a letter or an underscore, or else a digit that goes on with a
word. -/
def Admits (before : Text) (c : Char) : Prop :=
  c ∈ "$()=,:;\"'".toList ∨ c.isAlpha = true ∨ c = '_' ∨ isBlank c = true ∨
    (c.isDigit = true ∧ ∃ d ∈ before.getLast?, isWordPart d = true)

/-- Every character may stand where it stands, the text being one that
follows `before`. -/
def LexicalAfter (before text : Text) : Prop :=
  ∀ front c back, text = front ++ c :: back → Admits (before ++ front) c

def Lexical (source : Text) : Prop :=
  ∀ front c back, source = front ++ c :: back → Admits front c

variable {before a b : Text} {c : Char}

theorem lexicalAfter_nil_iff {source : Text} : LexicalAfter [] source ↔ Lexical source := by
  rfl

theorem LexicalAfter.append (ha : LexicalAfter before a) (hb : LexicalAfter (before ++ a) b) :
    LexicalAfter before (a ++ b) := by
  intro front c back h
  rcases List.append_eq_append_iff.mp h with ⟨mid, rfl, hmid⟩ | ⟨mid, rfl, hmid⟩
  · rw [← List.append_assoc]
    exact hb mid c back hmid
  · cases mid with
    | nil =>
        have hadmits := hb [] c back hmid.symm
        rwa [List.append_nil, List.append_nil] at hadmits
    | cons d mid =>
        rw [List.cons_append, List.cons.injEq] at hmid
        obtain ⟨rfl, -⟩ := hmid
        exact ha front c mid rfl

/-- A text of characters that may stand anywhere. -/
theorem lexicalAfter_of_forall (h : ∀ c ∈ a, ∀ before, Admits before c) :
    LexicalAfter before a := by
  intro front c back ha
  exact h c (by simp [ha]) _

theorem admits_of_isWordStart (h : isWordStart c = true) : Admits before c := by
  rw [isWordStart, Bool.or_eq_true, decide_eq_true_eq] at h
  rcases h with h | h
  · exact .inr (.inl h)
  · exact .inr (.inr (.inl h))

/-- A digit of a word stands behind another character of it. -/
theorem IsWord.lexicalAfter (h : IsWord a) : LexicalAfter before a := by
  intro front c back ha
  by_cases hstart : isWordStart c = true
  · exact admits_of_isWordStart hstart
  · have hpart : isWordPart c = true := h.forall_isWordPart c (by simp [ha])
    have hdigit : c.isDigit = true := by
      simp only [isWordStart, isWordPart, Char.isAlphanum, Bool.or_eq_true] at hstart hpart
      rcases hpart with (hpart | hpart) | hpart
      · exact absurd (.inl hpart) hstart
      · exact hpart
      · exact absurd (.inr hpart) hstart
    have hfront : front ≠ [] := by
      rintro rfl
      rw [ha, List.nil_append] at h
      exact hstart h.1
    refine .inr (.inr (.inr (.inr ⟨hdigit, front.getLast hfront, ?_, ?_⟩)))
    · rw [List.getLast?_append, List.getLast?_eq_some_getLast hfront]
      exact rfl
    · have hmem : front.getLast hfront ∈ a := by
        rw [ha]
        exact List.mem_append_left _ (List.getLast_mem hfront)
      exact h.forall_isWordPart _ hmem

end Text

/-! ### What a token holds -/

namespace Cut

variable {kind : Kind} {text rest before : Text}

theorem lexicalAfter (h : Cut kind text rest) : LexicalAfter before text := by
  cases h with
  | punctuation h =>
      refine lexicalAfter_of_forall fun d hd before => .inl ?_
      rw [List.mem_singleton.mp hd]
      rw [Kind.ofPunctuation?_eq_some_iff] at h
      rcases h with ⟨rfl, -⟩ | ⟨rfl, -⟩ | ⟨rfl, -⟩ | ⟨rfl, -⟩ | ⟨rfl, -⟩ | ⟨rfl, -⟩ | ⟨rfl, -⟩ <;>
        decide
  | quote h hrest =>
      refine lexicalAfter_of_forall fun d hd before => .inl ?_
      rw [List.mem_singleton.mp hd]
      rcases Kind.ofQuote?_eq_some_iff.mp h with ⟨rfl, -⟩ | ⟨rfl, -⟩ <;> decide
  | @quotePair c _ _ _ h =>
      refine lexicalAfter_of_forall fun d hd before => .inl ?_
      have hdc : d = c := by simpa using hd
      rw [hdc]
      rcases Kind.ofQuote?_eq_some_iff.mp h with ⟨rfl, -⟩ | ⟨rfl, -⟩ <;> decide
  | keyword hword hk hrest => exact hword.lexicalAfter
  | name hword hk hrest => exact hword.lexicalAfter
  | blank hne hrun hrest =>
      exact lexicalAfter_of_forall fun c hc before => .inr (.inr (.inr (.inl (hrun c hc))))
  | eof => exact lexicalAfter_of_forall fun c hc => absurd hc List.not_mem_nil

/-- Where a token ends with a character of a word, the word ends too. -/
theorem stops_of_getLast? (h : Cut kind text rest) {d : Char} (hd : d ∈ text.getLast?)
    (hpart : isWordPart d = true) : Stops isWordPart rest := by
  have hmem : d ∈ text := List.mem_of_getLast? hd
  cases h with
  | punctuation h =>
      rw [List.mem_singleton.mp hmem, (Kind.isBlank_isWordPart_of_ofPunctuation? h).2] at hpart
      cases hpart
  | quote h hrest =>
      rw [List.mem_singleton.mp hmem, (Kind.isBlank_isWordPart_of_ofQuote? h).2] at hpart
      cases hpart
  | @quotePair c _ _ _ h =>
      have hdc : d = c := by simpa using hmem
      rw [hdc, (Kind.isBlank_isWordPart_of_ofQuote? h).2] at hpart
      cases hpart
  | keyword hword hk hrest => exact hrest
  | name hword hk hrest => exact hrest
  | blank hne hrun hrest =>
      rw [isWordPart_eq_false_of_isBlank (hrun d hmem)] at hpart
      cases hpart
  | eof => exact stops_nil

end Cut

/-- A character that begins no token may not stand after a text, unless
it goes on with a word there. -/
theorem Lexeme.not_admits_of_first {before rest : Text} {c e : Char}
    (h : first (c :: rest) = .error e)
    (hseam : ∀ d ∈ before.getLast?, isWordPart d = true → Stops isWordPart (c :: rest)) :
    ¬Admits before c := by
  have hstart : isWordStart c = false := by
    cases hc : isWordStart c with
    | false => rfl
    | true => rw [first_word hc] at h; cases h
  rintro (hc | hc | hc | hc | ⟨hc, d, hd, hpart⟩)
  · have htoken : (Kind.ofPunctuation? c).isSome = true ∨ (Kind.ofQuote? c).isSome = true := by
      have hmarks : "$()=,:;\"'".toList = ['$', '(', ')', '=', ',', ':', ';', '"', '\x27'] := by
        decide
      rw [hmarks] at hc
      simp only [List.mem_cons, List.not_mem_nil, or_false] at hc
      rcases hc with rfl | rfl | rfl | rfl | rfl | rfl | rfl | rfl | rfl <;> decide
    rcases htoken with hmark | hquote
    · obtain ⟨kind, hkind⟩ := Option.isSome_iff_exists.mp hmark
      rw [first_punctuation hkind] at h
      cases h
    · obtain ⟨⟨alone, pair⟩, hkinds⟩ := Option.isSome_iff_exists.mp hquote
      rw [first_quote hkinds] at h
      cases h
  · rw [isWordStart, hc, Bool.true_or] at hstart
    cases hstart
  · rw [hc] at hstart
    cases hstart
  · rw [first_blank hc] at h
    cases h
  · have hstop := stops_cons.mp (hseam d hd hpart)
    rw [isWordPart, Char.isAlphanum, hc, Bool.or_true, Bool.true_or] at hstop
    cases hstop

/-! ### One token after another -/

inductive Tokens : Nat → Text → List Token → Prop
  | eof {line : Nat} : Tokens line [] [⟨line, .eof, []⟩]
  | cons {line : Nat} {kind : Kind} {text rest : Text} {tokens : List Token} (hk : kind ≠ .eof)
      (hcut : Cut kind text rest) (hrest : Tokens (line + lineBreaks text) rest tokens) :
      Tokens line (text ++ rest) (⟨line, kind, text⟩ :: tokens)

namespace Scan

variable {s t : Scanner} {token : Token} {e : SyntaxError}

/-- What is taken from a scanner that holds nothing is the first token of
its text. -/
theorem cut_of_next (hheld : s.held = none) (h : next s = .ok token t) :
    s.rest = token.text ++ t.rest ∧ Cut token.kind token.text t.rest ∧ token.line = s.line ∧
      t.line = s.line + lineBreaks token.text ∧ t.held = none := by
  rw [next, hheld] at h
  obtain ⟨hrest, hcut, hline, hnew, hsame⟩ := spec_of_cut h
  exact ⟨hrest, hcut, hline, hnew, hsame.trans hheld⟩

theorem first_of_next_error (hheld : s.held = none) (h : next s = .error e t) :
    ∃ c rest, s.rest = c :: rest ∧ Lexeme.first (c :: rest) = .error c ∧
      e = .unexpectedSymbol s.line c := by
  rw [next, hheld] at h
  change cut s = .error e t at h
  rw [cut] at h
  split at h
  · cases h
  · next c hc =>
      cases h
      obtain ⟨⟨rest, hrest⟩, -⟩ := Lexeme.exists_cons_of_first hc
      rw [hrest] at hc
      exact ⟨c, rest, hrest, hc, rfl⟩

/-- The tokens that are taken are those of the text. -/
theorem tokens_of_tokenize {tokens : List Token} (hheld : s.held = none)
    (h : tokenize s = .ok tokens t) : Tokens s.line s.rest tokens := by
  fun_induction tokenize s generalizing tokens with
  | case1 s e u hnext => cases h
  | case2 s token u hnext hend =>
      cases h
      obtain ⟨hrest, hcut, hline, -, -⟩ := cut_of_next hheld hnext
      obtain ⟨line, kind, text⟩ := token
      obtain ⟨rfl, hnil⟩ := Cut.eof_iff.mp (hend ▸ hcut)
      rw [hnil] at hrest
      cases hend
      cases hline
      rw [hrest]
      exact .eof
  | case3 s token u hnext hend hlt tokens v htokens ih =>
      cases h
      obtain ⟨hrest, hcut, hline, hnew, hnone⟩ := cut_of_next hheld hnext
      obtain ⟨line, kind, text⟩ := token
      cases hline
      rw [hrest]
      refine .cons hend hcut ?_
      rw [← hnew]
      exact ih hnone htokens
  | case4 s token u hnext hend hlt e v htokens ih => cases h

/-- A script that cannot be cut holds a character out of place, and all
before it is in place. What was taken already is in `before`; at no
point does a word go on there. -/
theorem unexpected_of_tokenize {before : Text} (hheld : s.held = none)
    (hseam : ∀ d ∈ before.getLast?, isWordPart d = true → Stops isWordPart s.rest)
    (h : tokenize s = .error e t) :
    ∃ front c back, s.rest = front ++ c :: back ∧ LexicalAfter before front ∧
      ¬Admits (before ++ front) c ∧ e = .unexpectedSymbol (s.line + lineBreaks front) c := by
  fun_induction tokenize s generalizing before with
  | case1 s e u hnext =>
      cases h
      obtain ⟨c, rest, hrest, hfirst, rfl⟩ := first_of_next_error hheld hnext
      rw [hrest] at hseam
      refine ⟨[], c, rest, hrest, lexicalAfter_of_forall fun c hc => absurd hc List.not_mem_nil,
        ?_, rfl⟩
      rw [List.append_nil]
      exact Lexeme.not_admits_of_first hfirst hseam
  | case2 s token u hnext hend => cases h
  | case3 s token u hnext hend hlt tokens v htokens ih => cases h
  | case4 s token u hnext hend hlt e' v htokens ih =>
      cases h
      obtain ⟨hrest, hcut, hline, hnew, hnone⟩ := cut_of_next hheld hnext
      -- No word goes on across the seam, as the token was cut off as far as its class goes.
      have hseam' : ∀ d ∈ (before ++ token.text).getLast?, isWordPart d = true →
          Stops isWordPart u.rest := by
        intro d hd hpart
        have hne := hcut.text_ne_nil hend
        rw [List.getLast?_append, List.getLast?_eq_some_getLast hne] at hd
        refine hcut.stops_of_getLast? ?_ hpart
        rw [List.getLast?_eq_some_getLast hne]
        exact hd
      obtain ⟨front, c, back, hu, hfront, hadmits, rfl⟩ := ih hnone hseam' htokens
      rw [hu] at hcut
      refine ⟨token.text ++ front, c, back, ?_, hcut.lexicalAfter.append hfront, ?_, ?_⟩
      · rw [hrest, hu, List.append_assoc]
      · rwa [← List.append_assoc]
      · rw [hnew, hcut.lineBreaks_append, Nat.add_assoc]

end Scan

/-! ### The tokens of a script -/

/-- A script cut into tokens, the lines of the tokens left aside: the
texts put together are the script, the end of input is the last token and
no other, and each token is cut off what it and the tokens after it
spell. -/
structure Tokenization (source : Text) (tokens : List Token) : Prop where
  spelled : tokens.flatMap Token.text = source
  ended : ∃ front last, tokens = front ++ [last] ∧ last.kind = .eof ∧ last.text = [] ∧
    ∀ token ∈ front, token.kind ≠ .eof ∧ token.text ≠ []
  cut : ∀ front token back, tokens = front ++ token :: back →
    Cut token.kind token.text (back.flatMap Token.text)

def Numbered (line : Nat) (tokens : List Token) : Prop :=
  ∀ front token back, tokens = front ++ token :: back →
    token.line = line + lineBreaks (front.flatMap Token.text)

namespace Tokens

variable {line : Nat} {text : Text} {tokens : List Token}

theorem lexicalAfter {before : Text} (h : Tokens line text tokens) : LexicalAfter before text := by
  induction h generalizing before with
  | eof => exact lexicalAfter_of_forall fun c hc => absurd hc List.not_mem_nil
  | cons hk hcut hrest ih => exact hcut.lexicalAfter.append ih

theorem tokenization (h : Tokens line text tokens) : Tokenization text tokens := by
  induction h with
  | eof =>
      refine ⟨rfl, ⟨[], _, rfl, rfl, rfl, fun token h => absurd h List.not_mem_nil⟩, ?_⟩
      intro front token back h
      obtain ⟨rfl, rfl, rfl⟩ : front = [] ∧ _ = token ∧ back = [] := by
        simpa [List.append_eq_singleton_iff, eq_comm] using h
      exact .eof
  | @cons line kind text rest tokens hk hcut hrest ih =>
      obtain ⟨hspelled, ⟨front, last, rfl, hkind, htext, hfront⟩, hcuts⟩ := ih
      refine ⟨?_, ⟨_ :: front, last, rfl, hkind, htext, ?_⟩, ?_⟩
      · rw [List.flatMap_cons, hspelled]
      · intro token htoken
        rcases List.mem_cons.mp htoken with rfl | htoken
        · exact ⟨hk, hcut.text_ne_nil hk⟩
        · exact hfront token htoken
      · intro before token after h
        cases before with
        | nil =>
            cases h
            rw [hspelled]
            exact hcut
        | cons first before =>
            rw [List.cons_append, List.cons.injEq] at h
            exact hcuts before token after h.2

theorem numbered (h : Tokens line text tokens) : Numbered line tokens := by
  induction h with
  | eof =>
      intro front token back h
      obtain ⟨rfl, rfl, rfl⟩ : front = [] ∧ _ = token ∧ back = [] := by
        simpa [List.append_eq_singleton_iff, eq_comm] using h
      rfl
  | @cons line kind text rest tokens hk hcut hrest ih =>
      intro front token back h
      cases front with
      | nil => cases h; rfl
      | cons first front =>
          rw [List.cons_append, List.cons.injEq] at h
          obtain ⟨rfl, htokens⟩ := h
          have hspelled := hrest.tokenization.spelled
          rw [htokens, List.flatMap_append] at hspelled
          rw [← hspelled] at hcut
          rw [ih front token back htokens, List.flatMap_cons, hcut.lineBreaks_append,
            Nat.add_assoc]

end Tokens

namespace Tokenization

variable {source : Text} {token : Token} {tokens others : List Token}

theorem eq_nil_of_eof (h : Tokenization source (token :: tokens)) (hk : token.kind = .eof) :
    tokens = [] := by
  obtain ⟨front, last, htokens, -, -, hfront⟩ := h.ended
  cases front with
  | nil => exact (List.cons.inj htokens).2
  | cons first front =>
      obtain ⟨rfl, -⟩ := List.cons.inj htokens
      exact absurd hk (hfront token List.mem_cons_self).1

theorem tail (h : Tokenization source (token :: tokens)) (hk : token.kind ≠ .eof) :
    Tokenization (tokens.flatMap Token.text) tokens := by
  obtain ⟨front, last, htokens, hkind, htext, hfront⟩ := h.ended
  refine ⟨rfl, ?_, ?_⟩
  · cases front with
    | nil =>
        obtain ⟨rfl, -⟩ := List.cons.inj htokens
        exact absurd hkind hk
    | cons first front =>
        exact ⟨front, last, (List.cons.inj htokens).2, hkind, htext,
          fun t ht => hfront t (List.mem_cons_of_mem _ ht)⟩
  · intro before t after ht
    exact h.cut (token :: before) t after (by rw [ht, List.cons_append])

theorem ne_nil (h : Tokenization source tokens) : tokens ≠ [] := by
  obtain ⟨front, last, rfl, -⟩ := h.ended
  simp

/-- A script is cut into tokens in one way only. -/
theorem unique (h : Tokenization source tokens) (h' : Tokenization source others) :
    tokens.map (fun t => (t.kind, t.text)) = others.map (fun t => (t.kind, t.text)) := by
  induction tokens generalizing source others with
  | nil => exact absurd rfl h.ne_nil
  | cons token tokens ih =>
      obtain ⟨other, others, rfl⟩ := List.exists_cons_of_ne_nil h'.ne_nil
      have hcut := h.cut [] token tokens rfl
      have hcut' := h'.cut [] other others rfl
      have hsame : token.text ++ tokens.flatMap Token.text =
          other.text ++ others.flatMap Token.text := by
        rw [← List.flatMap_cons, ← List.flatMap_cons, h.spelled, h'.spelled]
      obtain ⟨hkind, htext, hrest⟩ := hcut.unique hcut' hsame
      rw [List.map_cons, List.map_cons, hkind, htext]
      -- The end of input is the last token of both, and any other leaves the same rest to both.
      by_cases hk : token.kind = .eof
      · rw [h.eq_nil_of_eof hk, h'.eq_nil_of_eof (hkind ▸ hk)]
      · have htail := h'.tail (hkind ▸ hk)
        rw [← hrest] at htail
        rw [ih (h.tail hk) htail]

end Tokenization

/-- A script can be cut into tokens exactly if every character may stand
where it stands. Its tokens are then the only ones, each on its line; and
otherwise the first character out of place is reported, on the line that
the breaks before it lead to. -/
theorem tokenize_exact (source : Text) :
    ((∃ tokens s, Scan.tokenize (.ofText source) = .ok tokens s) ↔ Lexical source) ∧
      match Scan.tokenize (.ofText source) with
      | .ok tokens _ =>
          Tokenization source tokens ∧ Numbered 1 tokens ∧
            ∀ others, Tokenization source others →
              others.map (fun t => (t.kind, t.text)) = tokens.map (fun t => (t.kind, t.text))
      | .error e _ =>
          ∃ front c back, source = front ++ c :: back ∧ Lexical front ∧ ¬Admits front c ∧
            e = .unexpectedSymbol (1 + lineBreaks front) c ∧
              e.diagnostic = .lexical (1 + lineBreaks front)
                ("unexpected symbol ".toList ++ Text.Quoted.ofChar c) := by
  cases h : Scan.tokenize (.ofText source) with
  | ok tokens s =>
      have htokens : Tokens 1 source tokens := Scan.tokens_of_tokenize rfl h
      refine ⟨⟨fun _ => lexicalAfter_nil_iff.mp htokens.lexicalAfter, fun _ => ⟨tokens, s, rfl⟩⟩,
        htokens.tokenization, htokens.numbered, ?_⟩
      intro others hothers
      exact hothers.unique htokens.tokenization
  | error e s =>
      have hseam : ∀ d ∈ ([] : Text).getLast?, isWordPart d = true → Stops isWordPart source := by
        simp
      obtain ⟨front, c, back, hsource, hfront, hadmits, rfl⟩ :=
        Scan.unexpected_of_tokenize rfl hseam h
      refine ⟨⟨?_, ?_⟩, front, c, back, hsource, lexicalAfter_nil_iff.mp hfront, hadmits, rfl, rfl⟩
      · rintro ⟨tokens, t, htokens⟩
        cases htokens
      · intro hlexical
        exact absurd (hlexical front c back hsource) hadmits

end StoredProc
