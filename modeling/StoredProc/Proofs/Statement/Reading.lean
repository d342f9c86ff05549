import StoredProc.Proofs.Grammar
import StoredProc.Proofs.Scanner.Reading
import StoredProc.Statement.Parse

/-!
Each form of a statement reads what the grammar says of it. The parts of
a form come first: a token of a kind is a word, a mark or layout, and a
literal is read raw. A form is then the composition of its parts, and
what is left to show is that the composition is the rule of the grammar.

Between two words the grammar asks for layout and reading only allows
for it. The two agree because a word that is not followed by layout would
go on.
-/

namespace StoredProc

open Text Grammar Scan Statement.Parse

/-! ### What may follow -/

def Lexes (text : Text) : Prop := ∃ kind, Next text kind

/-- The text begins with a token that is no quote. Where a literal has
just ended, it has ended there for reading as well. -/
def Opens (text : Text) : Prop := ∃ kind, Next text kind ∧ kind.isQuote = false

theorem Opens.lexes {text : Text} (h : Opens text) : Lexes text := by
  obtain ⟨kind, hnext, -⟩ := h
  exact ⟨kind, hnext⟩

theorem Lexeme.isQuote_ofQuote {c : Char} {alone pair : Kind}
    (h : Kind.ofQuote? c = some (alone, pair)) (rest : Text) :
    (Lexeme.ofQuote alone pair c rest).kind.isQuote = true := by
  have hquotes : alone.isQuote = true ∧ pair.isQuote = true := by
    rcases Kind.ofQuote?_eq_some_iff.mp h with ⟨-, rfl, rfl⟩ | ⟨-, rfl, rfl⟩ <;> decide
  unfold Lexeme.ofQuote
  split
  · split
    · exact hquotes.2
    · exact hquotes.1
  · exact hquotes.1

/-- A quote that opens what follows would have to begin a literal. -/
theorem Opens.stops {text : Text} (h : Opens text) {c : Char} {alone pair : Kind}
    (hc : Kind.ofQuote? c = some (alone, pair)) : Stops (· == c) text := by
  obtain ⟨kind, hnext, hkind⟩ := h
  cases text with
  | nil => exact stops_nil
  | cons d text =>
      rw [stops_cons]
      cases hd : d == c with
      | false => rfl
      | true =>
          obtain rfl : d = c := eq_of_beq hd
          have hquote : Next (d :: text) (Lexeme.ofQuote alone pair d text).kind :=
            ⟨_, _, (Lexeme.text_append_rest_ofQuote alone pair d text).symm,
              Lexeme.cut_ofQuote hc⟩
          rw [hnext.unique hquote, Lexeme.isQuote_ofQuote hc] at hkind
          cases hkind

section

variable {last : Nat} {after : Text → Prop}

/-! ### Tokens -/

theorem Statement.Parse.reads_keyword (k : Keyword) :
    Reads last Opens after (expect (.keyword k)) fun text token rest =>
      ∃ word, WordAt word text rest ∧ word.toUpper = k.spelling ∧
        token = ⟨lineAt last text, .keyword k, word⟩ := by
  refine (reads_expect fun text h => ⟨_, h, rfl⟩).congr ?_ ?_
  · rintro text ⟨line, kind, word⟩ rest ⟨⟨htext, hcut, hline⟩, hkind⟩
    cases hkind
    cases hline
    obtain ⟨hword, hk, hrest⟩ := Cut.keyword_iff.mp hcut
    exact ⟨word, ⟨htext, hword, hrest⟩, hk, rfl⟩
  · rintro text token rest ⟨word, ⟨htext, hword, hrest⟩, hk, rfl⟩ -
    exact ⟨⟨htext, Cut.keyword_iff.mpr ⟨hword, hk, hrest⟩, rfl⟩, rfl⟩

theorem Statement.Parse.reads_name :
    Reads last Opens after (expect .name) fun text token rest =>
      ∃ name, NameAt name text rest ∧ token = ⟨lineAt last text, .name, name⟩ := by
  refine (reads_expect fun text h => ⟨_, h, rfl⟩).congr ?_ ?_
  · rintro text ⟨line, kind, word⟩ rest ⟨⟨htext, hcut, hline⟩, hkind⟩
    cases hkind
    cases hline
    obtain ⟨hword, hk, hrest⟩ := Cut.name_iff.mp hcut
    exact ⟨word, ⟨⟨htext, hword, hrest⟩, hk⟩, rfl⟩
  · rintro text token rest ⟨name, ⟨⟨htext, hword, hrest⟩, hk⟩, rfl⟩ -
    exact ⟨⟨htext, Cut.name_iff.mpr ⟨hword, hk, hrest⟩, rfl⟩, rfl⟩

theorem Statement.Parse.reads_mark (c : Char) {kind : Kind}
    (hc : Kind.ofPunctuation? c = some kind) :
    Reads last Opens after (expect kind) fun text token rest =>
      text = c :: rest ∧ token = ⟨lineAt last text, kind, [c]⟩ := by
  have hopens : ∀ text, Next text kind → Opens text := by
    intro text h
    refine ⟨kind, h, ?_⟩
    rw [Kind.ofPunctuation?_eq_some_iff] at hc
    grind [Kind.isQuote]
  refine (reads_expect hopens).congr ?_ ?_
  · rintro text ⟨line, kind, mark⟩ rest ⟨⟨htext, hcut, hline⟩, hkind⟩
    cases hkind
    cases hline
    cases (Cut.mark_iff hc).mp hcut
    exact ⟨htext, rfl⟩
  · rintro text token rest ⟨htext, rfl⟩ -
    exact ⟨⟨htext, .punctuation hc, rfl⟩, rfl⟩

theorem Statement.Parse.reads_blank {before : Text → Prop}
    (hbefore : ∀ text, Next text .blank → before text) :
    Reads last before after (expect .blank) fun text token rest =>
      ∃ run, text = run ++ rest ∧ run ≠ [] ∧ IsLayout run ∧ Stops isBlank rest ∧
        token = ⟨lineAt last text, .blank, run⟩ := by
  refine (reads_expect hbefore).congr ?_ ?_
  · rintro text ⟨line, kind, run⟩ rest ⟨⟨htext, hcut, hline⟩, hkind⟩
    cases hkind
    cases hline
    obtain ⟨hne, hrun, hrest⟩ := Cut.blank_iff.mp hcut
    exact ⟨run, htext, hne, hrun, hrest, rfl⟩
  · rintro text token rest ⟨run, htext, hne, hrun, hrest, rfl⟩ -
    exact ⟨⟨htext, Cut.blank_iff.mpr ⟨hne, hrun, hrest⟩, rfl⟩, rfl⟩

/-! ### Layout -/

theorem Grammar.gapAt_iff {text rest : Text} :
    GapAt text rest ↔ BlanksAt text rest ∨ (rest = text ∧ Stops isBlank text) := by
  constructor
  · rintro ⟨run, htext, hrun, hrest⟩
    by_cases hne : run = []
    · subst hne
      cases htext
      exact .inr ⟨rfl, hrest⟩
    · exact .inl ⟨run, htext, hne, hrun, hrest⟩
  · rintro (⟨run, htext, hne, hrun, hrest⟩ | ⟨rfl, hrest⟩)
    · exact ⟨run, htext, hrun, hrest⟩
    · exact ⟨[], rfl, fun c hc => absurd hc List.not_mem_nil, hrest⟩

/-- A text that begins with a token other than layout begins with no
blank. -/
theorem Next.stops_isBlank {text : Text} {kind : Kind} (h : Next text kind) (hk : kind ≠ .blank) :
    Stops isBlank text := by
  obtain ⟨token, rest, rfl, hcut⟩ := h
  have htoken : Stops isBlank token := stops_of_forall (hcut.isBlank_eq_false hk)
  by_cases hne : token = []
  · subst hne
    by_cases hend : kind = .eof
    · subst hend
      rw [(Cut.eof_iff.mp hcut).2]
      exact stops_nil
    · exact absurd rfl (hcut.text_ne_nil hend)
  · exact stops_append_of_ne_nil htoken hne

theorem next_blank_iff {text : Text} : Next text .blank ↔ ∃ rest, BlanksAt text rest := by
  constructor
  · rintro ⟨run, rest, htext, hcut⟩
    exact ⟨rest, run, htext, Cut.blank_iff.mp hcut⟩
  · rintro ⟨rest, run, htext, hcut⟩
    exact ⟨run, rest, htext, Cut.blank_iff.mpr hcut⟩

theorem Next.ne_blank {text : Text} {kind : Kind} (h : Next text kind)
    (hstop : Stops isBlank text) : kind ≠ .blank := by
  rintro rfl
  obtain ⟨rest, run, rfl, hne, hrun, -⟩ := next_blank_iff.mp h
  obtain ⟨c, run, rfl⟩ := List.exists_cons_of_ne_nil hne
  rw [List.cons_append, stops_cons, hrun c List.mem_cons_self] at hstop
  cases hstop

/-- Skipping looks at the next token whether or not there is layout, so
there has to be one. -/
theorem Statement.Parse.reads_skipBlank {within : Text → Prop}
    (hlexes : ∀ text, within text → Lexes text)
    (hblank : ∀ text, Next text .blank → within text) :
    Reads last within within skipBlank fun text _ rest => GapAt text rest := by
  refine (reads_peekKind.bind (S := fun kind text _ rest =>
    if kind = .blank then BlanksAt text rest else rest = text) fun kind => ?_).congr ?_ ?_
  · split
    · refine ((reads_blank hblank).bind fun _ => reads_pure ()).congr ?_ ?_
      · rintro text _ rest ⟨token, mid, ⟨run, htext, hne, hrun, hrest, rfl⟩, -, rfl⟩
        exact ⟨run, htext, hne, hrun, hrest⟩
      · rintro text ⟨⟩ rest ⟨run, htext, hne, hrun, hrest⟩ -
        exact ⟨_, rest, ⟨run, htext, hne, hrun, hrest, rfl⟩, rfl, rfl⟩
    · refine (reads_pure ()).congr ?_ ?_
      · rintro text _ rest ⟨-, rfl⟩
        rfl
      · rintro text ⟨⟩ rest rfl -
        exact ⟨rfl, rfl⟩
  · rintro text _ rest ⟨kind, mid, ⟨rfl, hnext⟩, h⟩
    split at h
    · exact gapAt_iff.mpr (.inl h)
    · next hk =>
        subst h
        exact gapAt_iff.mpr (.inr ⟨rfl, hnext.stops_isBlank hk⟩)
  · rintro text ⟨⟩ rest h hrest
    -- Where nothing is skipped, the next token is looked at all the same.
    rcases gapAt_iff.mp h with h | ⟨rfl, hstop⟩
    · exact ⟨.blank, text, ⟨rfl, next_blank_iff.mpr ⟨rest, h⟩⟩, by rwa [if_pos rfl]⟩
    · obtain ⟨kind, hnext⟩ := hlexes rest hrest
      exact ⟨kind, rest, ⟨rfl, hnext⟩, by rw [if_neg (hnext.ne_blank hstop)]⟩

theorem Statement.Parse.reads_gap :
    Reads last Opens Opens skipBlank fun text _ rest => GapAt text rest :=
  reads_skipBlank (fun _ h => h.lexes) fun _ h => ⟨_, h, rfl⟩

/-- Before a literal the next token may be a quote. -/
theorem Statement.Parse.reads_gapLexes :
    Reads last Lexes Lexes skipBlank fun text _ rest => GapAt text rest :=
  reads_skipBlank (fun _ h => h) fun _ h => ⟨_, h⟩

/-- Between two words there is layout, or the first would go on. -/
theorem Grammar.GapAt.blanksAt {word word' text t₁ t₂ rest : Text} (h : GapAt t₁ t₂)
    (hword : WordAt word text t₁) (hword' : WordAt word' t₂ rest) : BlanksAt t₁ t₂ := by
  obtain ⟨run, htext, hrun, hrest⟩ := h
  refine ⟨run, htext, ?_, hrun, hrest⟩
  -- An empty gap would leave the two words side by side.
  rintro rfl
  have hstop := hword.stops
  obtain ⟨c, tail, rfl, hc⟩ := hword'.isWord.exists_cons
  rw [htext, hword'.text_eq, List.nil_append, List.cons_append, stops_cons,
    isWordPart_of_isWordStart hc] at hstop
  cases hstop

theorem Grammar.BlanksAt.gapAt {text rest : Text} (h : BlanksAt text rest) : GapAt text rest :=
  gapAt_iff.mpr (.inl h)

/-! ### Literals -/

/-- The opening quote and the raw text belong together. -/
theorem Statement.Parse.quoted_eq (mark : Kind) (delimiter : Char) :
    quoted mark delimiter =
      (do let found ← expectRaw mark delimiter; let _ ← expect mark; return found.2) := by
  simp only [quoted, expectRaw, bind_assoc, pure_bind]

theorem Statement.Parse.reads_quoted {c : Char} {alone pair : Kind}
    (hc : Kind.ofQuote? c = some (alone, pair)) :
    Reads last Lexes Opens (quoted alone c) fun text literal rest =>
      text = c :: literal ++ c :: rest ∧ c ∉ literal ∧ literal ≠ [] := by
  have hd : isBreak c = false :=
    isBreak_eq_false_of_isBlank_eq_false (Kind.isBlank_isWordPart_of_ofQuote? hc).1
  have hlexes : ∀ text, Next text alone → Lexes text := fun text h => ⟨alone, h⟩
  rw [quoted_eq]
  refine ((reads_expectRaw hd hlexes).bind fun found =>
    (reads_expect hlexes).bind fun _ => reads_pure found.2).congr ?_ ?_
  · rintro text literal rest ⟨⟨⟨line, kind, mark⟩, raw⟩, mid,
      ⟨tail, ⟨rfl, hcut, -⟩, hkind, hraw, rfl⟩,
      ⟨line', kind', mark'⟩, _, ⟨⟨htext', hcut', -⟩, hkind'⟩, rfl, rfl⟩
    cases hkind
    cases hkind'
    obtain ⟨rfl, hstop⟩ := (Cut.quote_iff hc).mp hcut
    obtain ⟨rfl, -⟩ := (Cut.quote_iff hc).mp hcut'
    obtain ⟨-, rfl⟩ := List.cons.inj htext'
    -- The opening quote stands alone, so the closing one is not next to it.
    refine ⟨rfl, hraw, ?_⟩
    rintro rfl
    simp at hstop
  · rintro text literal rest ⟨rfl, hmem, hne⟩ hrest
    obtain ⟨d, tail, rfl⟩ := List.exists_cons_of_ne_nil hne
    have hdc : (d == c) = false := by
      rw [beq_eq_false_iff_ne]
      rintro rfl
      exact hmem List.mem_cons_self
    refine ⟨(⟨_, alone, [c]⟩, d :: tail), c :: rest,
      ⟨rest, ⟨rfl, .quote hc (stops_cons.mpr hdc), rfl⟩, rfl, hmem, rfl⟩,
      ⟨_, alone, [c]⟩, rest, ⟨⟨rfl, .quote hc (hrest.stops hc), rfl⟩, rfl⟩, rfl, rfl⟩

theorem Statement.Parse.reads_quotePair {c : Char} {alone pair : Kind}
    (hc : Kind.ofQuote? c = some (alone, pair)) :
    Reads last Lexes after (do let _ ← expect pair; return []) fun text (literal : Text) rest =>
      text = c :: c :: rest ∧ literal = [] := by
  have hlexes : ∀ text, Next text pair → Lexes text := fun text h => ⟨pair, h⟩
  refine ((reads_expect hlexes).bind fun _ => reads_pure []).congr ?_ ?_
  · rintro text literal rest ⟨⟨line, kind, mark⟩, mid, ⟨⟨rfl, hcut, -⟩, hkind⟩, rfl, rfl⟩
    cases hkind
    rw [(Cut.quotePair_iff hc).mp hcut]
    exact ⟨rfl, rfl⟩
  · rintro text literal rest ⟨rfl, rfl⟩ -
    exact ⟨⟨_, pair, [c, c]⟩, rest, ⟨⟨rfl, .quotePair hc, rfl⟩, rfl⟩, rfl, rfl⟩

theorem Statement.Parse.reads_unexpected {α : Type} {before : Text → Prop}
    (expected : Expectation) :
    Reads last before after (unexpected expected : Scan α) fun _ _ _ => False := by
  apply reads_false
  intro s a t h
  obtain ⟨token, u, -, h⟩ := bind_eq_ok h
  cases h

/-- What the grammar has of literals, by the token that a literal begins
with. -/
def LiteralOf (text literal rest : Text) : Kind → Prop
  | .quotePair => text = '"' :: '"' :: rest ∧ literal = []
  | .apostrophePair => text = '\x27' :: '\x27' :: rest ∧ literal = []
  | .quote => text = '"' :: literal ++ '"' :: rest ∧ '"' ∉ literal ∧ literal ≠ []
  | .apostrophe => text = '\x27' :: literal ++ '\x27' :: rest ∧ '\x27' ∉ literal ∧ literal ≠ []
  | _ => False

/-- A literal that is empty is one token, and any other begins with a
quote that stands alone. -/
theorem Grammar.StringAt.literalOf {text literal rest : Text} (h : StringAt literal text rest) :
    ∃ kind, Next text kind ∧ LiteralOf text literal rest kind := by
  have hnext {c : Char} {alone pair : Kind} (hc : Kind.ofQuote? c = some (alone, pair))
      (hmem : c ∉ literal) (hne : literal ≠ []) : Next (c :: literal ++ c :: rest) alone := by
    obtain ⟨d, tail, rfl⟩ := List.exists_cons_of_ne_nil hne
    refine ⟨[c], d :: tail ++ c :: rest, rfl, .quote hc ?_⟩
    rw [List.cons_append, stops_cons, beq_eq_false_iff_ne]
    rintro rfl
    exact hmem List.mem_cons_self
  by_cases hne : literal = []
  · subst hne
    cases h with
    | double h => exact ⟨.quotePair, ⟨_, rest, rfl, .quotePair (c := '"') rfl⟩, rfl, rfl⟩
    | single h => exact ⟨.apostrophePair, ⟨_, rest, rfl, .quotePair (c := '\x27') rfl⟩, rfl, rfl⟩
  · cases h with
    | double h => exact ⟨.quote, hnext rfl h hne, rfl, h, hne⟩
    | single h => exact ⟨.apostrophe, hnext rfl h hne, rfl, h, hne⟩

theorem LiteralOf.stringAt {text literal rest : Text} {kind : Kind}
    (h : LiteralOf text literal rest kind) : StringAt literal text rest := by
  cases kind with
  | quotePair =>
      obtain ⟨rfl, rfl⟩ := h
      exact .double List.not_mem_nil
  | apostrophePair =>
      obtain ⟨rfl, rfl⟩ := h
      exact .single List.not_mem_nil
  | quote =>
      obtain ⟨rfl, hmem, -⟩ := h
      exact .double hmem
  | apostrophe =>
      obtain ⟨rfl, hmem, -⟩ := h
      exact .single hmem
  | _ => exact h.elim

theorem Statement.Parse.reads_literal :
    Reads last Lexes Opens literal fun text literal rest =>
      StringAt literal text rest := by
  refine (reads_peekKind.bind (S := fun kind text literal rest =>
    LiteralOf text literal rest kind) fun kind => ?_).congr ?_ ?_
  · cases kind with
    | quotePair => exact reads_quotePair rfl
    | apostrophePair => exact reads_quotePair rfl
    | quote => exact reads_quoted rfl
    | apostrophe => exact reads_quoted rfl
    | _ => exact reads_unexpected _
  · rintro text literal rest ⟨kind, mid, ⟨rfl, -⟩, h⟩
    exact h.stringAt
  · rintro text literal rest h -
    obtain ⟨kind, hnext, h⟩ := h.literalOf
    exact ⟨kind, text, ⟨rfl, hnext⟩, h⟩

/-! ### Types and directions -/

theorem ValueType.ofWord?_eq_some {word : Text} {type : ValueType}
    (h : word.toUpper = type.keyword.spelling) : ValueType.ofWord? word = some type := by
  rw [ofWord?, ← toLower_toUpper, h]
  cases type <;> decide

theorem Direction.ofWord?_eq_some {word : Text} {direction : Direction}
    (h : word.toUpper = direction.keyword.spelling) :
    Direction.ofWord? word = some direction := by
  rw [ofWord?, ← toLower_toUpper, h]
  cases direction <;> decide

theorem Kind.isType_iff {kind : Kind} :
    kind.isType = true ↔ ∃ type : ValueType, kind = .keyword type.keyword := by
  constructor
  · intro h
    unfold isType at h
    split at h
    · exact ⟨.integer, rfl⟩
    · exact ⟨.char, rfl⟩
    · cases h
  · rintro ⟨type, rfl⟩
    cases type <;> rfl

theorem Kind.isDirection_iff {kind : Kind} :
    kind.isDirection = true ↔ ∃ direction : Direction, kind = .keyword direction.keyword := by
  constructor
  · intro h
    unfold isDirection at h
    split at h
    · exact ⟨.input, rfl⟩
    · exact ⟨.output, rfl⟩
    · cases h
  · rintro ⟨direction, rfl⟩
    cases direction <;> rfl

theorem Grammar.KeywordAt.next {k : Keyword} {text rest : Text} (h : KeywordAt k text rest) :
    Next text (.keyword k) := by
  obtain ⟨word, ⟨htext, hword, hrest⟩, hk⟩ := h
  exact ⟨word, rest, htext, Cut.keyword_iff.mpr ⟨hword, hk, hrest⟩⟩

/-- A keyword that stands for a value is looked up twice, as a token and
as a word. The second look finds what the first did. -/
theorem Statement.Parse.reads_choice {α : Type} {test : Kind → Bool} {keyword : α → Keyword}
    {value : Token → Scan α} {expected : Expectation}
    (htest : ∀ kind, test kind = true ↔ ∃ a, kind = .keyword (keyword a))
    (hkeyword : ∀ {a b}, keyword a = keyword b → a = b)
    (hvalue : ∀ {token a}, token.text.toUpper = (keyword a).spelling → value token = pure a) :
    Reads last Opens after
      (do
        let kind ← peekKind
        if test kind then
          let token ← expect kind
          value token
        else unexpected expected)
      fun text a rest => KeywordAt (keyword a) text rest := by
  refine (reads_peekKind.bind (S := fun kind text a rest =>
    kind = .keyword (keyword a) ∧ KeywordAt (keyword a) text rest) fun kind => ?_).congr ?_ ?_
  · split
    · next hkind =>
        obtain ⟨a, rfl⟩ := (htest kind).mp hkind
        have hpure {text : Text} {token : Token} {rest : Text}
            (h : ∃ word, WordAt word text rest ∧ word.toUpper = (keyword a).spelling ∧
              token = ⟨lineAt last text, .keyword (keyword a), word⟩) :
            Reads last after after (value token) fun text b rest => b = a ∧ rest = text := by
          obtain ⟨word, -, hk, rfl⟩ := h
          rw [hvalue hk]
          exact reads_pure a
        refine ((reads_keyword (keyword a)).bind_of_mem hpure).congr ?_ ?_
        · rintro text b rest ⟨token, mid, ⟨word, hword, hk, rfl⟩, rfl, rfl⟩
          exact ⟨rfl, word, hword, hk⟩
        · rintro text b rest ⟨heq, word, hword, hk⟩ -
          obtain rfl : a = b := hkeyword (Kind.keyword.inj heq)
          exact ⟨_, rest, ⟨word, hword, hk, rfl⟩, rfl, rfl⟩
    · next hkind =>
        refine (reads_unexpected expected).congr ?_ ?_
        · intro text b rest h
          exact h.elim
        · rintro text b rest ⟨rfl, -⟩ -
          exact hkind ((htest _).mpr ⟨b, rfl⟩)
  · rintro text a rest ⟨kind, mid, ⟨rfl, -⟩, -, h⟩
    exact h
  · rintro text a rest h -
    exact ⟨_, text, ⟨rfl, h.next⟩, rfl, h⟩

theorem Statement.Parse.reads_valueType :
    Reads last Opens after valueType fun text type rest => KeywordAt type.keyword text rest := by
  refine reads_choice (fun _ => Kind.isType_iff) ?_ ?_
  · intro a b h
    cases a <;> cases b <;> first | rfl | cases h
  · intro token type h
    simp only [ValueType.ofWord?_eq_some h]

theorem Statement.Parse.reads_direction :
    Reads last Opens after direction fun text direction rest =>
      KeywordAt direction.keyword text rest := by
  refine reads_choice (fun _ => Kind.isDirection_iff) ?_ ?_
  · intro a b h
    cases a <;> cases b <;> first | rfl | cases h
  · intro token direction h
    simp only [Direction.ofWord?_eq_some h]

end

end StoredProc
