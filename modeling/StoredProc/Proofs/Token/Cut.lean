import StoredProc.Proofs.Text.Lines
import StoredProc.Token.Lexeme

/-!
What it means to be the first token of a text. `Cut kind text rest` says
that `text`, in front of `rest`, is a token of the kind, and says it for
each class of tokens by itself, without going through the characters one
by one. Words and blanks are as long as they can be, and a quote stands
alone only where no second one follows.

`Lexeme.first` finds this token whenever there is one. Since it is a
function, no text has two first tokens.
-/

namespace StoredProc

/-! ### The tables -/

namespace Keyword

/-- A word is looked up by its upper-case spelling. -/
theorem ofWord?_eq_some_iff {word : Text} {k : Keyword} :
    ofWord? word = some k ↔ word.toUpper = k.spelling := by
  constructor
  · intro h
    have hfound := List.find?_some h
    exact (of_decide_eq_true hfound).symm
  · intro h
    rw [ofWord?, h]
    cases k <;> decide

theorem ofWord?_eq_none_iff {word : Text} :
    ofWord? word = none ↔ ∀ k : Keyword, word.toUpper ≠ k.spelling := by
  constructor
  · intro h k hk
    rw [ofWord?_eq_some_iff.mpr hk] at h
    cases h
  · intro h
    cases hword : ofWord? word with
    | none => rfl
    | some k => exact absurd (ofWord?_eq_some_iff.mp hword) (h k)

end Keyword

namespace Kind

def isQuote : Kind → Bool
  | quote | quotePair | apostrophe | apostrophePair => true
  | _ => false

variable {c d : Char} {kind alone pair : Kind}

theorem ofPunctuation?_eq_some_iff :
    ofPunctuation? c = some kind ↔
      (c = '$' ∧ kind = dollar) ∨ (c = '(' ∧ kind = leftParen) ∨ (c = ')' ∧ kind = rightParen) ∨
        (c = '=' ∧ kind = equal) ∨ (c = ',' ∧ kind = comma) ∨ (c = ':' ∧ kind = colon) ∨
          (c = ';' ∧ kind = semicolon) := by
  constructor
  · intro h
    unfold ofPunctuation? at h
    split at h <;> simp_all
  · rintro (⟨rfl, rfl⟩ | ⟨rfl, rfl⟩ | ⟨rfl, rfl⟩ | ⟨rfl, rfl⟩ | ⟨rfl, rfl⟩ | ⟨rfl, rfl⟩ |
      ⟨rfl, rfl⟩) <;> rfl

theorem ofQuote?_eq_some_iff :
    ofQuote? c = some (alone, pair) ↔
      (c = '"' ∧ alone = quote ∧ pair = quotePair) ∨
        (c = '\x27' ∧ alone = apostrophe ∧ pair = apostrophePair) := by
  constructor
  · intro h
    unfold ofQuote? at h
    split at h <;> simp_all
  · rintro (⟨rfl, rfl, rfl⟩ | ⟨rfl, rfl, rfl⟩) <;> rfl

theorem ofPunctuation?_inj (hc : ofPunctuation? c = some kind)
    (hd : ofPunctuation? d = some kind) : c = d := by
  rw [ofPunctuation?_eq_some_iff] at hc hd
  grind

/-- No mark belongs to a word or to layout. -/
theorem isBlank_isWordPart_of_ofPunctuation? (h : ofPunctuation? c = some kind) :
    Text.isBlank c = false ∧ Text.isWordPart c = false := by
  rw [ofPunctuation?_eq_some_iff] at h
  rcases h with ⟨rfl, -⟩ | ⟨rfl, -⟩ | ⟨rfl, -⟩ | ⟨rfl, -⟩ | ⟨rfl, -⟩ | ⟨rfl, -⟩ | ⟨rfl, -⟩ <;>
    decide

/-- Nor does a quote. -/
theorem isBlank_isWordPart_of_ofQuote? (h : ofQuote? c = some (alone, pair)) :
    Text.isBlank c = false ∧ Text.isWordPart c = false := by
  rcases ofQuote?_eq_some_iff.mp h with ⟨rfl, -⟩ | ⟨rfl, -⟩ <;> decide

/-- A character of a word or of layout begins no other token. -/
theorem ofPunctuation?_ofQuote?_eq_none (h : Text.isWordPart c = true ∨ Text.isBlank c = true) :
    ofPunctuation? c = none ∧ ofQuote? c = none := by
  constructor
  · cases hc : ofPunctuation? c with
    | none => rfl
    | some kind =>
        obtain ⟨hblank, hpart⟩ := isBlank_isWordPart_of_ofPunctuation? hc
        rw [hblank, hpart] at h
        simp at h
  · cases hc : ofQuote? c with
    | none => rfl
    | some kinds =>
        obtain ⟨hblank, hpart⟩ := isBlank_isWordPart_of_ofQuote? hc
        rw [hblank, hpart] at h
        simp at h

/-- The characters that would belong to a token of the kind if they stood
behind it. Nothing stands behind the end of the text. -/
def goesOn : Kind → Char → Bool
  | keyword _ => Text.isWordPart
  | name => Text.isWordPart
  | blank => Text.isBlank
  | quote => (· == '"')
  | apostrophe => (· == '\x27')
  | eof => fun _ => true
  | _ => fun _ => false

theorem goesOn_of_ofPunctuation? (h : ofPunctuation? c = some kind) :
    kind.goesOn = fun _ => false := by
  rw [ofPunctuation?_eq_some_iff] at h
  rcases h with ⟨-, rfl⟩ | ⟨-, rfl⟩ | ⟨-, rfl⟩ | ⟨-, rfl⟩ | ⟨-, rfl⟩ | ⟨-, rfl⟩ | ⟨-, rfl⟩ <;> rfl

theorem goesOn_of_ofQuote? (h : ofQuote? c = some (alone, pair)) :
    alone.goesOn = (· == c) ∧ pair.goesOn = fun _ => false := by
  rcases ofQuote?_eq_some_iff.mp h with ⟨rfl, rfl, rfl⟩ | ⟨rfl, rfl, rfl⟩ <;> exact ⟨rfl, rfl⟩

end Kind

open Text

/-- In front of `rest`, `text` is a token of the kind. -/
inductive Cut : Kind → Text → Text → Prop
  /-- A mark of punctuation is a token whatever follows. -/
  | punctuation {c : Char} {kind : Kind} {rest : Text} (h : Kind.ofPunctuation? c = some kind) :
      Cut kind [c] rest
  /-- A quote with no second one behind it stands alone. -/
  | quote {c : Char} {alone pair : Kind} {rest : Text}
      (h : Kind.ofQuote? c = some (alone, pair)) (hrest : Stops (· == c) rest) :
      Cut alone [c] rest
  /-- Two quotes side by side are paired from the left. -/
  | quotePair {c : Char} {alone pair : Kind} {rest : Text}
      (h : Kind.ofQuote? c = some (alone, pair)) : Cut pair [c, c] rest
  /-- A longest word that spells a keyword, in any letter case. -/
  | keyword {k : Keyword} {word rest : Text} (hword : IsWord word)
      (hk : word.toUpper = k.spelling) (hrest : Stops isWordPart rest) :
      Cut (.keyword k) word rest
  /-- A longest word that spells none. -/
  | name {word rest : Text} (hword : IsWord word)
      (hk : ∀ k : Keyword, word.toUpper ≠ k.spelling) (hrest : Stops isWordPart rest) :
      Cut .name word rest
  /-- A longest run of blanks. -/
  | blank {run rest : Text} (hne : run ≠ []) (hrun : IsLayout run) (hrest : Stops isBlank rest) :
      Cut .blank run rest
  /-- The end of the text. -/
  | eof : Cut .eof [] []

/-! ### The first token of a text -/

namespace Lexeme

variable {text rest : Text} {kind : Kind} {c : Char}

theorem first_punctuation (h : Kind.ofPunctuation? c = some kind) :
    first (c :: rest) = .ok ⟨kind, [c], rest⟩ := by
  rw [first, h]

theorem first_quote {alone pair : Kind} (h : Kind.ofQuote? c = some (alone, pair)) :
    first (c :: rest) = .ok (ofQuote alone pair c rest) := by
  have hnone : Kind.ofPunctuation? c = none := by
    rcases Kind.ofQuote?_eq_some_iff.mp h with ⟨rfl, -⟩ | ⟨rfl, -⟩ <;> rfl
  rw [first, hnone, h]

theorem first_word (h : isWordStart c = true) :
    first (c :: rest) = .ok (ofRun isWordPart Kind.ofWord (c :: rest)) := by
  obtain ⟨hmark, hquote⟩ :=
    Kind.ofPunctuation?_ofQuote?_eq_none (.inl (isWordPart_of_isWordStart h))
  rw [first, hmark, hquote]
  exact if_pos h

theorem first_blank (h : isBlank c = true) :
    first (c :: rest) = .ok (ofRun isBlank (fun _ => .blank) (c :: rest)) := by
  have hstart : ¬isWordStart c = true := by
    intro hc
    rw [isBlank_eq_false_of_isWordPart (isWordPart_of_isWordStart hc)] at h
    cases h
  obtain ⟨hmark, hquote⟩ := Kind.ofPunctuation?_ofQuote?_eq_none (.inr h)
  rw [first, hmark, hquote]
  exact (if_neg hstart).trans (if_pos h)

theorem ofRun_append {test : Char → Bool} {run : Text} (kind : Text → Kind)
    (hrun : ∀ c ∈ run, test c = true) (hrest : Stops test rest) :
    ofRun test kind (run ++ rest) = ⟨kind run, run, rest⟩ := by
  rw [ofRun, takeWhile_append_of_stops hrun hrest, dropWhile_append_of_stops hrun hrest]

theorem first_word_append {word : Text} (hword : IsWord word) (hrest : Stops isWordPart rest) :
    first (word ++ rest) = .ok ⟨Kind.ofWord word, word, rest⟩ := by
  rw [← ofRun_append Kind.ofWord hword.forall_isWordPart hrest]
  obtain ⟨c, tail, rfl, hc⟩ := hword.exists_cons
  exact first_word hc

/-- A token in front of a rest is found there. -/
theorem first_of_cut (h : Cut kind text rest) : first (text ++ rest) = .ok ⟨kind, text, rest⟩ := by
  cases h with
  | punctuation h => exact first_punctuation h
  | @quote c _ _ _ h hrest =>
      rw [List.singleton_append, first_quote h]
      cases rest with
      | nil => rfl
      | cons d rest =>
          have hd : ¬d = c := fun hd => absurd (stops_cons.mp hrest) (by simp [hd])
          rw [ofQuote, if_neg hd]
  | quotePair h =>
      rw [List.cons_append, List.singleton_append, first_quote h, ofQuote, if_pos rfl]
  | keyword hword hk hrest =>
      rw [first_word_append hword hrest, Kind.ofWord, Keyword.ofWord?_eq_some_iff.mpr hk]
  | name hword hk hrest =>
      rw [first_word_append hword hrest, Kind.ofWord, Keyword.ofWord?_eq_none_iff.mpr hk]
  | blank hne hrun hrest =>
      rw [← ofRun_append (fun _ => .blank) hrun hrest]
      obtain ⟨c, tail, rfl⟩ := List.exists_cons_of_ne_nil hne
      exact first_blank (hrun c List.mem_cons_self)
  | eof => rfl

theorem cut_ofQuote {alone pair : Kind} (h : Kind.ofQuote? c = some (alone, pair)) :
    Cut (ofQuote alone pair c rest).kind (ofQuote alone pair c rest).text
      (ofQuote alone pair c rest).rest := by
  cases rest with
  | nil => exact .quote h stops_nil
  | cons d rest =>
      rw [ofQuote]
      by_cases hd : d = c
      · rw [if_pos hd, hd]
        exact .quotePair h
      · rw [if_neg hd]
        exact .quote h (stops_cons.mpr (by simp [hd]))

theorem cut_ofWord {word : Text} (hword : IsWord word) (hrest : Stops isWordPart rest) :
    Cut (Kind.ofWord word) word rest := by
  rw [Kind.ofWord]
  cases hk : Keyword.ofWord? word with
  | none => exact .name hword (Keyword.ofWord?_eq_none_iff.mp hk) hrest
  | some k => exact .keyword hword (Keyword.ofWord?_eq_some_iff.mp hk) hrest

/-- What is found is a token in front of its rest. -/
theorem cut_of_first {l : Lexeme} (h : first text = .ok l) : Cut l.kind l.text l.rest := by
  cases text with
  | nil => cases h; exact .eof
  | cons c rest =>
      rw [first] at h
      split at h
      · next kind hc => cases h; exact .punctuation hc
      · next alone pair _ hc => cases h; exact cut_ofQuote hc
      · split at h
        · next hc =>
            cases h
            refine cut_ofWord ?_ (stops_dropWhile _ _)
            rw [List.takeWhile_cons, if_pos (isWordPart_of_isWordStart hc)]
            exact ⟨hc, forall_mem_takeWhile _ _⟩
        · split at h
          · next hc =>
              cases h
              exact .blank (text_ofRun_ne_nil hc (fun _ => .blank) rest)
                (forall_mem_takeWhile _ _) (stops_dropWhile _ _)
          · cases h

/-- The first token of a text is the one that is cut off it. -/
theorem first_eq_ok_iff {l : Lexeme} :
    first text = .ok l ↔ text = l.text ++ l.rest ∧ Cut l.kind l.text l.rest := by
  constructor
  · intro h
    exact ⟨(text_append_rest_of_first h).symm, cut_of_first h⟩
  · rintro ⟨rfl, h⟩
    exact first_of_cut h

/-- Where there is no first token, the first character is to blame. -/
theorem exists_cons_of_first (h : first text = .error c) :
    (∃ rest, text = c :: rest) ∧ ∀ kind token rest, text = token ++ rest → ¬ Cut kind token rest := by
  constructor
  · cases text with
    | nil => cases h
    | cons d rest =>
        have hd : c = d := by
          rw [first] at h
          grind
        exact ⟨rest, by rw [hd]⟩
  · rintro kind token rest rfl hcut
    rw [first_of_cut hcut] at h
    cases h

end Lexeme

namespace Cut

variable {kind kind' : Kind} {text text' rest rest' : Text} {c : Char}

/-- No text has two first tokens. -/
theorem unique (h : Cut kind text rest) (h' : Cut kind' text' rest')
    (heq : text ++ rest = text' ++ rest') : kind = kind' ∧ text = text' ∧ rest = rest' := by
  have hfirst := Lexeme.first_of_cut h
  rw [heq, Lexeme.first_of_cut h'] at hfirst
  cases hfirst
  exact ⟨rfl, rfl, rfl⟩

theorem text_ne_nil (h : Cut kind text rest) (hk : kind ≠ .eof) : text ≠ [] := by
  cases h with
  | punctuation h => simp
  | quote h hrest => simp
  | quotePair h => simp
  | keyword hword hk hrest => exact hword.ne_nil
  | name hword hk hrest => exact hword.ne_nil
  | blank hne hrun hrest => exact hne
  | eof => exact absurd rfl hk

/-- A token ends where it does not go on. -/
theorem stops (h : Cut kind text rest) : Stops kind.goesOn rest := by
  cases h with
  | punctuation h =>
      rw [Kind.goesOn_of_ofPunctuation? h]
      exact fun _ _ => rfl
  | quote h hrest =>
      rw [(Kind.goesOn_of_ofQuote? h).1]
      exact hrest
  | quotePair h =>
      rw [(Kind.goesOn_of_ofQuote? h).2]
      exact fun _ _ => rfl
  | keyword hword hk hrest => exact hrest
  | name hword hk hrest => exact hrest
  | blank hne hrun hrest => exact hrest
  | eof => exact stops_nil

/-- A token is one wherever it does not go on. -/
theorem of_stops (h : Cut kind text rest) (hrest' : Stops kind.goesOn rest') :
    Cut kind text rest' := by
  cases h with
  | punctuation h => exact .punctuation h
  | quote h hrest =>
      rw [(Kind.goesOn_of_ofQuote? h).1] at hrest'
      exact .quote h hrest'
  | quotePair h => exact .quotePair h
  | keyword hword hk hrest => exact .keyword hword hk hrest'
  | name hword hk hrest => exact .name hword hk hrest'
  | blank hne hrun hrest => exact .blank hne hrun hrest'
  | eof =>
      cases rest' with
      | nil => exact .eof
      | cons c rest' => cases stops_cons.mp hrest'

/-! ### The tokens of one kind -/

theorem keyword_iff {k : Keyword} :
    Cut (.keyword k) text rest ↔
      IsWord text ∧ text.toUpper = k.spelling ∧ Stops isWordPart rest := by
  constructor
  · intro h
    cases h with
    | keyword hword hk hrest => exact ⟨hword, hk, hrest⟩
    | punctuation h => simp [Kind.ofPunctuation?_eq_some_iff] at h
    | quote h hrest => simp [Kind.ofQuote?_eq_some_iff] at h
    | quotePair h => simp [Kind.ofQuote?_eq_some_iff] at h
  · rintro ⟨hword, hk, hrest⟩
    exact .keyword hword hk hrest

theorem name_iff :
    Cut .name text rest ↔
      IsWord text ∧ (∀ k : Keyword, text.toUpper ≠ k.spelling) ∧ Stops isWordPart rest := by
  constructor
  · intro h
    cases h with
    | name hword hk hrest => exact ⟨hword, hk, hrest⟩
    | punctuation h => simp [Kind.ofPunctuation?_eq_some_iff] at h
    | quote h hrest => simp [Kind.ofQuote?_eq_some_iff] at h
    | quotePair h => simp [Kind.ofQuote?_eq_some_iff] at h
  · rintro ⟨hword, hk, hrest⟩
    exact .name hword hk hrest

theorem blank_iff : Cut .blank text rest ↔ text ≠ [] ∧ IsLayout text ∧ Stops isBlank rest := by
  constructor
  · intro h
    cases h with
    | blank hne hrun hrest => exact ⟨hne, hrun, hrest⟩
    | punctuation h => simp [Kind.ofPunctuation?_eq_some_iff] at h
    | quote h hrest => simp [Kind.ofQuote?_eq_some_iff] at h
    | quotePair h => simp [Kind.ofQuote?_eq_some_iff] at h
  · rintro ⟨hne, hrun, hrest⟩
    exact .blank hne hrun hrest

theorem eof_iff : Cut .eof text rest ↔ text = [] ∧ rest = [] := by
  constructor
  · intro h
    cases h with
    | eof => exact ⟨rfl, rfl⟩
    | punctuation h => simp [Kind.ofPunctuation?_eq_some_iff] at h
    | quote h hrest => simp [Kind.ofQuote?_eq_some_iff] at h
    | quotePair h => simp [Kind.ofQuote?_eq_some_iff] at h
  · rintro ⟨rfl, rfl⟩
    exact .eof

theorem mark_iff (hc : Kind.ofPunctuation? c = some kind) : Cut kind text rest ↔ text = [c] := by
  have hmark := Kind.ofPunctuation?_eq_some_iff.mp hc
  constructor
  · intro h
    cases h with
    | punctuation h => rw [Kind.ofPunctuation?_inj h hc]
    | quote h hrest => rw [Kind.ofQuote?_eq_some_iff] at h; grind
    | quotePair h => rw [Kind.ofQuote?_eq_some_iff] at h; grind
    | keyword hword hk hrest => simp at hmark
    | name hword hk hrest => simp at hmark
    | blank hne hrun hrest => simp at hmark
    | eof => simp at hmark
  · rintro rfl
    exact .punctuation hc

theorem quote_iff {alone pair : Kind} (hc : Kind.ofQuote? c = some (alone, pair)) :
    Cut alone text rest ↔ text = [c] ∧ Stops (· == c) rest := by
  have hquote := Kind.ofQuote?_eq_some_iff.mp hc
  constructor
  · intro h
    cases h with
    | @quote d _ _ _ h hrest =>
        rw [Kind.ofQuote?_eq_some_iff] at h
        have hd : d = c := by grind
        subst hd
        exact ⟨rfl, hrest⟩
    | punctuation h => rw [Kind.ofPunctuation?_eq_some_iff] at h; grind
    | quotePair h => rw [Kind.ofQuote?_eq_some_iff] at h; grind
    | keyword hword hk hrest => simp at hquote
    | name hword hk hrest => simp at hquote
    | blank hne hrun hrest => simp at hquote
    | eof => simp at hquote
  · rintro ⟨rfl, hrest⟩
    exact .quote hc hrest

theorem quotePair_iff {alone pair : Kind} (hc : Kind.ofQuote? c = some (alone, pair)) :
    Cut pair text rest ↔ text = [c, c] := by
  have hquote := Kind.ofQuote?_eq_some_iff.mp hc
  constructor
  · intro h
    cases h with
    | @quotePair d _ _ _ h =>
        rw [Kind.ofQuote?_eq_some_iff] at h
        have hd : d = c := by grind
        rw [hd]
    | punctuation h => rw [Kind.ofPunctuation?_eq_some_iff] at h; grind
    | quote h hrest => rw [Kind.ofQuote?_eq_some_iff] at h; grind
    | keyword hword hk hrest => simp at hquote
    | name hword hk hrest => simp at hquote
    | blank hne hrun hrest => simp at hquote
    | eof => simp at hquote
  · rintro rfl
    exact .quotePair hc

/-! ### Lines -/

/-- Only a blank token holds blanks. -/
theorem isBlank_eq_false (h : Cut kind text rest) (hk : kind ≠ .blank) :
    ∀ c ∈ text, isBlank c = false := by
  intro d hd
  cases h with
  | punctuation h =>
      rw [List.mem_singleton.mp hd]
      exact (Kind.isBlank_isWordPart_of_ofPunctuation? h).1
  | quote h hrest =>
      rw [List.mem_singleton.mp hd]
      exact (Kind.isBlank_isWordPart_of_ofQuote? h).1
  | @quotePair c _ _ _ h =>
      have hdc : d = c := by simpa using hd
      rw [hdc]
      exact (Kind.isBlank_isWordPart_of_ofQuote? h).1
  | keyword hword hk hrest => exact isBlank_eq_false_of_isWordPart (hword.forall_isWordPart d hd)
  | name hword hk hrest => exact isBlank_eq_false_of_isWordPart (hword.forall_isWordPart d hd)
  | blank hne hrun hrest => exact absurd rfl hk
  | eof => cases hd

/-- Only blanks break lines, and they are not cut in the middle: a token
and any text that begins what follows it are counted apart. -/
theorem lineBreaks_append {front back : Text} (h : Cut kind text (front ++ back)) :
    lineBreaks (text ++ front) = lineBreaks text + lineBreaks front := by
  by_cases hk : kind = .blank
  · subst hk
    obtain ⟨-, -, hrest⟩ := blank_iff.mp h
    exact lineBreaks_append_of_stops_isBlank hrest.of_append
  · have hbreak : ∀ c ∈ text, isBreak c = false := fun c hc =>
      isBreak_eq_false_of_isBlank_eq_false (h.isBlank_eq_false hk c hc)
    rw [lineBreaks_append_of_forall hbreak, lineBreaks_eq_zero hbreak, Nat.zero_add]

theorem lineBreaks_append_rest (h : Cut kind text rest) :
    lineBreaks (text ++ rest) = lineBreaks text + lineBreaks rest := by
  rw [← List.append_nil rest] at h
  exact h.lineBreaks_append

/-- No break goes on from a token into the next. -/
theorem seam (h : Cut kind text rest) (front : Text) : Seam (front ++ text) rest := by
  by_cases hblank : kind = .blank
  · subst hblank
    exact seam_of_stops_isBlank (blank_iff.mp h).2.2
  · by_cases hend : kind = .eof
    · subst hend
      rw [(eof_iff.mp h).2]
      exact .inl stops_nil
    · refine Seam.prepend (.inr fun c hc => ?_) (h.text_ne_nil hend) front
      exact isBreak_eq_false_of_isBlank_eq_false
        (h.isBlank_eq_false hblank c (List.mem_of_getLast? hc))

end Cut

end StoredProc
