import StoredProc.Proofs.Program.Lines
import StoredProc.Proofs.Program.Lockstep

/-!
An error is final. A script that ends in a blank is read like any script
that goes on behind it, as long as reading has not come to its end: every
token that was cut off is cut off there too, and only the last blanks may
go on. They count for the same in every message. So an error that is not
about the end of the script is the error of every longer script.

The two runs are coupled by what is still unread. The first is lost when
nothing is left, and from there it can fail only at the end of input.
-/

namespace StoredProc

open Text Scan

/-! ### Cutting with more text behind -/

theorem Cut.append {kind : Kind} {text rest : Text} (h : Cut kind text rest) (hne : rest ≠ [])
    (tail : Text) : Cut kind text (rest ++ tail) :=
  h.of_stops (stops_append_of_ne_nil h.stops hne)

/-- Whether a character begins no token does not depend on what follows
it. -/
theorem Lexeme.first_error_append {text : Text} {c : Char} (h : first text = .error c)
    (tail : Text) : first (text ++ tail) = .error c := by
  cases text with
  | nil => cases h
  | cons d rest =>
      rw [first] at h
      rw [List.cons_append, first]
      grind

theorem Lexeme.first_append {text : Text} {l : Lexeme} (h : first text = .ok l)
    (hne : l.rest ≠ []) (tail : Text) :
    first (text ++ tail) = .ok ⟨l.kind, l.text, l.rest ++ tail⟩ := by
  obtain ⟨htext, hcut⟩ := first_eq_ok_iff.mp h
  rw [htext, List.append_assoc]
  exact first_of_cut (hcut.append hne tail)

/-- A token that takes all of a text that ends in a blank is a stretch of
blanks, and goes on as one. -/
theorem Lexeme.first_append_blank {text : Text} {l : Lexeme} (h : first text = .ok l)
    (hlast : text.getLast? = some ' ') (hrest : l.rest = []) (tail : Text) :
    l.kind = .blank ∧ ∃ run rest, first (text ++ tail) = .ok ⟨.blank, run, rest⟩ := by
  obtain ⟨htext, hcut⟩ := first_eq_ok_iff.mp h
  rw [hrest, List.append_nil] at htext
  have hmem : ' ' ∈ l.text := by
    rw [← htext]
    exact List.mem_of_getLast? hlast
  have hkind : l.kind = .blank := by
    by_cases hkind : l.kind = .blank
    · exact hkind
    · cases hcut.isBlank_eq_false hkind ' ' hmem
  refine ⟨hkind, ?_⟩
  rw [hkind] at hcut
  obtain ⟨hne, hlayout, -⟩ := Cut.blank_iff.mp hcut
  rw [← htext] at hne hlayout
  obtain ⟨c, front, rfl⟩ := List.exists_cons_of_ne_nil hne
  rw [List.cons_append, first_blank (hlayout c List.mem_cons_self)]
  exact ⟨_, _, rfl⟩

/-! ### Errors at the end -/

/-- The error is that the script ends: raw text is not closed, or the
token that was found is the end of input. -/
def SyntaxError.atEnd : SyntaxError → Bool
  | missingDelimiter _ _ => true
  | e => e.token?.any (·.kind = .eof)

namespace Scan

variable {tail : Text} {s s' t : Scanner} {token token' : Token}

/-- The same token, or blanks on the same line. -/
structure Continues (token token' : Token) : Prop where
  eq_or_blank : token' = token ∨
    (token.kind = .blank ∧ token'.kind = .blank ∧ token'.line = token.line)
  spelt : token.Spelt
  spelt' : token'.Spelt

theorem Continues.kind_eq (h : Continues token token') : token.kind = token'.kind := by
  obtain rfl | ⟨hkind, hkind', -⟩ := h.eq_or_blank
  · rfl
  · rw [hkind, hkind']

theorem Continues.line_eq (h : Continues token token') : token'.line = token.line := by
  obtain rfl | ⟨-, -, hline⟩ := h.eq_or_blank
  · rfl
  · exact hline

theorem Continues.describe_eq (h : Continues token token') : token'.describe = token.describe := by
  obtain rfl | ⟨hkind, hkind', -⟩ := h.eq_or_blank
  · rfl
  · rw [Token.describe, Token.describe, hkind, hkind']

/-- The script ends in a blank and goes on in the other with `tail`. Once
the last blanks are held nothing more is known of what is behind them. -/
inductive Extended (tail : Text) (s s' : Scanner) : Prop
  | within (hlast : s.rest.getLast? = some ' ') (hrest : s'.rest = s.rest ++ tail)
      (hline : s'.line = s.line) (hheld : s'.held = s.held)
      (hspelt : ∀ token ∈ s.held, token.Spelt)
  | last (hrest : s.rest = []) {token token' : Token} (hheld : s.held = some token)
      (hheld' : s'.held = some token') (hkind : token.kind = .blank)
      (h : Continues token token')

structure Exhausted (s : Scanner) : Prop where
  rest : s.rest = []
  held : ∀ token ∈ s.held, token.kind = .eof ∧ token.Spelt

def extension (tail : Text) : Coupling where
  rel := Extended tail
  lost := Exhausted
  token := Continues
  late e := e.atEnd = true
  same e e' := e'.diagnostic = e.diagnostic

/-! ### Nothing left -/

/-- Where nothing is left, the end of input is all that is found. -/
theorem Exhausted.peek (h : Exhausted s) :
    ∃ token t, peek s = .ok token t ∧ token.kind = .eof ∧ token.Spelt ∧ Exhausted t := by
  cases hheld : s.held with
  | some token =>
      obtain ⟨hkind, hspelt⟩ := h.held token hheld
      exact ⟨token, s, peek_of_held hheld, hkind, hspelt, h⟩
  | none =>
      have hcut : cut s = .ok ⟨s.line, .eof, []⟩ (s.pass ⟨.eof, [], []⟩) := by
        rw [cut, h.rest]
        rfl
      have hspelt : (⟨s.line, .eof, []⟩ : Token).Spelt := ⟨[], .eof⟩
      refine ⟨_, _, peek_of_cut hheld hcut, rfl, hspelt, rfl, ?_⟩
      rintro token ⟨⟩
      exact ⟨rfl, hspelt⟩

theorem Exhausted.drop (h : Exhausted s) : Exhausted s.drop :=
  ⟨h.rest, by rintro token ⟨⟩⟩

theorem Exhausted.keeps_expect (kind : Kind) :
    Keeps Exhausted (fun e _ => e.atEnd = true) (expect kind) := by
  refine ⟨?_, ?_⟩
  · intro s token t hs h
    obtain ⟨found, u, hpeek, -, -, hu⟩ := hs.peek
    by_cases hkind : found.kind = kind
    · rw [expect_of_peek hpeek hkind] at h
      cases h
      exact hu.drop
    · rw [expect_of_peek_ne hpeek hkind] at h
      cases h
  · intro s e t hs h
    obtain ⟨found, u, hpeek, hend, -, hu⟩ := hs.peek
    by_cases hkind : found.kind = kind
    · rw [expect_of_peek hpeek hkind] at h
      cases h
    · rw [expect_of_peek_ne hpeek hkind] at h
      cases h
      simp [SyntaxError.atEnd, SyntaxError.token?, hend]

theorem Exhausted.rawUntil (h : Exhausted s) (hheld : s.held = none) (d : Char) :
    rawUntil d s = .error (.missingDelimiter s.line d) s := by
  apply rawUntil_of_not_mem hheld
  rw [h.rest]
  exact List.not_mem_nil

/-- From there on reading fails at the end of the script, if at all. -/
theorem invariant_exhausted : Invariant Exhausted fun e _ => e.atEnd = true where
  peek := by
    refine ⟨?_, ?_⟩
    · intro s token t hs h
      obtain ⟨found, u, hpeek, -, -, hu⟩ := hs.peek
      rw [hpeek] at h
      cases h
      exact hu
    · intro s e t hs h
      obtain ⟨found, u, hpeek, -⟩ := hs.peek
      rw [hpeek] at h
      cases h
  expect := Exhausted.keeps_expect
  expectRaw := by
    intro kind d hopen
    have hraw {s t : Scanner} {token : Token} (hs : Exhausted s)
        (hexpect : expect kind s = .ok token t) :
        Scan.rawUntil d t = .error (.missingDelimiter t.line d) t :=
      ((Exhausted.keeps_expect kind).ok hs hexpect).rawUntil
        (held_of_next (next_of_expect hexpect).1) d
    refine keeps_expectRaw (Exhausted.keeps_expect kind) ?_ ?_
    · intro s token t raw u hs hexpect h
      rw [hraw hs hexpect] at h
      cases h
    · intro s token t e u hs hexpect h
      rw [hraw hs hexpect] at h
      cases h
      rfl
  trace := fun event hs => ⟨hs.rest, hs.held⟩
  refuse := by
    intro s token hs hheld expected
    simp [SyntaxError.atEnd, SyntaxError.token?, (hs.held token hheld).1]
  spelt := by
    intro s token t hs hnext
    obtain ⟨found, u, hpeek, -, hspelt, -⟩ := hs.peek
    rw [next_of_peek hpeek] at hnext
    cases hnext
    exact hspelt

/-! ### Side by side -/

theorem Extended.held_rel (h : Extended tail s s') : Option.Rel Continues s.held s'.held := by
  cases h with
  | within hlast hrest hline hheld hspelt =>
      rw [hheld]
      cases hs : s.held with
      | none => exact .none
      | some token =>
          have htoken := hspelt token hs
          exact .some ⟨.inl rfl, htoken, htoken⟩
  | last hrest hheld hheld' hkind h =>
      rw [hheld, hheld']
      exact .some h

theorem getLast?_of_append {front back : Text} (h : (front ++ back).getLast? = some ' ')
    (hne : back ≠ []) : back.getLast? = some ' ' := by
  rw [List.getLast?_append, List.getLast?_eq_some_getLast hne, Option.some_or] at h
  rw [List.getLast?_eq_some_getLast hne, h]

/-- A token is cut off as in the longer script. -/
theorem Extended.peek (h : Extended tail s s') (hheld : s.held = none) (hheld' : s'.held = none) :
    Agree (extension tail) Continues (peek s) (peek s') := by
  cases h with
  | last hrest hsome => rw [hheld] at hsome; cases hsome
  | within hlast hrest hline hsame hspelt =>
      cases hfirst : Lexeme.first s.rest with
      | error c =>
          have hcut : cut s = .error (.unexpectedSymbol s.line c) s := by
            rw [cut, hfirst]
          have hcut' : cut s' = .error (.unexpectedSymbol s'.line c) s' := by
            rw [cut, hrest, Lexeme.first_error_append hfirst]
          rw [peek_of_cut_error hheld hcut, peek_of_cut_error hheld' hcut']
          apply Agree.error
          change SyntaxError.diagnostic _ = SyntaxError.diagnostic _
          rw [hline]
      | ok l =>
          obtain ⟨htext, hc⟩ := Lexeme.first_eq_ok_iff.mp hfirst
          have hcut : cut s = .ok ⟨s.line, l.kind, l.text⟩ (s.pass l) := by
            rw [cut, hfirst]
          by_cases hne : l.rest = []
          · obtain ⟨hkind, run, more, hfirst'⟩ :=
              Lexeme.first_append_blank hfirst hlast hne tail
            have hcut' : cut s' = .ok ⟨s'.line, .blank, run⟩ (s'.pass ⟨.blank, run, more⟩) := by
              rw [cut, hrest, hfirst']
            have hc' := (Lexeme.first_eq_ok_iff.mp hfirst').2
            have htoken : Continues ⟨s.line, l.kind, l.text⟩ ⟨s'.line, .blank, run⟩ :=
              ⟨.inr ⟨hkind, rfl, hline⟩, ⟨_, hc⟩, ⟨_, hc'⟩⟩
            rw [peek_of_cut hheld hcut, peek_of_cut hheld' hcut']
            exact .ok htoken (.last hne rfl rfl hkind htoken)
          · have hfirst' := Lexeme.first_append hfirst hne tail
            have hcut' : cut s' = .ok ⟨s.line, l.kind, l.text⟩
                (s'.pass ⟨l.kind, l.text, l.rest ++ tail⟩) := by
              rw [cut, hrest, hfirst', hline]
            have hspelt' : (⟨s.line, l.kind, l.text⟩ : Token).Spelt := ⟨_, hc⟩
            rw [peek_of_cut hheld hcut, peek_of_cut hheld' hcut']
            refine .ok ⟨.inl rfl, hspelt', hspelt'⟩ (.within ?_ rfl ?_ rfl ?_)
            · rw [htext] at hlast
              exact getLast?_of_append hlast hne
            · change s'.line + _ = s.line + _
              rw [hline]
            · rintro token ⟨⟩
              exact hspelt'

theorem Extended.raw (h : Extended tail s s') (hheld : s.held = none) (hheld' : s'.held = none)
    (d : Char) :
    Agree (extension tail) (fun raw raw' => raw = raw') (rawUntil d s) (rawUntil d s') := by
  cases h with
  | last hrest hsome => rw [hheld] at hsome; cases hsome
  | within hlast hrest hline hsame hspelt =>
      by_cases hmem : d ∈ s.rest
      · obtain ⟨raw, more, hsplit, hraw⟩ := List.eq_append_cons_of_mem hmem
        have hsplit' : s'.rest = raw ++ d :: (more ++ tail) := by
          rw [hrest, hsplit, List.append_assoc, List.cons_append]
        rw [rawUntil_of_eq hheld hsplit hraw, rawUntil_of_eq hheld' hsplit' hraw]
        refine .ok rfl (.within ?_ rfl ?_ ?_ ?_)
        · rw [hsplit] at hlast
          exact getLast?_of_append hlast (List.cons_ne_nil d more)
        · change s'.line + _ = s.line + _
          rw [hline]
        · exact hsame
        · exact hspelt
      · rw [rawUntil_of_not_mem hheld hmem]
        exact .stray (.error rfl)

theorem lawful_extension (tail : Text) : (extension tail).Lawful where
  lost := invariant_exhausted
  refl := fun h => ⟨.inl rfl, h, h⟩
  spelt := fun h => ⟨h.spelt, h.spelt'⟩
  kind := Continues.kind_eq
  name := by
    intro token token' h hkind
    obtain rfl | ⟨hblank, -⟩ := h.eq_or_blank
    · rfl
    · rw [hblank] at hkind
      cases hkind
  mismatch := by
    intro token token' h kind
    change SyntaxError.diagnostic _ = SyntaxError.diagnostic _
    rw [SyntaxError.diagnostic, SyntaxError.diagnostic, h.line_eq, h.describe_eq]
  unexpected := by
    intro token token' h expected
    change SyntaxError.diagnostic _ = SyntaxError.diagnostic _
    rw [SyntaxError.diagnostic, SyntaxError.diagnostic, h.line_eq, h.describe_eq]
  held := Extended.held_rel
  peek := Extended.peek
  drop := by
    intro s s' h
    cases h with
    | within hlast hrest hline hheld hspelt =>
        exact .inr (.within hlast hrest hline rfl (by rintro token ⟨⟩))
    | last hrest hheld hheld' hkind h => exact .inl ⟨hrest, by rintro token ⟨⟩⟩
  raw := fun {s s' kind d} _ h hheld hheld' => h.raw hheld hheld' d
  lostRaw := by
    intro s kind d _ hs hheld
    rw [hs.rawUntil hheld d]
    exact .error rfl
  trace := by
    intro s s' event event' h
    cases h with
    | within hlast hrest hline hheld hspelt => exact .within hlast hrest hline hheld hspelt
    | last hrest hheld hheld' hkind h => exact .last hrest hheld hheld' hkind h

end Scan

/-! ### Scripts -/

theorem Program.parse_of_read_error {source : Text} {e : SyntaxError} {s : Scanner}
    (h : read (.ofText source) = .error e s) : parse source = .error e := by
  rw [parse, h]

/-- An error in front of the last blank is reported of every longer
script. -/
theorem Program.parse_append_error {source : Text} {e : SyntaxError}
    (h : parse (source ++ [' ']) = .error e) (hend : e.atEnd = false) (tail : Text) :
    ∃ e', parse (source ++ ' ' :: tail) = .error e' ∧ e'.diagnostic = e.diagnostic := by
  obtain ⟨s, hread⟩ := read_of_parse_error h
  have hstart : Extended tail (.ofText (source ++ [' '])) (.ofText (source ++ ' ' :: tail)) := by
    refine .within ?_ ?_ rfl rfl (by rintro token ⟨⟩)
    · exact List.getLast?_concat
    · exact (List.append_assoc source [' '] tail).symm
  have hagree := (lawful_extension tail).follows_read.rel hstart
  rw [hread] at hagree
  generalize hread' : read (.ofText (source ++ ' ' :: tail)) = r at hagree
  cases hagree with
  | error hsame => exact ⟨_, parse_of_read_error hread', hsame⟩
  | stray hstray =>
      cases hstray with
      | error hlate =>
          rw [show e.atEnd = true from hlate] at hend
          cases hend

end StoredProc
