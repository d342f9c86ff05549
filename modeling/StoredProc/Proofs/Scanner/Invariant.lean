import StoredProc.Proofs.Scanner.Reading

/-!
What every operation keeps, and what every failure says. `Scan.Keeps`
is a judgment with two sides: from a scanner with the invariant, success
leads to one with it again, and failure to an error and a scanner that
fit each other. Both sides pass through `bind`, so they hold of anything
put together from operations that keep the invariant.

The language asks for little: to look at a token, to take one of a kind,
and to pass raw text where a token has just opened it. An invariant of
these is an invariant of reading a script, and `Scan.Invariant` says what
there is to check.
-/

namespace StoredProc

open Text

/-- The delimiter of the raw text that a token opens: a quote runs up to
the same quote, and the end of a body up to a semicolon. -/
def Kind.closer? : Kind → Option Char
  | quote => some '"'
  | apostrophe => some '\x27'
  | keyword .endBlock => some ';'
  | _ => none

theorem Kind.isBlank_isWordPart_of_closer? {kind : Kind} {d : Char} (h : kind.closer? = some d) :
    isBlank d = false ∧ isWordPart d = false := by
  unfold closer? at h
  split at h <;> cases h <;> decide

theorem Kind.isBreak_of_closer? {kind : Kind} {d : Char} (h : kind.closer? = some d) :
    isBreak d = false :=
  isBreak_eq_false_of_isBlank_eq_false (isBlank_isWordPart_of_closer? h).1

/-- The token could stand in some script: its text is spelled as its kind
says. -/
def Token.Spelt (token : Token) : Prop := ∃ rest, Cut token.kind token.text rest

namespace Scan

variable {α β : Type} {s t u : Scanner} {e : SyntaxError} {token : Token} {kind : Kind} {d : Char}

/-! ### How an operation fails -/

theorem bind_eq_error {m : Scan α} {k : α → Scan β} (h : (m >>= k) s = .error e u) :
    m s = .error e u ∨ ∃ a t, m s = .ok a t ∧ k a t = .error e u := by
  change EStateM.bind m k s = .error e u at h
  unfold EStateM.bind at h
  split at h
  · next a t hm => exact .inr ⟨a, t, hm, h⟩
  · next e' t hm =>
      cases h
      exact .inl hm

/-- A token cannot be cut off where a character begins none, and nothing
moves. -/
theorem cut_eq_error (h : cut s = .error e t) :
    ∃ c, Lexeme.first s.rest = .error c ∧ e = .unexpectedSymbol s.line c ∧ t = s := by
  unfold cut at h
  split at h
  · cases h
  · next c hc =>
      cases h
      exact ⟨c, hc, rfl, rfl⟩

theorem next_eq_error (h : next s = .error e t) : s.held = none ∧ cut s = .error e t := by
  unfold next at h
  split at h
  · cases h
  · next hheld => exact ⟨hheld, h⟩

theorem peek_eq_error (h : peek s = .error e t) : s.held = none ∧ cut s = .error e t := by
  unfold peek at h
  split at h
  · cases h
  · next hheld =>
      split at h
      · cases h
      · next hcut =>
          cases h
          exact ⟨hheld, hcut⟩

theorem held_of_peek (h : peek s = .ok token t) : t.held = some token := by
  unfold peek at h
  split at h
  · next hheld =>
      cases h
      exact hheld
  · split at h
    · cases h
      rfl
    · cases h

/-- A token that is not asked for is taken before the failure. -/
theorem expect_eq_error (h : expect kind s = .error e t) :
    next s = .error e t ∨
      ∃ token, next s = .ok token t ∧ token.kind ≠ kind ∧ e = .mismatch kind token := by
  refine (bind_eq_error h).imp id ?_
  rintro ⟨token, u, hnext, h⟩
  split at h
  · cases h
  · next hkind =>
      cases h
      exact ⟨token, hnext, hkind, rfl⟩

/-- Raw text has no end where its delimiter does not occur. It is not
even begun while a token is held. -/
theorem rawUntil_eq_error (h : rawUntil d s = .error e t) :
    t = s ∧ ((∃ token, s.held = some token ∧ e = .heldToken d token) ∨
      (s.held = none ∧ d ∉ s.rest ∧ e = .missingDelimiter s.line d)) := by
  unfold rawUntil at h
  split at h
  · next token hheld =>
      cases h
      exact ⟨rfl, .inl ⟨token, hheld, rfl⟩⟩
  · next hheld =>
      split at h
      · next hrest =>
          cases h
          refine ⟨rfl, .inr ⟨hheld, ?_, rfl⟩⟩
          intro hmem
          have hsplit : s.rest.takeWhile (· != d) ++ s.rest.dropWhile (· != d) = s.rest :=
            List.takeWhile_append_dropWhile
          rw [hrest, List.append_nil] at hsplit
          rw [← hsplit] at hmem
          simpa using forall_mem_takeWhile (· != d) s.rest d hmem
      · cases h

/-! ### The judgment -/

/-- From a scanner with the invariant, success leaves one with it, and
failure leaves one that fits the error. -/
structure Keeps (inv : Scanner → Prop) (fault : SyntaxError → Scanner → Prop) (m : Scan α) :
    Prop where
  ok : ∀ {s a t}, inv s → m s = .ok a t → inv t
  error : ∀ {s e t}, inv s → m s = .error e t → fault e t

section

variable {inv : Scanner → Prop} {fault : SyntaxError → Scanner → Prop}

theorem keeps_pure (a : α) : Keeps inv fault (pure a : Scan α) := by
  refine ⟨?_, ?_⟩
  · intro s b t hs h
    cases h
    exact hs
  · intro s e t hs h
    cases h

/-- What comes second has to be known only for the results that the
first can have. -/
theorem Keeps.bind_of_mem {m : Scan α} {k : α → Scan β} (hm : Keeps inv fault m)
    (hk : ∀ {s a t}, inv s → m s = .ok a t → Keeps inv fault (k a)) :
    Keeps inv fault (m >>= k) := by
  refine ⟨?_, ?_⟩
  · intro s b u hs h
    obtain ⟨a, t, h₁, h₂⟩ := bind_eq_ok h
    exact (hk hs h₁).ok (hm.ok hs h₁) h₂
  · intro s e u hs h
    rcases bind_eq_error h with h | ⟨a, t, h₁, h₂⟩
    · exact hm.error hs h
    · exact (hk hs h₁).error (hm.ok hs h₁) h₂

theorem Keeps.bind {m : Scan α} {k : α → Scan β} (hm : Keeps inv fault m)
    (hk : ∀ a, Keeps inv fault (k a)) : Keeps inv fault (m >>= k) :=
  hm.bind_of_mem fun _ _ => hk _

theorem keeps_many {step : Scan (Option α)} (hadvancing : Advancing step)
    (h : Keeps inv fault step) : Keeps inv fault (many step hadvancing) := by
  refine ⟨?_, ?_⟩
  · intro s
    fun_induction many step hadvancing s with
    | case1 s e t hstep => intro as u hs hu; cases hu
    | case2 s t hstep =>
        intro as u hs hu
        cases hu
        exact h.ok hs hstep
    | case3 s a t hstep hlt bs u hmany ih =>
        intro as v hs hv
        cases hv
        exact ih (h.ok hs hstep) hmany
    | case4 s a t hstep hlt e u hmany ih => intro as v hs hv; cases hv
  · intro s
    fun_induction many step hadvancing s with
    | case1 s e t hstep =>
        intro e u hs hu
        cases hu
        exact h.error hs hstep
    | case2 s t hstep => intro e u hs hu; cases hu
    | case3 s a t hstep hlt bs u hmany ih => intro e v hs hv; cases hv
    | case4 s a t hstep hlt e u hmany ih =>
        intro e v hs hv
        cases hv
        exact ih (h.ok hs hstep) hmany

theorem keeps_note {event : Event}
    (hinv : ∀ {s}, inv s → inv { s with trace := event :: s.trace }) :
    Keeps inv fault (note event) := by
  refine ⟨?_, ?_⟩
  · intro s a t hs h
    cases h
    exact hinv hs
  · intro s e t hs h
    cases h

/-- Raw text behind the token that opens it. -/
theorem keeps_expectRaw (hexpect : Keeps inv fault (expect kind))
    (hok : ∀ {s token t raw u}, inv s → expect kind s = .ok token t → rawUntil d t = .ok raw u →
      inv u)
    (herror : ∀ {s token t e u}, inv s → expect kind s = .ok token t →
      rawUntil d t = .error e u → fault e u) : Keeps inv fault (expectRaw kind d) := by
  refine ⟨?_, ?_⟩
  · intro s found v hs h
    obtain ⟨token, t, htoken, h⟩ := bind_eq_ok h
    obtain ⟨raw, u, hraw, h⟩ := bind_eq_ok h
    cases h
    exact hok hs htoken hraw
  · intro s e v hs h
    rcases bind_eq_error h with htoken | ⟨token, t, htoken, h⟩
    · exact hexpect.error hs htoken
    · rcases bind_eq_error h with hraw | ⟨raw, u, -, h⟩
      · exact herror hs htoken hraw
      · cases h

end

/-! ### Invariants of the language -/

/-- What has to be checked of an invariant for it to hold wherever a
script is read. -/
structure Invariant (inv : Scanner → Prop) (fault : SyntaxError → Scanner → Prop) : Prop where
  peek : Keeps inv fault peek
  expect : ∀ kind, Keeps inv fault (expect kind)
  /-- Raw text is only passed where a token has opened it. -/
  expectRaw : ∀ {kind d}, kind.closer? = some d → Keeps inv fault (expectRaw kind d)
  /-- The one event that reading itself puts on the trace. -/
  trace : ∀ {s} statement, inv s → inv { s with trace := .parsed statement :: s.trace }
  /-- The grammar may refuse a token that was looked at. -/
  refuse : ∀ {s token}, inv s → s.held = some token → ∀ expected,
    fault (.unexpected expected token) s
  spelt : ∀ {s token t}, inv s → next s = .ok token t → token.Spelt

end Scan

end StoredProc
