import StoredProc.Proofs.Token.Cut
import StoredProc.Scanner.Progress

/-!
What an operation reads off a script.

A scanner that has looked ahead is at the same place of the script as one
that has not, so the place is the text that is still unread, the token
that is held included. `Scan.Reads m R` says that `m` is the relation `R`
between the text before it and the text after it: where `m` succeeds, the
two texts and its result are related, and where texts and a result are
related, `m` succeeds with that result. The judgment passes through
`bind`, so the relation of an operation put together from others is the
composition of theirs, and no proof about a form of the grammar has to
look at a scanner again.

Success of an operation that only looks ahead depends on what comes next
in the script, where the grammar asks for nothing yet. So the judgment
has two side conditions, on the text after and on the text before: the
second half of it is claimed where the first condition holds, and the
other condition is then known to hold where the operation began.
-/

namespace StoredProc

open Text

/-! ### The place of a scanner -/

def Next (text : Text) (kind : Kind) : Prop :=
  ∃ token rest, text = token ++ rest ∧ Cut kind token rest

theorem Next.unique {text : Text} {kind kind' : Kind} (h : Next text kind) (h' : Next text kind') :
    kind = kind' := by
  obtain ⟨token, rest, rfl, hcut⟩ := h
  obtain ⟨token', rest', heq, hcut'⟩ := h'
  exact (hcut.unique hcut' heq).1

/-- In a script whose end is on line `last`, the line on which a text
begins that goes to the end. -/
def lineAt (last : Nat) (text : Text) : Nat := last - lineBreaks text

namespace Scanner

def unread (s : Scanner) : Text :=
  match s.held with
  | some token => token.text ++ s.rest
  | none => s.rest

theorem unread_of_none {s : Scanner} (h : s.held = none) : s.unread = s.rest := by
  rw [unread, h]

theorem unread_of_some {s : Scanner} {token : Token} (h : s.held = some token) :
    s.unread = token.text ++ s.rest := by
  rw [unread, h]

/-- The line counter is right at the place of the scanner, and a token
that is held is the one that was cut off there. -/
structure Faithful (last : Nat) (s : Scanner) : Prop where
  line : s.line + lineBreaks s.rest = last
  held : ∀ token ∈ s.held, Cut token.kind token.text s.rest ∧
    token.line + lineBreaks (token.text ++ s.rest) = last

theorem faithful_of_none {last : Nat} {s : Scanner} (hline : s.line + lineBreaks s.rest = last)
    (hheld : s.held = none) : s.Faithful last := by
  refine ⟨hline, ?_⟩
  intro token h
  rw [hheld] at h
  cases h

theorem faithful_ofText (source : Text) :
    (ofText source).Faithful (1 + lineBreaks source) :=
  faithful_of_none rfl rfl

end Scanner

namespace Scan

variable {last : Nat} {s t : Scanner} {token : Token}

/-- What a scanner does when it cuts a token off its text. -/
theorem spec_of_cut (h : cut s = .ok token t) :
    s.rest = token.text ++ t.rest ∧ Cut token.kind token.text t.rest ∧ token.line = s.line ∧
      t.line = s.line + lineBreaks token.text ∧ t.held = s.held := by
  rw [cut] at h
  split at h
  · next l hl =>
      cases h
      obtain ⟨hrest, hcut⟩ := Lexeme.first_eq_ok_iff.mp hl
      exact ⟨hrest, hcut, rfl, rfl, rfl⟩
  · cases h

structure Takes (last : Nat) (text : Text) (token : Token) (rest : Text) : Prop where
  text_eq : text = token.text ++ rest
  cut : Cut token.kind token.text rest
  line : token.line = lineAt last text

theorem Takes.next {text rest : Text} (h : Takes last text token rest) : Next text token.kind :=
  ⟨token.text, rest, h.text_eq, h.cut⟩

/-- The token that is cut off a text is the one that is held, if one
is. -/
theorem Takes.of_held (hs : s.Faithful last) (h : s.held = some token) :
    Takes last s.unread token s.rest := by
  obtain ⟨hcut, hline⟩ := hs.held token h
  refine ⟨Scanner.unread_of_some h, hcut, ?_⟩
  rw [lineAt, Scanner.unread_of_some h]
  omega

theorem Takes.unique {text rest rest' : Text} {token' : Token} (h : Takes last text token rest)
    (h' : Takes last text token' rest') : token = token' ∧ rest = rest' := by
  obtain ⟨hkind, htext, hrest⟩ := h.cut.unique h'.cut (h.text_eq ▸ h'.text_eq)
  obtain ⟨line, kind, text⟩ := token
  obtain ⟨line', kind', text'⟩ := token'
  have hline : line = line' := h.line.trans h'.line.symm
  cases hkind
  cases htext
  cases hline
  exact ⟨rfl, hrest⟩

theorem cut_eq_ok (hs : s.Faithful last) (h : s.held = none) {rest : Text}
    (htakes : Takes last s.unread token rest) :
    ∃ t, cut s = .ok token t ∧ t.Faithful last ∧ t.rest = rest ∧ t.held = none := by
  obtain ⟨htext, hcut, hline⟩ := htakes
  rw [Scanner.unread_of_none h] at htext hline
  have hfirst : Lexeme.first s.rest = .ok ⟨token.kind, token.text, rest⟩ :=
    Lexeme.first_eq_ok_iff.mpr ⟨htext, hcut⟩
  have hbreaks := hcut.lineBreaks_append_rest
  have hplace := hs.line
  rw [htext] at hplace
  have hsame : token.line = s.line := by
    rw [hline, lineAt, htext]
    omega
  refine ⟨s.pass ⟨token.kind, token.text, rest⟩, ?_, Scanner.faithful_of_none ?_ h, rfl, h⟩
  · rw [cut, hfirst, ← hsame]
  · change s.line + lineBreaks token.text + lineBreaks rest = last
    omega

theorem takes_of_cut (hs : s.Faithful last) (hheld : s.held = none) (h : cut s = .ok token t) :
    Takes last s.unread token t.rest ∧ t.Faithful last ∧ t.held = none := by
  obtain ⟨hrest, hcut, hline, hnew, hsame⟩ := spec_of_cut h
  have hplace := hs.line
  refine ⟨⟨?_, hcut, ?_⟩, Scanner.faithful_of_none ?_ (hsame.trans hheld), hsame.trans hheld⟩
  · rw [Scanner.unread_of_none hheld, hrest]
  · rw [Scanner.unread_of_none hheld, lineAt]
    omega
  · rw [hrest, hcut.lineBreaks_append_rest] at hplace
    omega

/-- Taking a token takes the first of the unread text. -/
theorem takes_of_next (hs : s.Faithful last) (h : next s = .ok token t) :
    Takes last s.unread token t.rest ∧ t.Faithful last ∧ t.held = none := by
  unfold next at h
  split at h
  · next held hheld =>
      cases h
      exact ⟨Takes.of_held hs hheld, Scanner.faithful_of_none hs.line rfl, rfl⟩
  · next hheld => exact takes_of_cut hs hheld h

theorem next_eq_ok (hs : s.Faithful last) {rest : Text}
    (htakes : Takes last s.unread token rest) :
    ∃ t, next s = .ok token t ∧ t.Faithful last ∧ t.rest = rest ∧ t.held = none := by
  unfold next
  cases hheld : s.held with
  | none => exact cut_eq_ok hs hheld htakes
  | some held =>
      obtain ⟨rfl, hrest⟩ := (Takes.of_held hs hheld).unique htakes
      exact ⟨_, rfl, Scanner.faithful_of_none hs.line rfl, hrest, rfl⟩

/-- Looking ahead does not move the place of the scanner. -/
theorem takes_of_peek (hs : s.Faithful last) (h : peek s = .ok token t) :
    (∃ rest, Takes last s.unread token rest) ∧ t.Faithful last ∧ t.unread = s.unread := by
  unfold peek at h
  split at h
  · next held hheld =>
      cases h
      exact ⟨⟨s.rest, Takes.of_held hs hheld⟩, hs, rfl⟩
  · next hheld =>
      split at h
      · next u hcut =>
          cases h
          obtain ⟨htakes, hu, -⟩ := takes_of_cut hs hheld hcut
          refine ⟨⟨u.rest, htakes⟩, ⟨hu.line, ?_⟩, htakes.text_eq.symm⟩
          -- The scanner has moved past the token that it now holds, whose line is the old one.
          intro held h
          cases h
          refine ⟨htakes.cut, ?_⟩
          have hline := htakes.line
          have hplace := hs.line
          rw [lineAt, Scanner.unread_of_none hheld] at hline
          rw [← htakes.text_eq, Scanner.unread_of_none hheld]
          omega
      · cases h

theorem peek_eq_ok (hs : s.Faithful last) {rest : Text}
    (htakes : Takes last s.unread token rest) : ∃ t, peek s = .ok token t := by
  unfold peek
  cases hheld : s.held with
  | none =>
      obtain ⟨t, ht, -⟩ := cut_eq_ok hs hheld htakes
      simp only [ht]
      exact ⟨_, rfl⟩
  | some held =>
      obtain ⟨rfl, -⟩ := (Takes.of_held hs hheld).unique htakes
      exact ⟨s, rfl⟩

theorem next_of_expect {kind : Kind} (h : expect kind s = .ok token t) :
    next s = .ok token t ∧ token.kind = kind := by
  obtain ⟨taken, u, hnext, h⟩ := bind_eq_ok h
  split at h
  · next hkind =>
      cases h
      exact ⟨hnext, hkind⟩
  · cases h

theorem takes_of_expect (hs : s.Faithful last) {kind : Kind} (h : expect kind s = .ok token t) :
    Takes last s.unread token t.rest ∧ token.kind = kind ∧ t.Faithful last ∧ t.held = none := by
  obtain ⟨hnext, hkind⟩ := next_of_expect h
  obtain ⟨htakes, ht, hheld⟩ := takes_of_next hs hnext
  exact ⟨htakes, hkind, ht, hheld⟩

theorem expect_eq_ok (hs : s.Faithful last) {rest : Text}
    (htakes : Takes last s.unread token rest) :
    ∃ t, expect token.kind s = .ok token t ∧ t.Faithful last ∧ t.rest = rest ∧ t.held = none := by
  obtain ⟨t, hnext, ht, hrest, hheld⟩ := next_eq_ok hs htakes
  refine ⟨t, ?_, ht, hrest, hheld⟩
  rw [expect, bind_of_ok hnext, if_pos rfl]
  rfl

/-- Raw text ends at the first delimiter, which is left. A delimiter that
is no break does not come between two that belong together. -/
theorem raw_of_rawUntil {d : Char} (hd : isBreak d = false) (hs : s.Faithful last) {raw : Text}
    (h : rawUntil d s = .ok raw t) :
    ∃ tail, s.unread = raw ++ d :: tail ∧ d ∉ raw ∧ t.rest = d :: tail ∧ t.Faithful last ∧
      t.held = none := by
  unfold rawUntil at h
  split at h
  · cases h
  · next hheld =>
      have hsplit : s.rest.takeWhile (· != d) ++ s.rest.dropWhile (· != d) = s.rest :=
        List.takeWhile_append_dropWhile
      have hstop := stops_dropWhile (· != d) s.rest
      split at h
      · cases h
      · next hdrop =>
          cases h
          obtain ⟨c, tail, hrest⟩ := List.exists_cons_of_ne_nil hdrop
          rw [hrest] at hsplit hstop
          have hc : c = d := by simpa using hstop
          subst hc
          have hplace := hs.line
          rw [← hsplit, lineBreaks_append_of_stops (stops_cons.mpr hd)] at hplace
          refine ⟨tail, ?_, ?_, hrest, Scanner.faithful_of_none ?_ hheld, hheld⟩
          · rw [Scanner.unread_of_none hheld]
            exact hsplit.symm
          · intro hmem
            simpa using forall_mem_takeWhile (· != c) s.rest c hmem
          · rw [hrest]
            change s.line + lineBreaks _ + lineBreaks (c :: tail) = last
            omega

theorem rawUntil_eq_ok {d : Char} (hd : isBreak d = false) (hs : s.Faithful last)
    (hheld : s.held = none) {raw tail : Text} (hrest : s.rest = raw ++ d :: tail) (hraw : d ∉ raw) :
    ∃ t, rawUntil d s = .ok raw t ∧ t.Faithful last ∧ t.rest = d :: tail ∧ t.held = none := by
  have hmem : ∀ c ∈ raw, (c != d) = true := by
    intro c hc
    rw [bne_iff_ne]
    rintro rfl
    exact hraw hc
  have hstop : Stops (· != d) (d :: tail) := stops_cons.mpr (by simp)
  have htake : s.rest.takeWhile (· != d) = raw := by
    rw [hrest, takeWhile_append_of_stops hmem hstop]
  have hdrop : s.rest.dropWhile (· != d) = d :: tail := by
    rw [hrest, dropWhile_append_of_stops hmem hstop]
  have hplace := hs.line
  rw [hrest, lineBreaks_append_of_stops (stops_cons.mpr hd)] at hplace
  refine ⟨s.passRaw d raw (d :: tail), ?_, Scanner.faithful_of_none ?_ hheld, rfl, hheld⟩
  · unfold rawUntil
    rw [hheld]
    simp only [hdrop, htake]
  · change s.line + lineBreaks raw + lineBreaks (d :: tail) = last
    omega

/-! ### The judgment -/

/-- From a text with `before` to a text with `after`, `m` reads exactly
what the relation says. -/
structure Reads {α : Type} (last : Nat) (before after : Text → Prop) (m : Scan α)
    (R : Text → α → Text → Prop) : Prop where
  /-- A success is in the relation. -/
  sound : ∀ {s : Scanner} {a : α} {t : Scanner}, s.Faithful last → m s = .ok a t →
    R s.unread a t.unread ∧ t.Faithful last
  /-- What is in the relation is a success. -/
  complete : ∀ {s : Scanner} {a : α} {rest : Text}, s.Faithful last → R s.unread a rest →
    after rest → ∃ t, m s = .ok a t ∧ t.Faithful last ∧ t.unread = rest
  /-- The condition on the text after gives the one on the text before. -/
  opens : ∀ {text : Text} {a : α} {rest : Text}, R text a rest → after rest → before text

section

variable {α β : Type} {before after between : Text → Prop}

/-- Two relations are the same to an operation if they agree wherever
the text after has its property. -/
theorem Reads.congr {m : Scan α} {R R' : Text → α → Text → Prop}
    (h : Reads last before after m R) (hsound : ∀ text a rest, R text a rest → R' text a rest)
    (hcomplete : ∀ text a rest, R' text a rest → after rest → R text a rest) :
    Reads last before after m R' := by
  refine ⟨?_, ?_, ?_⟩
  · intro s a t hs ha
    obtain ⟨hR, ht⟩ := h.sound hs ha
    exact ⟨hsound _ _ _ hR, ht⟩
  · intro s a rest hs hR hafter
    exact h.complete hs (hcomplete _ _ _ hR hafter) hafter
  · intro text a rest hR hafter
    exact h.opens (hcomplete _ _ _ hR hafter) hafter

theorem reads_pure (a : α) :
    Reads last after after (pure a : Scan α) fun text b rest => b = a ∧ rest = text := by
  refine ⟨?_, ?_, ?_⟩
  · intro s b t hs h
    cases h
    exact ⟨⟨rfl, rfl⟩, hs⟩
  · rintro s b rest hs ⟨rfl, rfl⟩ -
    exact ⟨s, rfl, hs, rfl⟩
  · rintro text b rest ⟨-, rfl⟩ h
    exact h

/-- What never succeeds reads nothing. -/
theorem reads_false {m : Scan α} (h : ∀ s a t, m s ≠ .ok a t) :
    Reads last before after m fun _ _ _ => False := by
  refine ⟨?_, ?_, ?_⟩
  · intro s a t hs ha
    exact absurd ha (h s a t)
  · intro s a rest hs ha
    exact ha.elim
  · intro text a rest ha
    exact ha.elim

/-- What comes second has to be known only for the results that the
first can have. -/
theorem Reads.bind_of_mem {m : Scan α} {k : α → Scan β} {R : Text → α → Text → Prop}
    {S : α → Text → β → Text → Prop} (hm : Reads last before between m R)
    (hk : ∀ {text a mid}, R text a mid → Reads last between after (k a) (S a)) :
    Reads last before after (m >>= k) fun text b rest =>
      ∃ a mid, R text a mid ∧ S a mid b rest := by
  refine ⟨?_, ?_, ?_⟩
  · intro s b u hs h
    obtain ⟨a, t, h₁, h₂⟩ := bind_eq_ok h
    obtain ⟨hR, ht⟩ := hm.sound hs h₁
    obtain ⟨hS, hu⟩ := (hk hR).sound ht h₂
    exact ⟨⟨a, t.unread, hR, hS⟩, hu⟩
  · rintro s b rest hs ⟨a, mid, hR, hS⟩ hafter
    obtain ⟨t, h₁, ht, rfl⟩ := hm.complete hs hR ((hk hR).opens hS hafter)
    obtain ⟨u, h₂, hu, hrest⟩ := (hk hR).complete ht hS hafter
    exact ⟨u, (bind_of_ok h₁).trans h₂, hu, hrest⟩
  · rintro text b rest ⟨a, mid, hR, hS⟩ hafter
    exact hm.opens hR ((hk hR).opens hS hafter)

theorem Reads.bind {m : Scan α} {k : α → Scan β} {R : Text → α → Text → Prop}
    {S : α → Text → β → Text → Prop} (hm : Reads last before between m R)
    (hk : ∀ a, Reads last between after (k a) (S a)) :
    Reads last before after (m >>= k) fun text b rest =>
      ∃ a mid, R text a mid ∧ S a mid b rest :=
  hm.bind_of_mem fun _ => hk _

end

/-! ### Single operations -/

section

variable {before after : Text → Prop}

theorem reads_peekKind :
    Reads last after after peekKind fun text kind rest => rest = text ∧ Next text kind := by
  refine ⟨?_, ?_, ?_⟩
  · intro s kind u hs h
    obtain ⟨token, t, hpeek, hpure⟩ := bind_eq_ok h
    cases hpure
    obtain ⟨⟨rest, htakes⟩, ht, hunread⟩ := takes_of_peek hs hpeek
    exact ⟨⟨hunread, htakes.next⟩, ht⟩
  · rintro s kind rest hs ⟨rfl, text, rest, htext, hcut⟩ -
    have htakes : Takes last s.unread ⟨lineAt last s.unread, kind, text⟩ rest := ⟨htext, hcut, rfl⟩
    obtain ⟨t, hpeek⟩ := peek_eq_ok hs htakes
    obtain ⟨-, ht, hunread⟩ := takes_of_peek hs hpeek
    exact ⟨t, bind_of_ok hpeek, ht, hunread⟩
  · rintro text kind rest ⟨rfl, -⟩ h
    exact h

theorem reads_expect {kind : Kind} (hbefore : ∀ text, Next text kind → before text) :
    Reads last before after (expect kind) fun text token rest =>
      Takes last text token rest ∧ token.kind = kind := by
  refine ⟨?_, ?_, ?_⟩
  · intro s token t hs h
    obtain ⟨htakes, hkind, ht, hheld⟩ := takes_of_expect hs h
    rw [Scanner.unread_of_none hheld]
    exact ⟨⟨htakes, hkind⟩, ht⟩
  · rintro s token rest hs ⟨htakes, rfl⟩ -
    obtain ⟨t, hexpect, ht, hrest, hheld⟩ := expect_eq_ok hs htakes
    exact ⟨t, hexpect, ht, (Scanner.unread_of_none hheld).trans hrest⟩
  · rintro text token rest ⟨htakes, rfl⟩ -
    exact hbefore text htakes.next

/-- A token of a kind, and the raw text after it. Raw text is only read
where a token was taken just before, so that none is held. -/
def expectRaw (kind : Kind) (delimiter : Char) : Scan (Token × Text) := do
  let token ← expect kind
  let raw ← rawUntil delimiter
  return (token, raw)

theorem reads_expectRaw {kind : Kind} {d : Char} (hd : isBreak d = false)
    (hbefore : ∀ text, Next text kind → before text) :
    Reads last before after (expectRaw kind d) fun text found rest =>
      ∃ tail, Takes last text found.1 (found.2 ++ d :: tail) ∧ found.1.kind = kind ∧
        d ∉ found.2 ∧ rest = d :: tail := by
  refine ⟨?_, ?_, ?_⟩
  · intro s found v hs h
    obtain ⟨token, t, hexpect, h⟩ := bind_eq_ok h
    obtain ⟨raw, u, hraw, h⟩ := bind_eq_ok h
    cases h
    obtain ⟨htakes, hkind, ht, hheld⟩ := takes_of_expect hs hexpect
    obtain ⟨tail, hunread, hmem, hrest, hu, hheld'⟩ := raw_of_rawUntil hd ht hraw
    rw [Scanner.unread_of_none hheld] at hunread
    rw [hunread] at htakes
    refine ⟨⟨tail, htakes, hkind, hmem, ?_⟩, hu⟩
    rw [Scanner.unread_of_none hheld', hrest]
  · rintro s ⟨token, raw⟩ rest hs ⟨tail, htakes, rfl, hmem, rfl⟩ -
    obtain ⟨t, hexpect, ht, hrest, hheld⟩ := expect_eq_ok hs htakes
    obtain ⟨u, hraw, hu, hrest', hheld'⟩ := rawUntil_eq_ok hd ht hheld hrest hmem
    refine ⟨u, ?_, hu, (Scanner.unread_of_none hheld').trans hrest'⟩
    rw [expectRaw, bind_of_ok hexpect, bind_of_ok hraw]
    rfl
  · rintro text ⟨token, raw⟩ rest ⟨tail, htakes, rfl, -⟩ -
    exact hbefore text htakes.next

theorem reads_note (event : Event) :
    Reads last after after (note event) fun text _ rest => rest = text := by
  refine ⟨?_, ?_, ?_⟩
  · intro s a t hs h
    cases h
    exact ⟨rfl, ⟨hs.line, hs.held⟩⟩
  · rintro s a rest hs rfl -
    exact ⟨_, rfl, ⟨hs.line, hs.held⟩, rfl⟩
  · rintro text a rest rfl h
    exact h

end

/-! ### Repetition -/

/-- A step related to itself again and again, until it finds nothing. -/
inductive Repeats {α : Type} (R : Text → Option α → Text → Prop) : Text → List α → Text → Prop
  | done {text rest : Text} (h : R text none rest) : Repeats R text [] rest
  | more {text mid rest : Text} {a : α} {as : List α} (h : R text (some a) mid)
      (hrest : Repeats R mid as rest) : Repeats R text (a :: as) rest

theorem reads_many {α : Type} {within : Text → Prop} {step : Scan (Option α)}
    (hadvancing : Advancing step) {R : Text → Option α → Text → Prop}
    (h : Reads last within within step R) :
    Reads last within within (many step hadvancing) (Repeats R) := by
  have hopens : ∀ {text as rest}, Repeats R text as rest → within rest → within text := by
    intro text as rest hR hrest
    induction hR with
    | done hR => exact h.opens hR hrest
    | more hR hmore ih => exact h.opens hR (ih hrest)
  refine ⟨?_, ?_, hopens⟩
  -- Soundness follows the loop itself, and completeness the derivation.
  · intro s
    fun_induction many step hadvancing s with
    | case1 s e t hstep => intro as u hs hu; cases hu
    | case2 s t hstep =>
        intro as u hs hu
        cases hu
        obtain ⟨hR, ht⟩ := h.sound hs hstep
        exact ⟨.done hR, ht⟩
    | case3 s a t hstep hlt bs u hmany ih =>
        intro as v hs hv
        cases hv
        obtain ⟨hR, ht⟩ := h.sound hs hstep
        obtain ⟨hmore, hu⟩ := ih ht hmany
        exact ⟨.more hR hmore, hu⟩
    | case4 s a t hstep hlt e u hmany ih => intro as v hs hv; cases hv
  · intro s as rest hs hR hrest
    generalize htext : s.unread = text at hR
    induction hR generalizing s with
    | done hR =>
        subst htext
        obtain ⟨t, hstep, ht, hunread⟩ := h.complete hs hR hrest
        refine ⟨t, ?_, ht, hunread⟩
        rw [many]
        split
        · next hs' => rw [hstep] at hs'; cases hs'
        · next hs' => rw [hstep] at hs'; cases hs'; rfl
        · next hs' => rw [hstep] at hs'; cases hs'
    | more hR hmore ih =>
        subst htext
        obtain ⟨t, hstep, ht, hunread⟩ := h.complete hs hR (hopens hmore hrest)
        obtain ⟨u, hmany, hu, hrest'⟩ := ih ht hrest hunread
        refine ⟨u, ?_, hu, hrest'⟩
        rw [many]
        split
        · next hs' => rw [hstep] at hs'; cases hs'
        · next hs' => rw [hstep] at hs'; cases hs'
        · next hs' =>
            rw [hstep] at hs'
            cases hs'
            rw [hmany]

end Scan

end StoredProc
