import StoredProc.Proofs.Scanner.Invariant

/-!
Two runs of the same operations, side by side, on two scripts that have
something in common. A `Coupling` says when two scanners are at
corresponding places and which tokens and failures count for the same.
The second run need not be followed to the end: the first may get
*lost*, and then nothing more is asked of the second, or it may fail
*late*, as it does once it is lost.

`Scan.Follows` is the judgment: what the first run does from a place, the
second does from the corresponding one. It passes through `bind`, so
there is little to check of a coupling, and `Coupling.Lawful` lists it:
how a token is cut off, how it is dropped, and how raw text is passed.
-/

namespace StoredProc

def Scanner.drop (s : Scanner) : Scanner := { s with held := none }

def Scanner.hold (s : Scanner) (token : Token) : Scanner := { s with held := some token }

namespace Scan

variable {α β γ δ : Type} {s s' t t' : Scanner} {token : Token} {e : SyntaxError} {kind : Kind}
  {d : Char}

/-! ### Looking and then taking -/

theorem peek_of_held (h : s.held = some token) : peek s = .ok token s := by
  rw [peek, h]

theorem peek_of_cut (hheld : s.held = none) (h : cut s = .ok token t) :
    peek s = .ok token (t.hold token) := by
  simp only [peek, hheld, h, Scanner.hold]

theorem peek_of_cut_error (hheld : s.held = none) (h : cut s = .error e t) :
    peek s = .error e t := by
  simp only [peek, hheld, h]

/-- To take a token is to look at it and to let it go. -/
theorem next_of_peek (h : peek s = .ok token t) : next s = .ok token t.drop := by
  unfold peek at h
  unfold next
  split at h
  · next hheld =>
      cases h
      simp only [Scanner.drop]
  · next hheld =>
      split at h
      · next u hcut =>
          cases h
          obtain ⟨-, -, -, -, hsame⟩ := spec_of_cut hcut
          have hdrop : ({ u with held := some token } : Scanner).drop = u := by
            rw [Scanner.drop, ← hheld, ← hsame]
          simp only [hcut, hdrop]
      · cases h

theorem next_of_peek_error (h : peek s = .error e t) : next s = .error e t := by
  obtain ⟨hheld, hcut⟩ := peek_eq_error h
  simp only [next, hheld, hcut]

/-- To take a token is to look at it and let go of it. -/
theorem Keeps.next_of_peek {inv : Scanner → Prop} {fault : SyntaxError → Scanner → Prop}
    (h : Keeps inv fault peek) (hdrop : ∀ {s : Scanner}, inv s → inv s.drop) :
    Keeps inv fault next := by
  refine ⟨?_, ?_⟩
  · intro s token t hs hnext
    cases hpeek : peek s with
    | ok found u =>
        rw [Scan.next_of_peek hpeek] at hnext
        cases hnext
        exact hdrop (h.ok hs hpeek)
    | error e u =>
        rw [next_of_peek_error hpeek] at hnext
        cases hnext
  · intro s e t hs hnext
    cases hpeek : peek s with
    | ok found u =>
        rw [Scan.next_of_peek hpeek] at hnext
        cases hnext
    | error e' u =>
        rw [next_of_peek_error hpeek] at hnext
        cases hnext
        exact h.error hs hpeek

theorem expect_of_next (h : next s = .ok token t) (hkind : token.kind = kind) :
    expect kind s = .ok token t := by
  rw [expect, bind_of_ok h, if_pos hkind]
  rfl

theorem expect_of_next_ne (h : next s = .ok token t) (hkind : token.kind ≠ kind) :
    expect kind s = .error (.mismatch kind token) t := by
  rw [expect, bind_of_ok h, if_neg hkind]
  rfl

theorem expect_of_peek (h : peek s = .ok token t) (hkind : token.kind = kind) :
    expect kind s = .ok token t.drop :=
  expect_of_next (next_of_peek h) hkind

theorem expect_of_peek_ne (h : peek s = .ok token t) (hkind : token.kind ≠ kind) :
    expect kind s = .error (.mismatch kind token) t.drop :=
  expect_of_next_ne (next_of_peek h) hkind

theorem held_of_next (h : next s = .ok token t) : t.held = none := by
  unfold next at h
  split at h
  · cases h
    rfl
  · next hheld =>
      obtain ⟨-, -, -, -, hsame⟩ := spec_of_cut h
      exact hsame.trans hheld

theorem expect_of_peek_error (h : peek s = .error e t) : expect kind s = .error e t := by
  rw [expect, bind_of_error (next_of_peek_error h)]

/-! ### Raw text -/

theorem rawUntil_of_not_mem (hheld : s.held = none) (h : d ∉ s.rest) :
    rawUntil d s = .error (.missingDelimiter s.line d) s := by
  have hmem : ∀ c ∈ s.rest, (c != d) = true := by
    intro c hc
    rw [bne_iff_ne]
    rintro rfl
    exact h hc
  have hdrop : s.rest.dropWhile (· != d) = [] := by
    rw [← List.append_nil s.rest, Text.dropWhile_append_of_stops hmem Text.stops_nil]
  simp only [rawUntil, hheld, hdrop]

theorem rawUntil_of_eq (hheld : s.held = none) {raw more : Text} (h : s.rest = raw ++ d :: more)
    (hraw : d ∉ raw) : rawUntil d s = .ok raw (s.passRaw d raw (d :: more)) := by
  have hmem : ∀ c ∈ raw, (c != d) = true := by
    intro c hc
    rw [bne_iff_ne]
    rintro rfl
    exact hraw hc
  have hstop : Text.Stops (· != d) (d :: more) := Text.stops_cons.mpr (by simp)
  have htake : s.rest.takeWhile (· != d) = raw := by
    rw [h, Text.takeWhile_append_of_stops hmem hstop]
  have hdrop : s.rest.dropWhile (· != d) = d :: more := by
    rw [h, Text.dropWhile_append_of_stops hmem hstop]
  simp only [rawUntil, hheld, hdrop, htake]

/-- Raw text ends in front of the first delimiter. -/
theorem rawUntil_eq_ok_cases {raw : Text} (h : rawUntil d s = .ok raw t) :
    s.held = none ∧ ∃ more, s.rest = raw ++ d :: more ∧ d ∉ raw ∧
      t = s.passRaw d raw (d :: more) := by
  cases hheld : s.held with
  | some held =>
      rw [rawUntil, hheld] at h
      cases h
  | none =>
      by_cases hmem : d ∈ s.rest
      · obtain ⟨front, more, hsplit, hfront⟩ := List.eq_append_cons_of_mem hmem
        rw [rawUntil_of_eq hheld hsplit hfront] at h
        cases h
        exact ⟨rfl, more, hsplit, hfront, rfl⟩
      · rw [rawUntil_of_not_mem hheld hmem] at h
        cases h

/-! ### The judgment -/

/-- How two runs go together. -/
structure Coupling where
  /-- The scanners are at corresponding places. -/
  rel : Scanner → Scanner → Prop
  /-- From here on nothing is asked of the second run. -/
  lost : Scanner → Prop
  /-- The tokens count for the same. -/
  token : Token → Token → Prop
  /-- A failure of the first run that says nothing about the second. -/
  late : SyntaxError → Prop
  /-- The failures count for the same. -/
  same : SyntaxError → SyntaxError → Prop

/-- The outcome of a run that is lost, or gets lost. -/
inductive Stray (c : Coupling) (P : α → β → Prop) :
    EStateM.Result SyntaxError Scanner α → Prop
  | ok {a : α} {b : β} {t : Scanner} (h : P a b) (ht : c.lost t) : Stray c P (.ok a t)
  | error {e : SyntaxError} {t : Scanner} (h : c.late e) : Stray c P (.error e t)

/-- Two outcomes agree, unless the first has gone astray. -/
inductive Agree (c : Coupling) (P : α → β → Prop) :
    EStateM.Result SyntaxError Scanner α → EStateM.Result SyntaxError Scanner β → Prop
  | ok {a : α} {b : β} {t t' : Scanner} (h : P a b) (ht : c.rel t t') :
      Agree c P (.ok a t) (.ok b t')
  | error {e e' : SyntaxError} {t t' : Scanner} (h : c.same e e') :
      Agree c P (.error e t) (.error e' t')
  | stray {r : EStateM.Result SyntaxError Scanner α} {r' : EStateM.Result SyntaxError Scanner β}
      (h : Stray c P r) : Agree c P r r'

/-- What `m` does from a place, `m'` does from the corresponding one. -/
structure Follows (c : Coupling) (P : α → β → Prop) (m : Scan α) (m' : Scan β) : Prop where
  rel : ∀ {s s'}, c.rel s s' → Agree c P (m s) (m' s')
  lost : ∀ {s}, c.lost s → Stray c P (m s)

variable {c : Coupling}

theorem follows_pure {P : α → β → Prop} {a : α} {b : β} (h : P a b) :
    Follows c P (pure a : Scan α) (pure b) :=
  ⟨fun hs => .ok h hs, fun hs => .ok h hs⟩

theorem Stray.bind {P : α → β → Prop} {Q : γ → δ → Prop} {m : Scan α} {k : α → Scan γ}
    {k' : β → Scan δ} (h : Stray c P (m s)) (hk : ∀ a b, P a b → Follows c Q (k a) (k' b)) :
    Stray c Q ((m >>= k) s) := by
  generalize hm : m s = r at h
  cases h with
  | ok h ht =>
      rw [bind_of_ok hm]
      exact (hk _ _ h).lost ht
  | error h =>
      rw [bind_of_error hm]
      exact .error h

theorem Agree.bind {P : α → β → Prop} {Q : γ → δ → Prop} {m : Scan α} {m' : Scan β}
    {k : α → Scan γ} {k' : β → Scan δ} (h : Agree c P (m s) (m' s'))
    (hk : ∀ a b, P a b → Follows c Q (k a) (k' b)) : Agree c Q ((m >>= k) s) ((m' >>= k') s') := by
  generalize hm : m s = r at h
  generalize hm' : m' s' = r' at h
  cases h with
  | ok h ht =>
      rw [bind_of_ok hm, bind_of_ok hm']
      exact (hk _ _ h).rel ht
  | error h =>
      rw [bind_of_error hm, bind_of_error hm']
      exact .error h
  | stray h =>
      rw [← hm] at h
      exact .stray (h.bind hk)

theorem Follows.bind {P : α → β → Prop} {Q : γ → δ → Prop} {m : Scan α} {m' : Scan β}
    {k : α → Scan γ} {k' : β → Scan δ} (hm : Follows c P m m')
    (hk : ∀ a b, P a b → Follows c Q (k a) (k' b)) : Follows c Q (m >>= k) (m' >>= k') :=
  ⟨fun hs => (hm.rel hs).bind hk, fun hs => (hm.lost hs).bind hk⟩

/-! ### Repetition -/

section

variable {step : Scan (Option α)} (hadvancing : Advancing step)

theorem many_of_error (h : step s = .error e t) : many step hadvancing s = .error e t := by
  rw [many]
  split
  · next h' => rw [h] at h'; cases h'; rfl
  · next h' => rw [h] at h'; cases h'
  · next h' => rw [h] at h'; cases h'

theorem many_of_none (h : step s = .ok none t) : many step hadvancing s = .ok [] t := by
  rw [many]
  split
  · next h' => rw [h] at h'; cases h'
  · next h' => rw [h] at h'; cases h'; rfl
  · next h' => rw [h] at h'; cases h'

theorem many_of_some {a : α} (h : step s = .ok (some a) t) :
    many step hadvancing s =
      (do let as ← many step hadvancing; return a :: as : Scan (List α)) t := by
  change _ = EStateM.bind (many step hadvancing) _ t
  rw [many, EStateM.bind]
  split
  · next h' => rw [h] at h'; cases h'
  · next h' => rw [h] at h'; cases h'
  · next h' =>
      rw [h] at h'
      cases h'
      cases many step hadvancing t <;> rfl

/-- A repetition is a step, and the repetition again if it has found
something. -/
theorem many_eq :
    many step hadvancing = (do
      match ← step with
      | none => return []
      | some a => return a :: (← many step hadvancing) : Scan (List α)) := by
  funext s
  cases h : step s with
  | error e t => rw [many_of_error hadvancing h, bind_of_error h]
  | ok found t =>
      rw [bind_of_ok h]
      cases found with
      | none =>
          rw [many_of_none hadvancing h]
          rfl
      | some a =>
          rw [many_of_some hadvancing h]

end

section

variable {view : α → γ} {view' : β → γ} {step : Scan (Option α)} {step' : Scan (Option β)}
  (hadvancing : Advancing step) (hadvancing' : Advancing step')

theorem Stray.many (h : Follows c (fun a b => a.map view = b.map view') step step')
    (s : Scanner) (hs : c.lost s) :
    Stray c (fun as (bs : List β) => as.map view = bs.map view') (many step hadvancing s) := by
  have hstray := h.lost hs
  generalize hstep : step s = r at hstray
  cases hstray with
  | error he =>
      rw [many_of_error hadvancing hstep]
      exact .error he
  | @ok found found' t hview ht =>
      cases found with
      | none =>
          rw [many_of_none hadvancing hstep]
          exact .ok (b := []) rfl ht
      | some a =>
          have hrest := Stray.many h t ht
          obtain ⟨b, rfl, hb⟩ := Option.map_eq_some_iff.mp hview.symm
          rw [many_of_some hadvancing hstep]
          refine hrest.bind fun as bs has => follows_pure (b := b :: bs) ?_
          rw [List.map_cons, List.map_cons, has, hb]
termination_by s.size
decreasing_by exact hadvancing hstep

theorem Agree.many (h : Follows c (fun a b => a.map view = b.map view') step step')
    (s s' : Scanner) (hs : c.rel s s') :
    Agree c (fun as bs => as.map view = bs.map view') (many step hadvancing s)
      (many step' hadvancing' s') := by
  have hagree := h.rel hs
  generalize hstep : step s = r at hagree
  generalize hstep' : step' s' = r' at hagree
  cases hagree with
  | error he =>
      rw [many_of_error hadvancing hstep, many_of_error hadvancing' hstep']
      exact .error he
  | @ok found found' t t' hview ht =>
      cases found with
      | none =>
          obtain rfl := Option.map_eq_none_iff.mp hview.symm
          rw [many_of_none hadvancing hstep, many_of_none hadvancing' hstep']
          exact .ok rfl ht
      | some a =>
          have hrest := Agree.many h t t' ht
          obtain ⟨b, rfl, hb⟩ := Option.map_eq_some_iff.mp hview.symm
          rw [many_of_some hadvancing hstep, many_of_some hadvancing' hstep']
          refine hrest.bind fun as bs has => follows_pure ?_
          rw [List.map_cons, List.map_cons, has, hb]
  | stray hstray =>
      -- The first run is lost in this step, and stays so in those after it.
      cases hstray with
      | error he =>
          rw [many_of_error hadvancing hstep]
          exact .stray (.error he)
      | @ok found found' t hview ht =>
          cases found with
          | none =>
              rw [many_of_none hadvancing hstep]
              exact .stray (.ok (b := []) rfl ht)
          | some a =>
              obtain ⟨b, rfl, hb⟩ := Option.map_eq_some_iff.mp hview.symm
              rw [many_of_some hadvancing hstep]
              refine .stray ((Stray.many hadvancing h t ht).bind fun as bs has =>
                follows_pure (b := b :: bs) ?_)
              rw [List.map_cons, List.map_cons, has, hb]
termination_by s.size
decreasing_by exact hadvancing hstep

/-- Where a step finds something the other does, and what is found agrees
item by item. -/
theorem follows_many (h : Follows c (fun a b => a.map view = b.map view') step step') :
    Follows c (fun as bs => as.map view = bs.map view') (many step hadvancing)
      (many step' hadvancing') :=
  ⟨fun hs => Agree.many hadvancing hadvancing' h _ _ hs, fun hs => Stray.many hadvancing h _ hs⟩

end

/-! ### What there is to check -/

/-- What has to be checked of a coupling for the judgment to hold
wherever a script is read. -/
structure Coupling.Lawful (c : Coupling) : Prop where
  /-- What is lost stays lost, and fails late. -/
  lost : Invariant c.lost fun e _ => c.late e
  refl : ∀ {token : Token}, token.Spelt → c.token token token
  spelt : ∀ {token token'}, c.token token token' → token.Spelt ∧ token'.Spelt
  kind : ∀ {token token'}, c.token token token' → token.kind = token'.kind
  name : ∀ {token token'}, c.token token token' → token.kind = .name → token.text = token'.text
  mismatch : ∀ {token token'}, c.token token token' → ∀ kind,
    c.same (.mismatch kind token) (.mismatch kind token')
  unexpected : ∀ {token token'}, c.token token token' → ∀ expected,
    c.same (.unexpected expected token) (.unexpected expected token')
  held : ∀ {s s'}, c.rel s s' → Option.Rel c.token s.held s'.held
  /-- A token is looked at in both. -/
  peek : ∀ {s s'}, c.rel s s' → s.held = none → s'.held = none →
    Agree c c.token (Scan.peek s) (Scan.peek s')
  drop : ∀ {s s'}, c.rel s s' → c.lost s.drop ∨ c.rel s.drop s'.drop
  /-- Raw text is passed in both. -/
  raw : ∀ {s s'} {kind : Kind} {d : Char}, kind.closer? = some d → c.rel s s' → s.held = none →
    s'.held = none →
    Agree c (fun raw raw' => raw = raw') (rawUntil d s) (rawUntil d s')
  lostRaw : ∀ {s} {kind : Kind} {d : Char}, kind.closer? = some d → c.lost s → s.held = none →
    Stray c (fun raw raw' => raw = raw') (rawUntil d s)
  trace : ∀ {s s'} statement statement', c.rel s s' →
    c.rel { s with trace := .parsed statement :: s.trace }
      { s' with trace := .parsed statement' :: s'.trace }

/-- Of what is lost, the invariant says enough. -/
theorem stray_of_keeps {P : α → β → Prop} {m : Scan α}
    (hkeeps : Keeps c.lost (fun e _ => c.late e) m) (hs : c.lost s)
    (hvalue : ∀ {a t}, m s = .ok a t → ∃ b, P a b) : Stray c P (m s) := by
  cases hm : m s with
  | ok a t =>
      obtain ⟨b, hb⟩ := hvalue hm
      exact .ok hb (hkeeps.ok hs hm)
  | error e t => exact .error (hkeeps.error hs hm)

def Coupling.Takes (c : Coupling) (kind : Kind) (token token' : Token) : Prop :=
  c.token token token' ∧ token.kind = kind

/-- Tokens that count for the same, and the raw text behind them, which is
the same. -/
def Coupling.Opens (c : Coupling) (kind : Kind) (found found' : Token × Text) : Prop :=
  c.Takes kind found.1 found'.1 ∧ found.2 = found'.2

namespace Coupling.Lawful

theorem follows_peek (h : c.Lawful) : Follows c c.token Scan.peek Scan.peek := by
  refine ⟨?_, ?_⟩
  · intro s s' hs
    cases hheld : s.held with
    | none =>
        have hheld' := h.held hs
        rw [hheld] at hheld'
        generalize hother : s'.held = other at hheld'
        cases hheld'
        exact h.peek hs hheld hother
    | some token =>
        have hheld' := h.held hs
        rw [hheld] at hheld'
        generalize hother : s'.held = other at hheld'
        cases hheld' with
        | some htoken =>
            rw [peek_of_held hheld, peek_of_held hother]
            exact .ok htoken hs
  · intro s hs
    refine stray_of_keeps h.lost.peek hs ?_
    intro token t hpeek
    exact ⟨token, h.refl (h.lost.spelt hs (next_of_peek hpeek))⟩

theorem follows_expect (h : c.Lawful) (kind : Kind) :
    Follows c (c.Takes kind) (expect kind) (expect kind) := by
  have hlost {s : Scanner} (hs : c.lost s) : Stray c (c.Takes kind) (expect kind s) := by
    refine stray_of_keeps (h.lost.expect kind) hs ?_
    intro token t hexpect
    obtain ⟨hnext, hkind⟩ := next_of_expect hexpect
    exact ⟨token, h.refl (h.lost.spelt hs hnext), hkind⟩
  refine ⟨?_, hlost⟩
  intro s s' hs
  have hagree := h.follows_peek.rel hs
  generalize hpeek : Scan.peek s = r at hagree
  generalize hpeek' : Scan.peek s' = r' at hagree
  cases hagree with
  | error he =>
      rw [expect_of_peek_error hpeek, expect_of_peek_error hpeek']
      exact .error he
  | @ok token token' t t' htoken ht =>
      by_cases hkind : token.kind = kind
      · rw [expect_of_peek hpeek hkind, expect_of_peek hpeek' (h.kind htoken ▸ hkind)]
        rcases h.drop ht with hdrop | hdrop
        · exact .stray (.ok ⟨htoken, hkind⟩ hdrop)
        · exact .ok ⟨htoken, hkind⟩ hdrop
      · rw [expect_of_peek_ne hpeek hkind, expect_of_peek_ne hpeek' (h.kind htoken ▸ hkind)]
        exact .error (h.mismatch htoken kind)
  | stray hstray =>
      cases hstray with
      | error he =>
          rw [expect_of_peek_error hpeek]
          exact .stray (.error he)
      | @ok token token' t htoken ht =>
          -- To take what is held already is to take it from where the first run is lost.
          have hsame : expect kind s = expect kind t := by
            have hagain := peek_of_held (held_of_peek hpeek)
            by_cases hkind : token.kind = kind
            · rw [expect_of_peek hpeek hkind, expect_of_peek hagain hkind]
            · rw [expect_of_peek_ne hpeek hkind, expect_of_peek_ne hagain hkind]
          rw [hsame]
          exact .stray (hlost ht)

/-- Raw text behind the token that opens it. -/
theorem follows_expectRaw (h : c.Lawful) {kind : Kind} {d : Char}
    (hopen : kind.closer? = some d) :
    Follows c (c.Opens kind) (expectRaw kind d) (expectRaw kind d) := by
  have hstray {s t : Scanner} {token token' : Token} (hexpect : expect kind s = .ok token t)
      (htoken : c.Takes kind token token') (ht : c.lost t) :
      Stray c (c.Opens kind) (expectRaw kind d s) := by
    have hheld := held_of_next (next_of_expect hexpect).1
    rw [expectRaw, bind_of_ok hexpect]
    exact (h.lostRaw hopen ht hheld).bind fun raw raw' hraw =>
      follows_pure (b := (token', raw')) ⟨htoken, hraw⟩
  refine ⟨?_, ?_⟩
  · intro s s' hs
    have hagree := (h.follows_expect kind).rel hs
    generalize hexpect : expect kind s = r at hagree
    generalize hexpect' : expect kind s' = r' at hagree
    cases hagree with
    | error he =>
        rw [expectRaw, bind_of_error hexpect, bind_of_error hexpect']
        exact .error he
    | ok htoken ht =>
        have hheld := held_of_next (next_of_expect hexpect).1
        have hheld' := held_of_next (next_of_expect hexpect').1
        rw [expectRaw, bind_of_ok hexpect, bind_of_ok hexpect']
        exact (h.raw hopen ht hheld hheld').bind fun raw raw' hraw =>
          follows_pure ⟨htoken, hraw⟩
    | stray hlost =>
        cases hlost with
        | error he =>
            rw [expectRaw, bind_of_error hexpect]
            exact .stray (.error he)
        | ok htoken ht => exact .stray (hstray hexpect htoken ht)
  · intro s hs
    have hlost := (h.follows_expect kind).lost hs
    generalize hexpect : expect kind s = r at hlost
    cases hlost with
    | error he =>
        rw [expectRaw, bind_of_error hexpect]
        exact .error he
    | ok htoken ht => exact hstray hexpect htoken ht

end Coupling.Lawful

end Scan

end StoredProc
