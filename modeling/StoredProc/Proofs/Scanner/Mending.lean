import StoredProc.Proofs.Scanner.Lockstep

/-!
What was read up to an error can be mended: some text, put in place of
what the error is about, makes the operation succeed. `Scan.Mends` is the
judgment. It passes through `bind`, so it is checked for single
operations and then read off the forms of the language.

An operation is not alone. In front of it stands a token that must not go
on into the text that is put in, and behind it comes whatever the next
operation takes. So a success has to be repeated with another text behind
it, and two relations say which: `after` holds between the text that was
left and one that may come in its place, and `before` is what the
operation itself can promise in turn. The texts that are put in are the
same for all values an operation may depend on, which is why the judgment
is about a family of operations.

Operations that begin with a token and take it *commit* themselves: what
is put in for them begins with such a token as well.
-/

namespace StoredProc

open Text

/-! ### Samples -/

def Kind.sample : Kind → Text
  | keyword k => k.spelling
  | leftParen => ['(']
  | rightParen => [')']
  | equal => ['=']
  | colon => [':']
  | comma => [',']
  | semicolon => [';']
  | quote => ['"']
  | quotePair => ['"', '"']
  | apostrophe => ['\x27']
  | apostrophePair => ['\x27', '\x27']
  | dollar => ['$']
  | name => ['x']
  | blank => [' ']
  | eof => []

theorem Kind.cut_sample (kind : Kind) {rest : Text} (h : Stops kind.goesOn rest) :
    Cut kind kind.sample rest := by
  cases kind with
  | keyword k => exact .keyword (by cases k <;> decide) (by cases k <;> decide) h
  | name =>
      refine .name (by decide) ?_ h
      intro k
      cases k <;> decide
  | blank => exact .blank (by decide) (by decide) h
  | quote | apostrophe => exact .quote rfl h
  | quotePair | apostrophePair => exact .quotePair rfl
  | eof => exact Cut.of_stops .eof h
  | leftParen | rightParen | equal | colon | comma | semicolon | dollar => exact .punctuation rfl

theorem Kind.goesOn_space_of_closer? {kind : Kind} {d : Char} (h : kind.closer? = some d) :
    kind.goesOn ' ' = false := by
  unfold closer? at h
  split at h <;> cases h <;> rfl

/-- The text that an error is about and all that follows it. Raw text
that is not closed lacks something at the end. -/
def SyntaxError.blamed (s : Scanner) : SyntaxError → Text
  | unexpectedSymbol _ _ => s.rest
  | mismatch _ found => found.text ++ s.rest
  | unexpected _ found => found.text ++ s.rest
  | misspelt _ found => found.text ++ s.rest
  | missingDelimiter _ _ => []
  | heldToken _ _ => []

namespace Scan

variable {α β γ δ : Type} {n n' last : Nat} {s t : Scanner} {e : SyntaxError} {token : Token}
  {kind : Kind} {text mid rest : Text}

/-! ### What an error is about -/

theorem blamed_of_peek_error (h : peek s = .error e t) : e.blamed t = s.unread := by
  obtain ⟨hheld, hcut⟩ := peek_eq_error h
  obtain ⟨c, -, rfl, rfl⟩ := cut_eq_error hcut
  exact (Scanner.unread_of_none hheld).symm

theorem blamed_of_peekKind_error (h : peekKind s = .error e t) : e.blamed t = s.unread := by
  rcases bind_eq_error h with h | ⟨token, u, -, h⟩
  · exact blamed_of_peek_error h
  · cases h

theorem blamed_of_expect_error (hs : s.Faithful last) (h : expect kind s = .error e t) :
    e.blamed t = s.unread := by
  rcases expect_eq_error h with h | ⟨token, hnext, -, rfl⟩
  · obtain ⟨hheld, hcut⟩ := next_eq_error h
    obtain ⟨c, -, rfl, rfl⟩ := cut_eq_error hcut
    exact (Scanner.unread_of_none hheld).symm
  · exact (takes_of_next hs hnext).1.text_eq.symm

/-! ### Passing a text -/

/-- Where `text` is unread, every operation of the family takes it as far
as `rest`. -/
def Passes (m : γ → Scan α) (text rest : Text) : Prop :=
  ∀ ⦃g last s⦄, s.Faithful last → s.unread = text →
    ∃ a t, m g s = .ok a t ∧ t.Faithful last ∧ t.unread = rest

theorem passes_pure (value : γ → α) (text : Text) :
    Passes (fun g => (pure (value g) : Scan α)) text text :=
  fun _ _ _ hs hunread => ⟨_, _, rfl, hs, hunread⟩

theorem Passes.bind {m : γ → Scan α} {k : γ → α → Scan β} (hm : Passes m text mid)
    (hk : Passes (fun p : γ × α => k p.1 p.2) mid rest) :
    Passes (fun g => m g >>= k g) text rest := by
  intro g last s hs hunread
  obtain ⟨a, t, hok, ht, hmid⟩ := hm (g := g) hs hunread
  obtain ⟨b, u, hok', hu, hrest⟩ := hk (g := (g, a)) ht hmid
  exact ⟨b, u, (bind_of_ok hok).trans hok', hu, hrest⟩

theorem Passes.comap {m : γ → Scan α} (h : Passes m text rest) (f : δ → γ) :
    Passes (fun d => m (f d)) text rest :=
  fun _ _ _ hs hunread => h hs hunread

theorem passes_expect (h : Cut kind text rest) :
    Passes (fun _ : γ => expect kind) (text ++ rest) rest := by
  intro g last s hs hunread
  have htakes : Takes last s.unread ⟨lineAt last s.unread, kind, text⟩ rest := ⟨hunread, h, rfl⟩
  obtain ⟨t, hexpect, ht, hrest, hheld⟩ := expect_eq_ok hs htakes
  exact ⟨_, t, hexpect, ht, (Scanner.unread_of_none hheld).trans hrest⟩

theorem passes_expectRaw {d : Char} (hopen : kind.closer? = some d) {raw tail : Text}
    (h : Cut kind text (raw ++ d :: tail)) (hraw : d ∉ raw) :
    Passes (fun _ : γ => expectRaw kind d) (text ++ (raw ++ d :: tail)) (d :: tail) := by
  intro g last s hs hunread
  have htakes : Takes last s.unread ⟨lineAt last s.unread, kind, text⟩ (raw ++ d :: tail) :=
    ⟨hunread, h, rfl⟩
  have hreads : Reads last (fun _ => True) (fun _ => True) (expectRaw kind d) _ :=
    reads_expectRaw (Kind.isBreak_of_closer? hopen) fun _ _ => trivial
  obtain ⟨t, hexpect, ht, hrest⟩ :=
    hreads.complete (a := (⟨lineAt last s.unread, kind, text⟩, raw)) hs
      ⟨tail, htakes, rfl, hraw, rfl⟩ trivial
  exact ⟨_, t, hexpect, ht, hrest⟩

theorem peekKind_ok (hs : s.Faithful last) (h : peekKind s = .ok kind t) :
    Next s.unread kind ∧ t.Faithful last ∧ t.unread = s.unread := by
  have hreads : Reads last (fun _ => True) (fun _ => True) peekKind _ := reads_peekKind
  obtain ⟨⟨hunread, hnext⟩, ht⟩ := hreads.sound hs h
  exact ⟨hnext, ht, hunread⟩

theorem passes_peekKind {f : γ → Kind → Scan α} (h : Next text kind)
    (hf : Passes (fun g => f g kind) text rest) : Passes (fun g => peekKind >>= f g) text rest := by
  intro g last s hs hunread
  have hreads : Reads last (fun _ => True) (fun _ => True) peekKind _ := reads_peekKind
  obtain ⟨t, hpeek, ht, htext⟩ := hreads.complete (a := kind) hs ⟨rfl, hunread ▸ h⟩ trivial
  obtain ⟨a, u, hok, hu, hrest⟩ := hf (g := g) ht (htext.trans hunread)
  exact ⟨a, u, (bind_of_ok hpeek).trans hok, hu, hrest⟩

/-! ### The judgment -/

/-- What was taken of `place` can be taken in front of any text that
`after` allows in the place of what was left. -/
def Renews (after before : Text → Text → Prop) (m : γ → Scan α) (place left : Text) : Prop :=
  ∃ front, place = front ++ left ∧ ∀ text, after left text →
    before place (front ++ text) ∧ Passes m (front ++ text) text

/-- There is a text to put in where nothing was taken. -/
def Fills (after before : Text → Text → Prop) (m : γ → Scan α) : Prop :=
  ∃ filling, ∀ text, (∀ place, after place text) →
    (∀ place, before place (filling ++ text)) ∧ Passes m (filling ++ text) text

/-- There is a text to put in for what is blamed in `place`. -/
def Repairs (after before : Text → Text → Prop) (m : γ → Scan α) (place blamed : Text) : Prop :=
  ∃ front filling, place = front ++ blamed ∧ ∀ text, (∀ place, after place text) →
    before place (front ++ (filling ++ text)) ∧ Passes m (front ++ (filling ++ text)) text

/-- From scanners smaller than `n` a success can be repeated, and what was
read up to a failure can be mended. -/
structure Mends (n : Nat) (after before : Text → Text → Prop) (m : γ → Scan α) : Prop where
  ok : ∀ {g last s a t}, s.Faithful last → s.size < n → m g s = .ok a t →
    t.Faithful last ∧ t.size ≤ s.size ∧ Renews after before m s.unread t.unread
  fill : Fills after before m
  error : ∀ {g last s e t}, s.Faithful last → s.size < n → m g s = .error e t →
    Repairs after before m s.unread (e.blamed t)

def Begins (good : Kind → Prop) (_place text : Text) : Prop := ∃ kind, good kind ∧ Next text kind

/-- The operations take a token of a kind that is good first. -/
structure Commits (n : Nat) (good : Kind → Prop) (after : Text → Text → Prop) (m : γ → Scan α) :
    Prop extends Mends n after (Begins good) m where
  takes : ∀ {g last s a t}, s.Faithful last → s.size < n → m g s = .ok a t →
    t.size < s.size ∧ t.unread.length < s.unread.length

section

variable {after between before before' : Text → Text → Prop} {good : Kind → Prop}
  {place left blamed : Text}

theorem begins_of_cut (h : Cut kind text rest) : Begins (· = kind) place (text ++ rest) :=
  ⟨kind, rfl, text, rest, rfl, h⟩

/-- Where nothing was taken, what can be put in can be put in for all. -/
theorem Fills.repairs {m : γ → Scan α} (h : Fills after before m) (place : Text) :
    Repairs after before m place place := by
  obtain ⟨filling, hfill⟩ := h
  refine ⟨[], filling, rfl, fun text htext => ?_⟩
  obtain ⟨hbefore, hpasses⟩ := hfill text htext
  exact ⟨hbefore place, hpasses⟩

section

variable {m : γ → Scan α} {m' : δ → Scan β}

theorem Renews.imp (h : Renews after before m place left)
    (himp : ∀ {text rest}, before place text → Passes m text rest →
      before' place text ∧ Passes m' text rest) : Renews after before' m' place left := by
  obtain ⟨front, hfront, hrenew⟩ := h
  refine ⟨front, hfront, fun text htext => ?_⟩
  obtain ⟨hbefore, hpasses⟩ := hrenew text htext
  exact himp hbefore hpasses

theorem Fills.imp (h : Fills after before m)
    (himp : ∀ {place text rest}, before place text → Passes m text rest →
      before' place text ∧ Passes m' text rest) : Fills after before' m' := by
  obtain ⟨filling, hfill⟩ := h
  refine ⟨filling, fun text htext => ?_⟩
  obtain ⟨hbefore, hpasses⟩ := hfill text htext
  exact ⟨fun place => (himp (hbefore place) hpasses).1, (himp (hbefore []) hpasses).2⟩

theorem Repairs.imp (h : Repairs after before m place blamed)
    (himp : ∀ {text rest}, before place text → Passes m text rest →
      before' place text ∧ Passes m' text rest) : Repairs after before' m' place blamed := by
  obtain ⟨front, filling, hfront, hrepair⟩ := h
  refine ⟨front, filling, hfront, fun text htext => ?_⟩
  obtain ⟨hbefore, hpasses⟩ := hrepair text htext
  exact himp hbefore hpasses

end

/-- If something was taken, the texts begin with the same character. -/
theorem Renews.head {m : γ → Scan α} (h : Renews after before m place left)
    (hshorter : left.length < place.length) :
    Renews after (fun place text => before place text ∧ place.head? = text.head?) m place left := by
  obtain ⟨front, rfl, hrenew⟩ := h
  refine ⟨front, rfl, fun text htext => ?_⟩
  obtain ⟨hbefore, hpasses⟩ := hrenew text htext
  refine ⟨⟨hbefore, ?_⟩, hpasses⟩
  cases front with
  | nil => exact absurd hshorter (Nat.lt_irrefl _)
  | cons c front => rfl

/-- If all is to blame nothing was taken, and otherwise the texts begin
with the same character. -/
theorem Repairs.head {m : γ → Scan α} (h : Repairs after before m place blamed) :
    blamed = place ∨
      Repairs after (fun place text => before place text ∧ place.head? = text.head?) m place
        blamed := by
  obtain ⟨front, filling, rfl, hrepair⟩ := h
  cases front with
  | nil => exact .inl rfl
  | cons c front =>
      refine .inr ⟨c :: front, filling, rfl, fun text htext => ?_⟩
      obtain ⟨hbefore, hpasses⟩ := hrepair text htext
      exact ⟨⟨hbefore, rfl⟩, hpasses⟩

theorem Mends.comap {m : γ → Scan α} (h : Mends n after before m) (f : δ → γ) :
    Mends n after before fun d => m (f d) := by
  refine ⟨?_, h.fill.imp fun hplace hpasses => ⟨hplace, hpasses.comap f⟩, ?_⟩
  · intro d last s a t hs hn hok
    obtain ⟨ht, hle, hrenews⟩ := h.ok hs hn hok
    exact ⟨ht, hle, hrenews.imp fun hplace hpasses => ⟨hplace, hpasses.comap f⟩⟩
  · intro d last s e t hs hn herror
    exact (h.error hs hn herror).imp fun hplace hpasses => ⟨hplace, hpasses.comap f⟩

/-- Only scanners that can be in a script matter. -/
theorem Commits.congr {m m' : γ → Scan α} (h : Commits n good after m)
    (hsame : ∀ {g last s}, s.Faithful last → m' g s = m g s) : Commits n good after m' := by
  have hpasses {text rest : Text} (h : Passes m text rest) : Passes m' text rest := by
    intro g last s hs hunread
    rw [hsame hs]
    exact h hs hunread
  refine ⟨⟨?_, h.fill.imp fun hplace h => ⟨hplace, hpasses h⟩, ?_⟩, ?_⟩
  · intro g last s a t hs hn hok
    rw [hsame hs] at hok
    obtain ⟨ht, hle, hrenews⟩ := h.ok hs hn hok
    exact ⟨ht, hle, hrenews.imp fun hplace h => ⟨hplace, hpasses h⟩⟩
  · intro g last s e t hs hn herror
    rw [hsame hs] at herror
    exact (h.error hs hn herror).imp fun hplace h => ⟨hplace, hpasses h⟩
  · intro g last s a t hs hn hok
    rw [hsame hs] at hok
    exact h.takes hs hn hok

/-- No scanner is smaller than nothing, so that a loop begins with what
can be put in. -/
theorem mends_zero {m : γ → Scan α} (h : Fills after before m) : Mends 0 after before m :=
  ⟨fun _ hn => absurd hn (Nat.not_lt_zero _), h, fun _ hn => absurd hn (Nat.not_lt_zero _)⟩

/-- Operations that take nothing and do not fail. -/
theorem mends_of_idle {m : γ → Scan α}
    (h : ∀ g s, ∃ a t, m g s = .ok a t ∧ t.rest = s.rest ∧ t.line = s.line ∧ t.held = s.held) :
    Mends n after after m := by
  have hidle {g last s a t} (hs : s.Faithful last) (hok : m g s = .ok a t) :
      t.Faithful last ∧ t.size = s.size ∧ t.unread = s.unread := by
    obtain ⟨a', t', hok', hrest, hline, hheld⟩ := h g s
    cases hok.symm.trans hok'
    refine ⟨⟨?_, ?_⟩, ?_, ?_⟩
    · rw [hline, hrest]
      exact hs.line
    · rw [hheld, hrest]
      exact hs.held
    · rw [Scanner.size, hrest, hheld, Scanner.size]
    · rw [Scanner.unread, hrest, hheld, Scanner.unread]
  have hpasses (text : Text) : Passes m text text := by
    intro g last s hs hunread
    obtain ⟨a, t, hok, -⟩ := h g s
    obtain ⟨ht, -, hsame⟩ := hidle hs hok
    exact ⟨a, t, hok, ht, hsame.trans hunread⟩
  refine ⟨?_, ⟨[], fun text htext => ⟨htext, hpasses text⟩⟩, ?_⟩
  · intro g last s a t hs hn hok
    obtain ⟨ht, hsize, hsame⟩ := hidle hs hok
    rw [hsame]
    exact ⟨ht, Nat.le_of_eq hsize, [], rfl, fun text htext => ⟨htext, hpasses text⟩⟩
  · intro g last s e t hs hn herror
    obtain ⟨a, t', hok, -⟩ := h g s
    cases herror.symm.trans hok

theorem mends_pure (value : γ → α) : Mends n after after fun g => (pure (value g) : Scan α) :=
  mends_of_idle fun _ _ => ⟨_, _, rfl, rfl, rfl, rfl⟩

theorem mends_note (event : γ → Event) : Mends n after after fun g => note (event g) :=
  mends_of_idle fun _ _ => ⟨_, _, rfl, rfl, rfl, rfl⟩

/-- The second operation may be known for smaller scanners only, if the
first makes them so. -/
theorem Mends.bind_of_size {m : γ → Scan α} {k : γ → α → Scan β} (hm : Mends n between before m)
    (hk : Mends n' after between fun p : γ × α => k p.1 p.2)
    (hsize : ∀ {g last s a t}, s.Faithful last → s.size < n → m g s = .ok a t → t.size < n') :
    Mends n after before fun g => m g >>= k g := by
  refine ⟨?_, ?_, ?_⟩
  · intro g last s b u hs hn h
    obtain ⟨a, t, hok, hok'⟩ := bind_eq_ok h
    obtain ⟨ht, hle, front, hfront, hrenew⟩ := hm.ok hs hn hok
    obtain ⟨hu, hle', front', hfront', hrenew'⟩ :=
      hk.ok (g := (g, a)) ht (hsize hs hn hok) hok'
    refine ⟨hu, Nat.le_trans hle' hle, front ++ front', ?_, fun text htext => ?_⟩
    · rw [hfront, hfront', List.append_assoc]
    · obtain ⟨hbetween, hpasses'⟩ := hrenew' text htext
      obtain ⟨hbefore, hpasses⟩ := hrenew _ hbetween
      rw [List.append_assoc]
      exact ⟨hbefore, hpasses.bind hpasses'⟩
  · obtain ⟨filling, hfill⟩ := hm.fill
    obtain ⟨filling', hfill'⟩ := hk.fill
    refine ⟨filling ++ filling', fun text htext => ?_⟩
    obtain ⟨hbetween, hpasses'⟩ := hfill' text htext
    obtain ⟨hbefore, hpasses⟩ := hfill _ hbetween
    rw [List.append_assoc]
    exact ⟨hbefore, hpasses.bind hpasses'⟩
  · intro g last s e u hs hn h
    rcases bind_eq_error h with herror | ⟨a, t, hok, herror⟩
    · -- The first fails, and what is put in for it goes on with a filling for the second.
      obtain ⟨front, filling, hfront, hrepair⟩ := hm.error hs hn herror
      obtain ⟨filling', hfill'⟩ := hk.fill
      refine ⟨front, filling ++ filling', hfront, fun text htext => ?_⟩
      obtain ⟨hbetween, hpasses'⟩ := hfill' text htext
      obtain ⟨hbefore, hpasses⟩ := hrepair _ hbetween
      rw [List.append_assoc filling]
      exact ⟨hbefore, hpasses.bind hpasses'⟩
    · -- The second fails, and the first is repeated in front of what is put in for it.
      obtain ⟨ht, -, front, hfront, hrenew⟩ := hm.ok hs hn hok
      obtain ⟨front', filling, hfront', hrepair⟩ :=
        hk.error (g := (g, a)) ht (hsize hs hn hok) herror
      refine ⟨front ++ front', filling, ?_, fun text htext => ?_⟩
      · rw [hfront, hfront', List.append_assoc]
      · obtain ⟨hbetween, hpasses'⟩ := hrepair text htext
        obtain ⟨hbefore, hpasses⟩ := hrenew _ hbetween
        rw [List.append_assoc]
        exact ⟨hbefore, hpasses.bind hpasses'⟩

theorem Mends.bind {m : γ → Scan α} {k : γ → α → Scan β} (hm : Mends n between before m)
    (hk : Mends n after between fun p : γ × α => k p.1 p.2) :
    Mends n after before fun g => m g >>= k g := by
  refine hm.bind_of_size hk ?_
  intro g last s a t hs hn hok
  exact Nat.lt_of_le_of_lt (hm.ok hs hn hok).2.1 hn

/-- What comes behind the first token sees a smaller scanner. -/
theorem Commits.bind_of_le {m : γ → Scan α} {k : γ → α → Scan β} (hm : Commits n good between m)
    (hk : Mends n' after between fun p : γ × α => k p.1 p.2) (hn' : n ≤ n' + 1) :
    Commits n good after fun g => m g >>= k g := by
  have hsize {g last s a t} (hs : s.Faithful last) (hn : s.size < n) (hok : m g s = .ok a t) :
      t.size < n' := by
    have htakes := (hm.takes hs hn hok).1
    omega
  refine ⟨hm.toMends.bind_of_size hk hsize, ?_⟩
  intro g last s b u hs hn h
  obtain ⟨a, t, hok, hok'⟩ := bind_eq_ok h
  obtain ⟨ht, -⟩ := hm.ok hs hn hok
  obtain ⟨hlt, hshorter⟩ := hm.takes hs hn hok
  obtain ⟨-, hle, front, hfront, -⟩ := hk.ok (g := (g, a)) ht (hsize hs hn hok) hok'
  rw [hfront, List.length_append] at hshorter
  exact ⟨Nat.lt_of_le_of_lt hle hlt, by omega⟩

theorem Commits.bind {m : γ → Scan α} {k : γ → α → Scan β} (hm : Commits n good between m)
    (hk : Mends n after between fun p : γ × α => k p.1 p.2) :
    Commits n good after fun g => m g >>= k g :=
  hm.bind_of_le hk (Nat.le_succ n)

/-! ### Tokens and raw text -/

/-- Where a token of the kind has ended, it ends in front of any text in
the relation. -/
def Respects (kind : Kind) (R : Text → Text → Prop) : Prop :=
  ∀ ⦃place text⦄, R place text → Stops kind.goesOn place → Stops kind.goesOn text

theorem commits_expect (hkind : kind ≠ .eof) (hafter : Respects kind after) :
    Commits n (· = kind) after fun _ : γ => expect kind := by
  have hsample {text : Text} (htext : ∀ place, after place text) : Cut kind kind.sample text :=
    kind.cut_sample (hafter (htext []) stops_nil)
  have hfill : Fills after (Begins (· = kind)) fun _ : γ => expect kind :=
    ⟨kind.sample, fun text htext =>
      ⟨fun place => begins_of_cut (hsample htext), passes_expect (hsample htext)⟩⟩
  refine ⟨⟨?_, hfill, ?_⟩, ?_⟩
  · intro g last s token t hs hn hok
    obtain ⟨htakes, rfl, ht, hheld⟩ := takes_of_expect hs hok
    refine ⟨ht, (consuming_expect hkind).steady hok, token.text, ?_, ?_⟩
    · rw [Scanner.unread_of_none hheld, htakes.text_eq]
    · intro text htext
      rw [Scanner.unread_of_none hheld] at htext
      have hcut := htakes.cut.of_stops (hafter htext htakes.cut.stops)
      exact ⟨begins_of_cut hcut, passes_expect hcut⟩
  · intro g last s e t hs hn herror
    rw [blamed_of_expect_error hs herror]
    exact hfill.repairs s.unread
  · intro g last s token t hs hn hok
    obtain ⟨htakes, rfl, -, hheld⟩ := takes_of_expect hs hok
    refine ⟨consuming_expect hkind hok, ?_⟩
    have hne := List.length_pos_iff.mpr (htakes.cut.text_ne_nil hkind)
    rw [Scanner.unread_of_none hheld, htakes.text_eq, List.length_append]
    omega

/-- Where raw text is closed, other text may follow. -/
theorem stops_raw {test : Char → Bool} {raw tail tail' : Text} {d : Char}
    (h : Stops test (raw ++ d :: tail)) : Stops test (raw ++ d :: tail') := by
  cases raw with
  | nil => exact stops_cons.mpr (stops_cons.mp h)
  | cons c raw => exact stops_cons.mpr (stops_cons.mp h)

section

variable {close : Kind} {d : Char} {raw : Text}

/-- Raw text that has been opened is closed behind a space. -/
theorem passes_padded (hopen : kind.closer? = some d)
    (hclose : ∀ {text}, Next text close → ∃ tail, text = d :: tail) {front : Text} (place : Text)
    (hfront : Cut kind front raw) (hraw : d ∉ raw) (htext : Begins (· = close) [] text) :
    Begins (· = kind) place (front ++ raw ++ ([' '] ++ text)) ∧
      Passes (fun _ : γ => expectRaw kind d) (front ++ raw ++ ([' '] ++ text)) text := by
  obtain ⟨_, rfl, hnext⟩ := htext
  obtain ⟨tail, rfl⟩ := hclose hnext
  have hcut : Cut kind front (raw ++ [' '] ++ d :: tail) := by
    apply hfront.of_stops
    rw [List.append_assoc]
    exact hfront.stops.append (stops_cons.mpr (Kind.goesOn_space_of_closer? hopen))
  have hspace : d ∉ [' '] := by
    intro hmem
    have hblank := (Kind.isBlank_isWordPart_of_closer? hopen).1
    rw [List.mem_singleton.mp hmem] at hblank
    cases hblank
  rw [List.append_assoc, ← List.append_assoc raw]
  refine ⟨begins_of_cut hcut, passes_expectRaw hopen hcut ?_⟩
  rw [List.mem_append]
  exact fun hmem => hmem.elim hraw hspace

theorem takes_of_expectRaw {found : Token × Text} (hopen : kind.closer? = some d)
    (hs : s.Faithful last) (hok : expectRaw kind d s = .ok found t) :
    t.size < s.size ∧ t.unread.length < s.unread.length := by
  have hkind : kind ≠ .eof := by
    rintro rfl
    cases hopen
  obtain ⟨token, u, hexpect, hok⟩ := bind_eq_ok hok
  obtain ⟨raw, v, hrawUntil, hok⟩ := bind_eq_ok hok
  cases hok
  obtain ⟨htakes, htoken, hu, hheld⟩ := takes_of_expect hs hexpect
  obtain ⟨tail, hunread, -, hrest, -, hheld'⟩ :=
    raw_of_rawUntil (Kind.isBreak_of_closer? hopen) hu hrawUntil
  refine ⟨Nat.lt_of_le_of_lt (steady_rawUntil d hrawUntil) (consuming_expect hkind hexpect), ?_⟩
  have hne := List.length_pos_iff.mpr (htakes.cut.text_ne_nil (htoken ▸ hkind))
  rw [Scanner.unread_of_none hheld] at hunread
  rw [Scanner.unread_of_none hheld', hrest, htakes.text_eq, hunread, List.length_append,
    List.length_append]
  omega

/-- Raw text behind the token that opens it, in front of the token that
closes it. -/
theorem commits_expectRaw (hopen : kind.closer? = some d)
    (hclose : ∀ {text}, Next text close → ∃ tail, text = d :: tail) :
    Commits n (· = kind) (Begins (· = close)) fun _ : γ => expectRaw kind d := by
  have hfill : Fills (Begins (· = close)) (Begins (· = kind)) fun _ : γ => expectRaw kind d := by
    refine ⟨kind.sample ++ [' '], fun text htext => ?_⟩
    have hmended (place : Text) : _ ∧ Passes (fun _ : γ => expectRaw kind d) _ text :=
      passes_padded hopen hclose place (kind.cut_sample stops_nil) List.not_mem_nil (htext [])
    rw [List.append_nil, ← List.append_assoc] at hmended
    exact ⟨fun place => (hmended place).1, (hmended []).2⟩
  refine ⟨⟨?_, hfill, ?_⟩, fun hs _ hok => takes_of_expectRaw hopen hs hok⟩
  · intro g last s found t hs hn hok
    have hreads : Reads last (fun _ => True) (fun _ => True) (expectRaw kind d) _ :=
      reads_expectRaw (Kind.isBreak_of_closer? hopen) fun _ _ => trivial
    obtain ⟨⟨tail, htakes, hfound, hraw, hrest⟩, ht⟩ := hreads.sound hs hok
    refine ⟨ht, Nat.le_of_lt (takes_of_expectRaw hopen hs hok).1, found.1.text ++ found.2, ?_, ?_⟩
    · rw [htakes.text_eq, hrest, List.append_assoc]
    · rintro text ⟨_, rfl, hnext⟩
      obtain ⟨tail', rfl⟩ := hclose hnext
      have hcut : Cut kind found.1.text (found.2 ++ d :: tail') :=
        hfound ▸ htakes.cut.of_stops (stops_raw htakes.cut.stops)
      rw [List.append_assoc]
      exact ⟨begins_of_cut hcut, passes_expectRaw hopen hcut hraw⟩
  · intro g last s e t hs hn herror
    rcases bind_eq_error herror with herror | ⟨token, u, hok, herror⟩
    · rw [blamed_of_expect_error hs herror]
      exact hfill.repairs s.unread
    · obtain ⟨htakes, htoken, hu, hheld⟩ := takes_of_expect hs hok
      rcases bind_eq_error herror with herror | ⟨raw, v, -, herror⟩
      · obtain ⟨rfl, ⟨held, hsome, -⟩ | ⟨-, hraw, rfl⟩⟩ := rawUntil_eq_error herror
        · rw [hheld] at hsome
          cases hsome
        · refine ⟨s.unread, [' '], (List.append_nil _).symm, fun text htext => ?_⟩
          rw [htakes.text_eq]
          exact passes_padded hopen hclose _ (htoken ▸ htakes.cut) hraw (htext [])
      · cases herror

end

/-! ### Looking ahead -/

/-- Looking ahead takes nothing, so what follows is judged where it was
looked. -/
theorem mends_peekKind {f : γ → Kind → Scan α}
    (hfill : Fills after before fun g => peekKind >>= f g)
    (hok : ∀ {g last s kind a t}, s.Faithful last → s.size < n → Next s.unread kind →
      f g kind s = .ok a t → t.Faithful last ∧ t.size ≤ s.size ∧
        Renews after before (fun g => peekKind >>= f g) s.unread t.unread)
    (herror : ∀ {g last s kind e t}, s.Faithful last → s.size < n → Next s.unread kind →
      f g kind s = .error e t →
        Repairs after before (fun g => peekKind >>= f g) s.unread (e.blamed t)) :
    Mends n after before fun g => peekKind >>= f g := by
  refine ⟨?_, hfill, ?_⟩
  · intro g last s a u hs hn h
    obtain ⟨kind, t, hpeek, hbranch⟩ := bind_eq_ok h
    obtain ⟨hnext, ht, hunread⟩ := peekKind_ok hs hpeek
    have hle := steady_peekKind hpeek
    rw [← hunread] at hnext ⊢
    obtain ⟨hu, hle', hrenews⟩ := hok ht (Nat.lt_of_le_of_lt hle hn) hnext hbranch
    exact ⟨hu, Nat.le_trans hle' hle, hrenews⟩
  · intro g last s e u hs hn h
    rcases bind_eq_error h with h | ⟨kind, t, hpeek, hbranch⟩
    · rw [blamed_of_peekKind_error h]
      exact hfill.repairs s.unread
    · obtain ⟨hnext, ht, hunread⟩ := peekKind_ok hs hpeek
      rw [← hunread] at hnext ⊢
      exact herror ht (Nat.lt_of_le_of_lt (steady_peekKind hpeek) hn) hnext hbranch

def Refuses (m : γ → Scan α) : Prop :=
  ∀ ⦃g last s⦄, s.Faithful last → ∃ e t, m g s = .error e t ∧ e.blamed t = s.unread

/-- The operations for this kind commit themselves to kinds for which they
are the same. -/
def Branch (n : Nat) (good : Kind → Prop) (after : Text → Text → Prop) (f : γ → Kind → Scan α)
    (kind : Kind) : Prop :=
  ∃ sub, Commits n sub after (fun g => f g kind) ∧
    ∀ kind', sub kind' → good kind' ∧ ∀ g, f g kind' = f g kind

theorem branch_of_commits {f : γ → Kind → Scan α} (hgood : good kind)
    (h : Commits n (· = kind) after fun g => f g kind) : Branch n good after f kind := by
  refine ⟨(· = kind), h, ?_⟩
  rintro _ rfl
  exact ⟨hgood, fun g => rfl⟩

/-- A text that is put in for a branch leads to the branch again. -/
theorem passes_of_branch {f : γ → Kind → Scan α} {sub : Kind → Prop}
    (hsub : ∀ kind', sub kind' → good kind' ∧ ∀ g, f g kind' = f g kind)
    (hbegins : Begins sub place text) (h : Passes (fun g => f g kind) text rest) :
    Begins good place text ∧ Passes (fun g => peekKind >>= f g) text rest := by
  obtain ⟨kind', hkind', hnext⟩ := hbegins
  obtain ⟨hgood, hsame⟩ := hsub kind' hkind'
  refine ⟨⟨kind', hgood, hnext⟩, passes_peekKind hnext ?_⟩
  simpa only [hsame] using h

/-- The kind of the next token decides what is done, and some kinds are
refused. -/
theorem commits_peekKind {f : γ → Kind → Scan α}
    (h : ∀ kind, Branch n good after f kind ∨ Refuses fun g => f g kind)
    (hsome : ∃ kind, Branch n good after f kind) :
    Commits n good after fun g => peekKind >>= f g := by
  have hfill : Fills after (Begins good) fun g => peekKind >>= f g := by
    obtain ⟨kind, sub, hcommits, hsub⟩ := hsome
    exact hcommits.fill.imp (passes_of_branch hsub)
  refine ⟨mends_peekKind hfill ?_ ?_, ?_⟩
  · intro g last s kind a u hs hn _ hok
    rcases h kind with ⟨sub, hcommits, hsub⟩ | hrefuses
    · obtain ⟨hu, hle, hrenews⟩ := hcommits.ok hs hn hok
      exact ⟨hu, hle, hrenews.imp (passes_of_branch hsub)⟩
    · obtain ⟨e, v, herror, -⟩ := hrefuses (g := g) hs
      cases hok.symm.trans herror
  · intro g last s kind e u hs hn _ herror
    rcases h kind with ⟨sub, hcommits, hsub⟩ | hrefuses
    · exact (hcommits.error hs hn herror).imp (passes_of_branch hsub)
    · obtain ⟨e', v, herror', hblamed⟩ := hrefuses (g := g) hs
      cases herror.symm.trans herror'
      rw [hblamed]
      exact hfill.repairs s.unread
  · intro g last s a u hs hn hok
    obtain ⟨kind, t, hpeek, hok⟩ := bind_eq_ok hok
    obtain ⟨-, ht, hunread⟩ := peekKind_ok hs hpeek
    have hle := steady_peekKind hpeek
    rcases h kind with ⟨sub, hcommits, -⟩ | hrefuses
    · obtain ⟨hlt, hshorter⟩ := hcommits.takes ht (Nat.lt_of_le_of_lt hle hn) hok
      exact ⟨Nat.lt_of_lt_of_le hlt hle, hunread ▸ hshorter⟩
    · obtain ⟨e, v, herror, -⟩ := hrefuses (g := g) ht
      cases hok.symm.trans herror

def Either (R : Text → Text → Prop) (kind : Kind) (place text : Text) : Prop :=
  R place text ∨ (Next place kind ∧ Next text kind)

/-- One kind of token, if it is next, and else something that does not
begin with it. -/
theorem mends_peekKind_ite {a b : γ → Scan α} (hkind : kind ≠ .eof)
    (ha : Commits n (· = kind) after a) (hb : Mends n after before b)
    (happart : ∀ {place text kind'}, before place text → Next place kind' → kind' ≠ kind →
      ∃ kind'', Next text kind'' ∧ kind'' ≠ kind) :
    Mends n after (Either before kind) fun g =>
      peekKind >>= fun kind' => if kind' = kind then a g else b g := by
  have himp {place text rest : Text} (hplace : ∃ kind', Next place kind' ∧ kind' ≠ kind)
      (hbefore : before place text) (hpasses : Passes b text rest) :
      Either before kind place text ∧ Passes (fun g =>
        peekKind >>= fun kind' => if kind' = kind then a g else b g) text rest := by
    obtain ⟨kind', hnext, hkind'⟩ := hplace
    obtain ⟨kind'', hnext', hkind''⟩ := happart hbefore hnext hkind'
    refine ⟨.inl hbefore, passes_peekKind hnext' ?_⟩
    simpa only [if_neg hkind''] using hpasses
  have himp' {place text rest : Text} (hplace : Next place kind)
      (hbegins : Begins (· = kind) place text) (hpasses : Passes a text rest) :
      Either before kind place text ∧ Passes (fun g =>
        peekKind >>= fun kind' => if kind' = kind then a g else b g) text rest := by
    obtain ⟨_, rfl, hnext⟩ := hbegins
    refine ⟨.inr ⟨hplace, hnext⟩, passes_peekKind hnext ?_⟩
    simpa only [if_true] using hpasses
  have hfill : Fills after (Either before kind) fun g =>
      peekKind >>= fun kind' => if kind' = kind then a g else b g := by
    obtain ⟨filling, hfill⟩ := hb.fill
    refine ⟨filling, fun text htext => ?_⟩
    obtain ⟨hbefore, hpasses⟩ := hfill text htext
    have hend : Next [] .eof := ⟨[], [], rfl, .eof⟩
    exact ⟨fun place => .inl (hbefore place),
      (himp ⟨_, hend, hkind.symm⟩ (hbefore []) hpasses).2⟩
  refine mends_peekKind hfill ?_ ?_
  · intro g last s kind' c u hs hn hnext hok
    split at hok
    · next hsame =>
        subst hsame
        obtain ⟨hu, hle, hrenews⟩ := ha.ok hs hn hok
        exact ⟨hu, hle, hrenews.imp (himp' hnext)⟩
    · next hother =>
        obtain ⟨hu, hle, hrenews⟩ := hb.ok hs hn hok
        exact ⟨hu, hle, hrenews.imp (himp ⟨kind', hnext, hother⟩)⟩
  · intro g last s kind' e u hs hn hnext herror
    split at herror
    · next hsame =>
        subst hsame
        exact (ha.error hs hn herror).imp (himp' hnext)
    · next hother => exact (hb.error hs hn herror).imp (himp ⟨kind', hnext, hother⟩)

end

end Scan

end StoredProc
