import StoredProc.Proofs.Scanner.Request

/-!
Where a scanner stands, whatever is asked of it. The texts that were
taken, one after another, and a token that is held make up the part of
the script that was passed. The line counter is the count of that part,
as long as no break was counted in two pieces.

A token never leaves one half of a break behind it. Raw text can: it may
be asked for up to a carriage return or a line feed, and then stop
between the two. So the counter is ahead by at most one for each time
this was asked for, and `Scan.Stands` keeps the book: a place where the
next count may come out too high is one that was paid for.
-/

namespace StoredProc

open Text

/-! ### What was taken -/

/-- The tokens that are taken one after another, up to the end of input
or to a place where none can be cut off. -/
def Scan.drain (s : Scanner) : List Token :=
  match hnext : next s with
  | .error _ _ => []
  | .ok token t =>
      if hend : token.kind = .eof then [token]
      else
        have : t.size < s.size := size_lt_of_next hnext hend
        token :: drain t
termination_by s.size

namespace Request

/-- The texts that a request takes off the script. A token of the wrong
kind is taken, and so are the tokens in front of one that cannot be cut
off. -/
def taken : Request → Scanner → List Text
  | next, s =>
      match Scan.next s with
      | .ok token _ => [token.text]
      | .error _ _ => []
  | peek, _ => []
  | peekKind, _ => []
  | expect kind, s =>
      match Scan.expect kind s with
      | .ok token _ => [token.text]
      | .error (.mismatch _ token) _ => [token.text]
      | .error _ _ => []
  | rawUntil delimiter, s =>
      match Scan.rawUntil delimiter s with
      | .ok text _ => [text]
      | .error _ _ => []
  | tokenize, s =>
      match Scan.tokenize s with
      | .ok tokens _ => tokens.map Token.text
      | .error _ _ => (Scan.drain s).map Token.text

/-- One, where raw text was passed up to a character that breaks a
line. -/
def splits : Request → Scanner → Nat
  | rawUntil delimiter, s =>
      match Scan.rawUntil delimiter s with
      | .ok _ _ => if isBreak delimiter then 1 else 0
      | .error _ _ => 0
  | _, _ => 0

end Request

namespace Scanner

def taken (s : Scanner) : List Request → List Text
  | [] => []
  | request :: requests =>
      request.taken s ++ (Scan.leaves request.perform s).taken requests

def splits (s : Scanner) : List Request → Nat
  | [] => 0
  | request :: requests =>
      request.splits s + (Scan.leaves request.perform s).splits requests

def heldText (s : Scanner) : Text := s.held.elim [] Token.text

theorem unread_eq (s : Scanner) : s.unread = s.heldText ++ s.rest := by
  unfold unread heldText
  cases s.held <;> rfl

end Scanner

/-- The token stands in the script in front of `behind`, and is on the
line of its first character. -/
def Token.StandsIn (source behind : Text) (token : Token) : Prop :=
  ∃ before, source = before ++ token.text ++ behind ∧ token.line = 1 + lineBreaks before

/-- The tokens of an answer stand in the script one after another, in
front of `behind`. -/
def Answer.StandsIn (source behind : Text) (answer : Answer) : Prop :=
  ∀ front token back, answer.produced = front ++ token :: back →
    token.StandsIn source (back.flatMap Token.text ++ behind)

namespace Scan

variable {source u : Text} {slack : Nat} {s t : Scanner} {token : Token} {d : Char}

/-! ### Nothing is lost -/

theorem unread_of_next (h : next s = .ok token t) : s.unread = token.text ++ t.unread := by
  rw [Scanner.unread_of_none (held_of_next h)]
  unfold next at h
  split at h
  · next hheld =>
      cases h
      exact Scanner.unread_of_some hheld
  · next hheld =>
      rw [Scanner.unread_of_none hheld]
      exact (spec_of_cut h).1

theorem unread_of_peek (h : peek s = .ok token t) : t.unread = s.unread := by
  rw [unread_of_next (next_of_peek h), Scanner.unread_of_some (held_of_peek h)]
  rfl

theorem held_of_tokenize {tokens : List Token} (h : tokenize s = .ok tokens t) : t.held = none := by
  fun_induction tokenize s generalizing tokens with
  | case1 s e u hnext => cases h
  | case2 s token u hnext hend =>
      cases h
      exact held_of_next hnext
  | case3 s token u hnext hend hlt tokens v htokens ih =>
      cases h
      exact ih htokens
  | case4 s token u hnext hend hlt e v htokens ih => cases h

theorem drain_of_error {e : SyntaxError} (h : next s = .error e t) : drain s = [] := by
  rw [drain]
  split
  · rfl
  · next h' => rw [h] at h'; cases h'

theorem drain_of_ok (h : next s = .ok token t) :
    drain s = token :: if token.kind = .eof then [] else drain t := by
  rw [drain]
  split
  · next h' => rw [h] at h'; cases h'
  · next h' =>
      rw [h] at h'
      cases h'
      split <;> rfl

theorem drain_of_tokenize {tokens : List Token} (h : tokenize s = .ok tokens t) :
    drain s = tokens := by
  fun_induction tokenize s generalizing tokens with
  | case1 s e u hnext => cases h
  | case2 s token u hnext hend =>
      cases h
      rw [drain_of_ok hnext, if_pos hend]
  | case3 s token u hnext hend hlt tokens v htokens ih =>
      cases h
      rw [drain_of_ok hnext, if_neg hend, ih htokens]
  | case4 s token u hnext hend hlt e v htokens ih => cases h

/-- The tokens that are taken are gone, whether or not they go to the end
of input. -/
theorem unread_of_drain (s : Scanner) :
    s.unread = (drain s).flatMap Token.text ++ (leaves tokenize s).unread := by
  unfold leaves
  fun_induction tokenize s with
  | case1 s e t hnext =>
      rw [drain_of_error hnext, eq_of_next_error hnext]
      rfl
  | case2 s token t hnext hend =>
      rw [drain_of_ok hnext, if_pos hend, List.flatMap_singleton]
      exact unread_of_next hnext
  | case3 s token t hnext hend hlt tokens u htokens ih =>
      rw [htokens] at ih
      rw [drain_of_ok hnext, if_neg hend, List.flatMap_cons, List.append_assoc, ← ih]
      exact unread_of_next hnext
  | case4 s token t hnext hend hlt e u htokens ih =>
      rw [htokens] at ih
      rw [drain_of_ok hnext, if_neg hend, List.flatMap_cons, List.append_assoc, ← ih]
      exact unread_of_next hnext

theorem taken_expect (kind : Kind) (s : Scanner) :
    (Request.expect kind).taken s = Request.next.taken s := by
  rw [Request.taken, Request.taken]
  cases hnext : next s with
  | ok token t =>
      by_cases hkind : token.kind = kind
      · rw [expect_of_next hnext hkind]
      · rw [expect_of_next_ne hnext hkind]
  | error e t =>
      obtain ⟨c, -, rfl, -⟩ := cut_eq_error (next_eq_error hnext).2
      rw [expect, bind_of_error hnext]

theorem unread_leaves_peek (s : Scanner) : (leaves peek s).unread = s.unread := by
  cases hpeek : peek s with
  | ok token t =>
      rw [leaves_of_ok hpeek]
      exact unread_of_peek hpeek
  | error e t => rw [leaves_of_error hpeek, eq_of_peek_error hpeek]

theorem unread_leaves_next (s : Scanner) :
    s.unread = (Request.next.taken s).flatten ++ (leaves next s).unread := by
  rw [Request.taken]
  cases hnext : next s with
  | ok token t =>
      rw [leaves_of_ok hnext]
      simpa using unread_of_next hnext
  | error e t =>
      rw [leaves_of_error hnext, eq_of_next_error hnext]
      rfl

theorem unread_leaves_rawUntil (d : Char) (s : Scanner) :
    s.unread = ((Request.rawUntil d).taken s).flatten ++ (leaves (rawUntil d) s).unread := by
  rw [Request.taken]
  cases hraw : rawUntil d s with
  | ok raw t =>
      obtain ⟨hheld, more, hrest, -, rfl⟩ := rawUntil_eq_ok_cases hraw
      rw [leaves_of_ok hraw, Scanner.unread_of_none hheld, hrest]
      simp [Scanner.unread, Scanner.passRaw, hheld]
  | error e t =>
      rw [leaves_of_error hraw, (rawUntil_eq_error hraw).1]
      rfl

/-- What a request takes is what it takes off the unread text. -/
theorem unread_of_perform (request : Request) (s : Scanner) :
    s.unread = (request.taken s).flatten ++ (leaves request.perform s).unread := by
  cases request with
  | next =>
      rw [Request.perform, leaves_bind_pure]
      exact unread_leaves_next s
  | peek =>
      rw [Request.perform, leaves_bind_pure]
      exact (unread_leaves_peek s).symm
  | peekKind =>
      rw [Request.perform, leaves_bind_pure, peekKind, leaves_bind_pure]
      exact (unread_leaves_peek s).symm
  | expect kind =>
      rw [Request.perform, leaves_bind_pure, leaves_expect, taken_expect]
      exact unread_leaves_next s
  | rawUntil delimiter =>
      rw [Request.perform, leaves_bind_pure]
      exact unread_leaves_rawUntil delimiter s
  | tokenize =>
      have htaken : Request.tokenize.taken s = (drain s).map Token.text := by
        rw [Request.taken]
        split
        · next tokens t htokens => rw [drain_of_tokenize htokens]
        · rfl
      rw [Request.perform, leaves_bind_pure, htaken, ← List.flatMap_def]
      exact unread_of_drain s

/-! ### Where the counter stands -/

/-- The scanner has passed `u`, and its counter is at most `slack` ahead
of the breaks in it. -/
structure Stands (source : Text) (slack : Nat) (u : Text) (s : Scanner) : Prop where
  split : source = u ++ s.rest
  le_line : 1 + lineBreaks u ≤ s.line
  line_le : s.line ≤ 1 + lineBreaks u + slack
  /-- Where a break may lie across the place, one of the slack is left for
  it. -/
  seam : Seam u s.rest ∨ s.line ≤ lineBreaks u + slack
  held : ∀ token ∈ s.held, ∃ before, u = before ++ token.text ∧
    (slack = 0 → token.line = 1 + lineBreaks before)

theorem stands_ofText (source : Text) : Stands source 0 [] (.ofText source) :=
  ⟨rfl, Nat.le_refl _, Nat.le_refl _, .inl (seam_nil source), by rintro token ⟨⟩⟩

namespace Stands

/-- A piece is counted by itself. -/
theorem count (h : Stands source slack u s) {piece rest : Text} (hrest : s.rest = piece ++ rest) :
    1 + lineBreaks (u ++ piece) ≤ s.line + lineBreaks piece ∧
      s.line + lineBreaks piece ≤ 1 + lineBreaks (u ++ piece) + slack := by
  obtain ⟨hle, hge⟩ := lineBreaks_append_bounds u piece
  have hlow := h.le_line
  have hhigh := h.line_le
  refine ⟨by omega, ?_⟩
  rcases h.seam with hseam | hpaid
  · rw [hrest] at hseam
    rw [lineBreaks_append_of_seam hseam.of_append]
    omega
  · omega

theorem drop (h : Stands source slack u s) : Stands source slack u s.drop :=
  ⟨h.split, h.le_line, h.line_le, h.seam, by rintro token ⟨⟩⟩

theorem line_eq (h : Stands source slack u s) (hslack : slack = 0) : s.line = 1 + lineBreaks u := by
  have hlow := h.le_line
  have hhigh := h.line_le
  omega

/-- A token that is looked at is the last that was passed, on the line
of its first character. -/
theorem peek (h : Stands source slack u s) (hpeek : peek s = .ok token t) :
    ∃ before, Stands source slack (before ++ token.text) t ∧
      (slack = 0 → token.line = 1 + lineBreaks before) := by
  cases hheld : s.held with
  | some held =>
      rw [peek_of_held hheld] at hpeek
      cases hpeek
      obtain ⟨before, rfl, hline⟩ := h.held token hheld
      exact ⟨before, h, hline⟩
  | none =>
      cases hcut : cut s with
      | error e u =>
          rw [peek_of_cut_error hheld hcut] at hpeek
          cases hpeek
      | ok found next =>
          rw [peek_of_cut hheld hcut] at hpeek
          cases hpeek
          obtain ⟨hrest, hcut, hline, hnew, -⟩ := spec_of_cut hcut
          obtain ⟨hlow, hhigh⟩ := h.count hrest
          have hfirst : slack = 0 → token.line = 1 + lineBreaks u := fun hslack =>
            hline.trans (h.line_eq hslack)
          refine ⟨u, ⟨?_, ?_, ?_, .inl (hcut.seam u), ?_⟩, hfirst⟩
          · rw [h.split, hrest, List.append_assoc]
            rfl
          · change _ ≤ next.line
            rwa [hnew]
          · change next.line ≤ _
            rwa [hnew]
          · rintro held ⟨⟩
            exact ⟨u, rfl, hfirst⟩

theorem next (h : Stands source slack u s) (hnext : next s = .ok token t) :
    ∃ before, Stands source slack (before ++ token.text) t ∧
      (slack = 0 → token.line = 1 + lineBreaks before) := by
  cases hpeek : Scan.peek s with
  | error e v =>
      rw [next_of_peek_error hpeek] at hnext
      cases hnext
  | ok found v =>
      obtain ⟨before, hv, hline⟩ := h.peek hpeek
      rw [next_of_peek hpeek] at hnext
      cases hnext
      exact ⟨before, hv.drop, hline⟩

/-- Raw text may stop inside a break, if its delimiter breaks a line. -/
theorem raw (h : Stands source slack u s) {raw : Text} (hraw : rawUntil d s = .ok raw t) :
    Stands source (slack + if isBreak d then 1 else 0) (u ++ raw) t := by
  obtain ⟨hheld, more, hrest, -, rfl⟩ := rawUntil_eq_ok_cases hraw
  obtain ⟨hlow, hhigh⟩ := h.count hrest
  refine ⟨?_, hlow, ?_, ?_, ?_⟩
  · rw [h.split, hrest, List.append_assoc]
    rfl
  · change s.line + lineBreaks raw ≤ _
    omega
  · by_cases hd : isBreak d = true
    · right
      rw [if_pos hd]
      change s.line + lineBreaks raw ≤ _
      omega
    · exact .inl (.inl (stops_cons.mpr (Bool.eq_false_iff.mpr hd)))
  · intro token htoken
    rw [Scanner.passRaw, hheld] at htoken
    cases htoken

end Stands

theorem keeps_next_stands (source : Text) (slack : Nat) :
    Keeps (fun s => ∃ u, Stands source slack u s) (fun _ t => ∃ u, Stands source slack u t)
      next := by
  refine ⟨?_, ?_⟩
  · rintro s token t ⟨u, hs⟩ hnext
    obtain ⟨before, ht, -⟩ := hs.next hnext
    exact ⟨_, ht⟩
  · rintro s e t hs hnext
    rw [eq_of_next_error hnext]
    exact hs

theorem keeps_peek_stands (source : Text) (slack : Nat) :
    Keeps (fun s => ∃ u, Stands source slack u s) (fun _ t => ∃ u, Stands source slack u t)
      peek := by
  refine ⟨?_, ?_⟩
  · rintro s token t ⟨u, hs⟩ hpeek
    obtain ⟨before, ht, -⟩ := hs.peek hpeek
    exact ⟨_, ht⟩
  · rintro s e t hs hpeek
    rw [eq_of_peek_error hpeek]
    exact hs

/-- After a request there is as much more slack as the request may have
split breaks. -/
theorem Stands.perform (h : Stands source slack u s) (request : Request) :
    ∃ u', Stands source (slack + request.splits s) u' (leaves request.perform s) := by
  by_cases hraw : ∃ d, request = .rawUntil d
  · obtain ⟨d, rfl⟩ := hraw
    rw [Request.perform, leaves_bind_pure, Request.splits]
    cases hraw : rawUntil d s with
    | ok raw t =>
        rw [leaves_of_ok hraw]
        exact ⟨_, h.raw hraw⟩
    | error e t =>
        rw [leaves_of_error hraw, (rawUntil_eq_error hraw).1]
        exact ⟨u, h⟩
  · have hsplits : request.splits s = 0 := by
      cases request with
      | rawUntil d => exact absurd ⟨d, rfl⟩ hraw
      | _ => rfl
    rw [hsplits]
    have hkeeps := (keeps_next_stands source slack).perform (keeps_peek_stands source slack)
      fun d hd => absurd ⟨d, hd⟩ hraw
    exact hkeeps.leaves ⟨u, h⟩

/-! ### Where tokens stand -/

theorem Stands.standsIn {before : Text} (h : Stands source 0 (before ++ token.text) s)
    (hline : (0 : Nat) = 0 → token.line = 1 + lineBreaks before) :
    token.StandsIn source s.rest :=
  ⟨before, h.split, hline rfl⟩

theorem Stands.answer_singleton {answer : Answer} {before : Text}
    (h : Stands source 0 (before ++ token.text) s)
    (hline : (0 : Nat) = 0 → token.line = 1 + lineBreaks before)
    (hanswer : answer.produced = [token]) : answer.StandsIn source s.rest := by
  intro front other back hproduced
  obtain ⟨rfl, rfl, rfl⟩ : front = [] ∧ token = other ∧ back = [] := by
    rw [hanswer] at hproduced
    simpa [List.append_eq_singleton_iff, eq_comm] using hproduced
  exact h.standsIn hline

theorem Stands.answer_tokens {tokens : List Token} (h : Stands source 0 u s)
    (htokens : tokenize s = .ok tokens t) : (Answer.tokens tokens).StandsIn source t.rest := by
  fun_induction tokenize s generalizing u tokens with
  | case1 s e v hnext => cases htokens
  | case2 s token v hnext hend =>
      cases htokens
      obtain ⟨before, hv, hline⟩ := h.next hnext
      exact hv.answer_singleton hline rfl
  | case3 s token v hnext hend hlt others w hothers ih =>
      cases htokens
      obtain ⟨before, hv, hline⟩ := h.next hnext
      intro front other back hproduced
      cases front with
      | nil =>
          -- The first token stands in front of the others, which are still unread.
          cases hproduced
          have hunread := unread_of_drain v
          rw [drain_of_tokenize hothers, leaves_of_ok hothers,
            Scanner.unread_of_none (held_of_next hnext),
            Scanner.unread_of_none (held_of_tokenize hothers)] at hunread
          rw [← hunread]
          exact hv.standsIn hline
      | cons first front => exact ih hv hothers front other back (List.cons.inj hproduced).2
  | case4 s token v hnext hend hlt e w hothers ih => cases htokens

theorem error_of_bind_pure {α β : Type} {m : Scan α} {f : α → β} {e : SyntaxError}
    (h : (m >>= fun a => pure (f a)) s = .error e t) : m s = .error e t := by
  rcases bind_eq_error h with hm | ⟨a, v, -, hpure⟩
  · exact hm
  · cases hpure

/-- The one request that refuses a token is for a token of a kind, which
is then taken. -/
theorem next_of_mismatch {request : Request} {kind : Kind}
    (h : request.perform s = .error (.mismatch kind token) t) : next s = .ok token t := by
  have hcut : ∀ {s' t' : Scanner}, cut s' ≠ .error (.mismatch kind token) t' := by
    intro s' t' hcut
    obtain ⟨c, -, hc, -⟩ := cut_eq_error hcut
    cases hc
  have hnext : Keeps (fun _ => True) (fun e _ => e ≠ .mismatch kind token) next :=
    ⟨fun _ _ => trivial, fun _ herror he => hcut (he ▸ (next_eq_error herror).2)⟩
  cases request with
  | next => exact absurd (next_eq_error (error_of_bind_pure h)).2 hcut
  | peek => exact absurd (peek_eq_error (error_of_bind_pure h)).2 hcut
  | peekKind =>
      exact absurd (peek_eq_error (error_of_bind_pure (error_of_bind_pure h))).2 hcut
  | expect wanted =>
      rcases expect_eq_error (error_of_bind_pure h) with herror | ⟨found, hfound, -, he⟩
      · exact absurd (next_eq_error herror).2 hcut
      · cases he
        exact hfound
  | rawUntil delimiter =>
      obtain ⟨-, ⟨held, -, he⟩ | ⟨-, -, he⟩⟩ := rawUntil_eq_error (error_of_bind_pure h)
      · cases he
      · cases he
  | tokenize => exact absurd rfl (hnext.tokenize.error trivial (error_of_bind_pure h))

/-- What a request answers, and what it refuses to answer with, stands
where the scanner found it. -/
theorem Stands.answer (h : Stands source 0 u s) (request : Request) :
    match request.perform s with
    | .ok answer t => answer.StandsIn source t.rest
    | .error (.mismatch _ token) t => token.StandsIn source t.rest
    | .error _ _ => True := by
  cases hperform : request.perform s with
  | ok answer t =>
      dsimp only
      cases request with
      | next =>
          obtain ⟨token, v, hnext, hpure⟩ := bind_eq_ok hperform
          cases hpure
          obtain ⟨before, hv, hline⟩ := h.next hnext
          exact hv.answer_singleton hline rfl
      | peek =>
          obtain ⟨token, v, hpeek, hpure⟩ := bind_eq_ok hperform
          cases hpure
          obtain ⟨before, hv, hline⟩ := h.peek hpeek
          exact hv.answer_singleton hline rfl
      | expect kind =>
          obtain ⟨token, v, hexpect, hpure⟩ := bind_eq_ok hperform
          cases hpure
          obtain ⟨before, hv, hline⟩ := h.next (next_of_expect hexpect).1
          exact hv.answer_singleton hline rfl
      | tokenize =>
          obtain ⟨tokens, v, htokens, hpure⟩ := bind_eq_ok hperform
          cases hpure
          exact h.answer_tokens htokens
      | peekKind | rawUntil delimiter =>
          obtain ⟨_, v, -, hpure⟩ := bind_eq_ok hperform
          cases hpure
          intro front token back hproduced
          simp [Answer.produced] at hproduced
  | error e t =>
      cases e with
      | mismatch kind token =>
          obtain ⟨before, ht, hline⟩ := h.next (next_of_mismatch hperform)
          exact ht.standsIn hline
      | _ => trivial

end Scan

/-! ### After any requests -/

namespace Scanner

theorem unread_after (s : Scanner) (requests : List Request) :
    s.unread = (s.taken requests).flatten ++ (s.after requests).unread := by
  induction requests generalizing s with
  | nil => rfl
  | cons request requests ih =>
      rw [taken, List.flatten_append, List.append_assoc]
      exact (Scan.unread_of_perform request s).trans (congrArg _ (ih _))

theorem stands_after {source u : Text} {slack : Nat} {s : Scanner}
    (h : Scan.Stands source slack u s) (requests : List Request) :
    ∃ u', Scan.Stands source (slack + s.splits requests) u' (s.after requests) := by
  induction requests generalizing slack u s with
  | nil => exact ⟨u, h⟩
  | cons request requests ih =>
      obtain ⟨v, hv⟩ := h.perform request
      rw [splits, ← Nat.add_assoc]
      exact ih hv

/-- Whatever was asked of the scanner of a script, what it has taken and
the token that it holds are the part of the script that it has passed.
Its counter is right, or ahead by at most one for each time that raw text
was passed up to a character that breaks a line. If there was no such
time, every token that it holds, hands out or refuses is on the line of
its first character. -/
theorem position_exact (source : Text) (requests : List Request) :
    let s := (ofText source).after requests
    let splits := (ofText source).splits requests
    ∃ u, source = u ++ s.rest ∧
      ((ofText source).taken requests).flatten ++ s.heldText = u ∧
      1 + lineBreaks u ≤ s.line ∧ s.line ≤ 1 + lineBreaks u + splits ∧
      (∀ token ∈ s.held, token.text <:+ u) ∧
      (splits = 0 →
        s.line = 1 + lineBreaks u ∧
        (∀ token ∈ s.held, token.StandsIn source s.rest) ∧
        ∀ request : Request, match request.perform s with
          | .ok answer t => answer.StandsIn source t.rest
          | .error (.mismatch _ token) t => token.StandsIn source t.rest
          | .error _ _ => True) := by
  intro s splits
  obtain ⟨u, hs⟩ := stands_after (Scan.stands_ofText source) requests
  rw [Nat.zero_add] at hs
  refine ⟨u, hs.split, ?_, hs.le_line, hs.line_le, ?_, ?_⟩
  · have hunread := unread_after (ofText source) requests
    rw [unread_eq ((ofText source).after requests), ← List.append_assoc] at hunread
    exact List.append_cancel_right (hunread.symm.trans hs.split)
  · intro token htoken
    obtain ⟨before, hu, -⟩ := hs.held token htoken
    exact ⟨before, hu.symm⟩
  · intro hnone
    change Scan.Stands source splits u s at hs
    rw [hnone] at hs
    refine ⟨hs.line_eq rfl, ?_, hs.answer⟩
    intro token htoken
    obtain ⟨before, rfl, hline⟩ := hs.held token htoken
    exact hs.standsIn hline

/-- Raw text that stops inside a break makes two of it. -/
example : ((ofText "\r\n".toList).after [.rawUntil '\n', .next]).line = 3 := by decide +kernel

end Scanner

end StoredProc
