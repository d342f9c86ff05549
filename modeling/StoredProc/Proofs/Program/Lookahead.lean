import Mathlib.Data.List.Induction
import StoredProc.Proofs.Program.Final
import StoredProc.Proofs.Scanner.Lookahead
import StoredProc.Proofs.Scanner.Position

/-!
A lookahead in any state that requests can lead to. A token that is held
was looked at, and the scanner before that look is one the requests led
to as well: it does what the scanner that holds the token does, and a
script is read from it to the same statements or the same error.

The end of input is a place that is not left again. A scanner is finished
exactly when nothing of the script is left (`Scan.Exhausted`), which
every request keeps.
-/

namespace StoredProc

open Text Scan

namespace Scan

variable {s t : Scanner} {token : Token}

/-! ### The end of input -/

theorem exhausted_iff (hs : s.Sound) : Exhausted s ↔ s.isFinished = true := by
  constructor
  · intro h
    obtain ⟨token, t, hpeek, hend, -⟩ := h.peek
    exact (isFinished_iff_next s).mpr ⟨token, t.drop, next_of_peek hpeek, hend⟩
  · intro h
    unfold Scanner.isFinished at h
    cases hheld : s.held with
    | none =>
        rw [hheld] at h
        exact ⟨List.isEmpty_iff.mp h, by rw [hheld]; rintro token ⟨⟩⟩
    | some token =>
        rw [hheld] at h
        have hend : token.kind = .eof := of_decide_eq_true h
        have hcut := hs token hheld
        refine ⟨(Cut.eof_iff.mp (hend ▸ hcut)).2, ?_⟩
        rw [hheld]
        rintro _ ⟨⟩
        exact ⟨hend, _, hcut⟩

theorem Exhausted.keeps_peek : Keeps Exhausted (fun _ t => Exhausted t) Scan.peek := by
  refine ⟨fun hs h => invariant_exhausted.peek.ok hs h, ?_⟩
  intro s e t hs h
  rw [eq_of_peek_error h]
  exact hs

theorem Exhausted.keeps_next : Keeps Exhausted (fun _ t => Exhausted t) next :=
  keeps_peek.next_of_peek Exhausted.drop

theorem Exhausted.keeps_rawUntil (d : Char) :
    Keeps Exhausted (fun _ t => Exhausted t) (Scan.rawUntil d) := by
  refine ⟨?_, ?_⟩
  · intro s raw t hs h
    cases hheld : s.held with
    | none =>
        rw [hs.rawUntil hheld] at h
        cases h
    | some token =>
        rw [Scan.rawUntil, hheld] at h
        cases h
  · intro s e t hs h
    rw [(rawUntil_eq_error h).1]
    exact hs

theorem Exhausted.keeps_perform (request : Request) :
    Keeps Exhausted (fun _ t => Exhausted t) request.perform :=
  keeps_next.perform keeps_peek fun d _ => keeps_rawUntil d

theorem Exhausted.after (h : Exhausted s) (requests : List Request) :
    Exhausted (s.after requests) :=
  Scanner.after_of_keeps keeps_perform h requests

end Scan

/-- The reply has the end of input in it: it was handed out, or seen, or
found in place of another token. -/
def Reply.ShowsEnd : Reply → Prop
  | answer (.token token) => token.kind = .eof
  | answer (.kind kind) => kind = .eof
  | answer (.text _) => False
  | answer (.tokens tokens) => ∃ token ∈ tokens, token.kind = .eof
  | refused (.mismatch _ token) => token.kind = .eof
  | refused _ => False
  | finished isEnd => isEnd = true

namespace Scan

variable {s t : Scanner} {token : Token}

theorem exhausted_of_next (hs : s.Sound) (h : next s = .ok token t) (hend : token.kind = .eof) :
    Exhausted t := by
  have hfinished := (isFinished_iff_next s).mpr ⟨token, t, h, hend⟩
  exact Exhausted.keeps_next.ok ((exhausted_iff hs).mpr hfinished) h

theorem exhausted_of_peek (hs : s.Sound) (h : peek s = .ok token t) (hend : token.kind = .eof) :
    Exhausted t := by
  have hfinished := (isFinished_iff_next s).mpr ⟨token, t.drop, next_of_peek h, hend⟩
  exact Exhausted.keeps_peek.ok ((exhausted_iff hs).mpr hfinished) h

/-- Tokens are taken up to the end of input, so that is where the last
one leaves the scanner. -/
theorem exhausted_of_tokenize {tokens : List Token} (hs : s.Sound)
    (h : tokenize s = .ok tokens t) : Exhausted t := by
  fun_induction tokenize s generalizing tokens t with
  | case1 s e u hnext => cases h
  | case2 s token u hnext hend =>
      cases h
      exact exhausted_of_next hs hnext hend
  | case3 s token u hnext hend hlt others v hothers ih =>
      cases h
      exact ih (keeps_next.ok hs hnext) hothers
  | case4 s token u hnext hend hlt e v hothers ih => cases h

/-- Once the end of input was shown, nothing is left. -/
theorem exhausted_of_showsEnd (hs : s.Sound) {call : Call} (h : (call.reply s).ShowsEnd) :
    Exhausted (call.leaves s) := by
  cases call with
  | isFinished => exact (exhausted_iff hs).mpr h
  | ask request =>
      rw [Call.leaves]
      rw [Call.reply] at h
      cases hperform : request.perform s with
      | error e t =>
          rw [leaves_of_error hperform]
          rw [hperform] at h
          cases e with
          | mismatch kind token => exact exhausted_of_next hs (next_of_mismatch hperform) h
          | _ => exact h.elim
      | ok answer t =>
          rw [leaves_of_ok hperform]
          rw [hperform] at h
          cases request with
          | next =>
              obtain ⟨token, u, hnext, hpure⟩ := bind_eq_ok hperform
              cases hpure
              exact exhausted_of_next hs hnext h
          | peek =>
              obtain ⟨token, u, hpeek, hpure⟩ := bind_eq_ok hperform
              cases hpure
              exact exhausted_of_peek hs hpeek h
          | peekKind =>
              obtain ⟨kind, u, hkind, hpure⟩ := bind_eq_ok hperform
              cases hpure
              obtain ⟨token, v, hpeek, hpure⟩ := bind_eq_ok hkind
              cases hpure
              exact exhausted_of_peek hs hpeek h
          | expect kind =>
              obtain ⟨token, u, hexpect, hpure⟩ := bind_eq_ok hperform
              cases hpure
              exact exhausted_of_next hs (next_of_expect hexpect).1 h
          | rawUntil delimiter =>
              obtain ⟨raw, u, -, hpure⟩ := bind_eq_ok hperform
              cases hpure
              exact h.elim
          | tokenize =>
              obtain ⟨tokens, u, htokens, hpure⟩ := bind_eq_ok hperform
              cases hpure
              exact exhausted_of_tokenize hs htokens

/-! ### Where a held token comes from -/

/-- A request does nothing, or leaves no token held, or looks at one. -/
theorem leaves_perform_cases (request : Request) (s : Scanner) :
    leaves request.perform s = s ∨ (leaves request.perform s).held = none ∨
      (s.held = none ∧ ∃ token, peek s = .ok token (leaves request.perform s)) := by
  have hnext : leaves next s = s ∨ (leaves next s).held = none := by
    cases hnext : next s with
    | ok token t =>
        rw [leaves_of_ok hnext]
        exact .inr (held_of_next hnext)
    | error e t =>
        rw [leaves_of_error hnext]
        exact .inl (eq_of_next_error hnext)
  have hpeek : leaves peek s = s ∨
      (s.held = none ∧ ∃ token, peek s = .ok token (leaves peek s)) := by
    cases hheld : s.held with
    | some token => exact .inl (leaves_of_ok (peek_of_held hheld))
    | none =>
        cases hpeek : peek s with
        | ok token t =>
            rw [leaves_of_ok hpeek]
            exact .inr ⟨rfl, token, rfl⟩
        | error e t =>
            rw [leaves_of_error hpeek]
            exact .inl (eq_of_peek_error hpeek)
  cases request with
  | next =>
      rw [Request.perform, leaves_bind_pure]
      exact hnext.imp_right .inl
  | peek =>
      rw [Request.perform, leaves_bind_pure]
      exact hpeek.imp_right .inr
  | peekKind =>
      rw [Request.perform, leaves_bind_pure, peekKind, leaves_bind_pure]
      exact hpeek.imp_right .inr
  | expect kind =>
      rw [Request.perform, leaves_bind_pure, leaves_expect]
      exact hnext.imp_right .inl
  | rawUntil delimiter =>
      rw [Request.perform, leaves_bind_pure]
      cases hraw : rawUntil delimiter s with
      | ok raw t =>
          rw [leaves_of_ok hraw]
          obtain ⟨hheld, more, -, -, rfl⟩ := rawUntil_eq_ok_cases hraw
          exact .inr (.inl hheld)
      | error e t =>
          rw [leaves_of_error hraw]
          exact .inl (rawUntil_eq_error hraw).1
  | tokenize =>
      rw [Request.perform, leaves_bind_pure, tokenize_eq]
      have hkeeps : Keeps (fun u => u.held = none) (fun _ u => u.held = none) next :=
        ⟨fun _ h => held_of_next h, fun hu h => eq_of_next_error h ▸ hu⟩
      cases hfirst : next s with
      | error e t =>
          rw [leaves_of_error (bind_of_error hfirst)]
          exact .inl (eq_of_next_error hfirst)
      | ok token t =>
          rw [leaves, bind_of_ok hfirst, ← leaves.eq_def]
          have hothers : Keeps (fun u => u.held = none) (fun _ u => u.held = none)
              (if token.kind = .eof then pure [token]
                else do return token :: (← tokenize) : Scan (List Token)) := by
            split
            · exact keeps_pure _
            · exact hkeeps.tokenize.bind fun _ => keeps_pure _
          exact .inr (.inl (hothers.leaves (held_of_next hfirst)))

end Scan

namespace Scanner

variable {s : Scanner} {token : Token}

/-- A token that is held after some requests was looked at by one of
them, and the others made no difference. -/
theorem exists_peek_of_held (hs : s.held = none) (requests : List Request)
    (h : (s.after requests).held = some token) :
    ∃ earlier, earlier <+: requests ∧ (s.after earlier).held = none ∧
      peek (s.after earlier) = .ok token (s.after requests) := by
  induction requests using List.reverseRecOn with
  | nil =>
      rw [after, List.foldl_nil, hs] at h
      cases h
  | append_singleton requests request ih =>
      have hafter : s.after (requests ++ [request]) = leaves request.perform (s.after requests) :=
        List.foldl_append
      rw [hafter] at h ⊢
      rcases leaves_perform_cases request (s.after requests) with
        hsame | hnone | ⟨hnone, found, hpeek⟩
      · rw [hsame] at h ⊢
        obtain ⟨earlier, hearlier, hheld, hpeek⟩ := ih h
        exact ⟨earlier, hearlier.trans (List.prefix_append ..), hheld, hpeek⟩
      · rw [hnone] at h
        cases h
      · rw [held_of_peek hpeek] at h
        cases h
        exact ⟨requests, List.prefix_append .., hnone, hpeek⟩

end Scanner

/-! ### Reading a script -/

namespace Program

/-- The statements that are read are the same after a look, and so is the
scanner that is left. The line on which reading begins need not be. -/
theorem read_leaves_peek (s : Scanner) :
    (outcome read (leaves peek s)).map statements = (outcome read s).map statements ∧
      leaves read (leaves peek s) = leaves read s := by
  have hmany : many nextStatement advancing_nextStatement (leaves peek s) =
      many nextStatement advancing_nextStatement s := by
    rw [many_eq]
    exact bind_congr_left _ (bind_congr_left _ (bind_congr_left _ (peek_leaves_peek s)))
  have hread : ∀ u : Scanner, (outcome read u).map statements =
        outcome (many nextStatement advancing_nextStatement) u ∧
      leaves read u = leaves (many nextStatement advancing_nextStatement) u := by
    intro u
    -- Apart from the line that it notes, reading is the repetition.
    let program : List Statement → Program := fun statements => ⟨u.line, statements⟩
    refine ⟨?_, leaves_bind_pure _ program u⟩
    refine (congrArg _ (outcome_bind_pure _ program u)).trans ?_
    cases outcome (many nextStatement advancing_nextStatement) u <;> rfl
  generalize leaves peek s = looked at hmany ⊢
  rw [(hread looked).1, (hread looked).2, (hread s).1, (hread s).2, outcome, leaves, hmany]
  exact ⟨rfl, rfl⟩

/-- A look may be put into the calls on the scanner of a script and
nothing else that comes back changes, and so for any number of looks put
in and taken out. In every state that requests lead to, a look finds what would
be taken, the scanner is finished exactly if that is the end of input,
and once the end was shown it is all that is found. An operation that
fails leaves the scanner as it is, but a token of the wrong kind is
taken. A token that is held was looked at in a state from which a script
is read to the same statements, or the same error. -/
theorem lookahead_transparent (source : Text) :
    let start := Scanner.ofText source
    (∀ front look back, look.isLook = true → Call.rawNext back = false →
      ∃ before reply behind, start.transcript (front ++ back) = before ++ behind ∧
        start.transcript (front ++ look :: back) = before ++ (look, reply) :: behind ∧
        before.map Prod.fst = front) ∧
    (∀ p q, Relation.EqvGen Call.Inserts p q → start.observed p = start.observed q) ∧
    ∀ requests, let s := start.after requests
      outcome peek s = outcome next s ∧
      outcome peekKind s = (outcome next s).map Token.kind ∧
      (s.isFinished = true ↔ ∃ token t, next s = .ok token t ∧ token.kind = .eof) ∧
      (∀ call : Call, (call.reply s).ShowsEnd → ∀ more,
        let u := (call.leaves s).after more
        (∃ token v, next u = .ok token v ∧ token.kind = .eof) ∧
          ∃ token v, peek u = .ok token v ∧ token.kind = .eof) ∧
      (∀ e t, next s = .error e t ∨ peek s = .error e t ∨ (∃ d, rawUntil d s = .error e t) →
        t = s) ∧
      (∀ token ∈ s.held, ∀ d, ∃ e, rawUntil d s = .error e s ∧
        ∃ message, e.diagnostic = .internal message) ∧
      (∀ token t kind, next s = .ok token t → token.kind ≠ kind →
        expect kind s = .error (.mismatch kind token) t) ∧
      (∀ token ∈ s.held, ∃ earlier, earlier <+: requests ∧
        let bare := start.after earlier
        bare.held = none ∧ peek bare = .ok token s ∧
          (outcome read s).map statements = (outcome read bare).map statements ∧
          leaves read s = leaves read bare) := by
  intro start
  refine ⟨fun front look back => start.transcript_insert front,
    fun p q => start.observed_eq_of_eqvGen, fun requests => ?_⟩
  intro s
  have hsound : s.Sound := Scanner.sound_after source requests
  refine ⟨outcome_peek s, ?_, isFinished_iff_next s, ?_, ?_, ?_, ?_, ?_⟩
  · rw [← outcome_peek]
    exact outcome_bind_pure peek Token.kind s
  · intro call hshows more
    obtain ⟨token, v, hpeek, hend, -⟩ := ((exhausted_of_showsEnd hsound hshows).after more).peek
    exact ⟨⟨token, v.drop, next_of_peek hpeek, hend⟩, token, v, hpeek, hend⟩
  · rintro e t (hnext | hpeek | ⟨d, hraw⟩)
    · exact eq_of_next_error hnext
    · exact eq_of_peek_error hpeek
    · exact (rawUntil_eq_error hraw).1
  · intro token hheld d
    refine ⟨.heldToken d token, ?_, _, rfl⟩
    rw [rawUntil, Option.mem_def.mp hheld]
  · exact fun token t kind => expect_of_next_ne
  · intro token hheld
    obtain ⟨earlier, hearlier, hnone, hpeek⟩ := Scanner.exists_peek_of_held rfl requests hheld
    have hread := read_leaves_peek (start.after earlier)
    rw [leaves_of_ok hpeek] at hread
    exact ⟨earlier, hearlier, hnone, hpeek, hread⟩

end Program

end StoredProc
