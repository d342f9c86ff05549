import Mathlib.Logic.Relation
import StoredProc.Proofs.Scanner.Request

/-!
Looking ahead is seen by nobody. A scanner that has looked at a token
does what it would have done before, except that it refuses raw text. So
a look may be put into a list of calls, or taken out, wherever the next
call that does something is not one for raw text, and every other call
comes back with what it came back with before.

All this follows from one fact: every operation but the one for raw text
gives the same result from a scanner and from the scanner that a look
leaves (`Scan.perform_leaves_peek`).
-/

namespace StoredProc

/-! ### Calls -/

/-- What can be called on a scanner: a request, or the question whether
it is finished. -/
inductive Call where
  | ask (request : Request)
  | isFinished
  deriving DecidableEq, Repr

inductive Reply where
  | answer (answer : Answer)
  | refused (error : SyntaxError)
  | finished (finished : Bool)
  deriving DecidableEq, Repr

namespace Call

def isLook : Call → Bool
  | ask .peek => true
  | ask .peekKind => true
  | _ => false

def leaves : Call → Scanner → Scanner
  | ask request, s => Scan.leaves request.perform s
  | isFinished, s => s

def reply : Call → Scanner → Reply
  | ask request, s =>
      match request.perform s with
      | .ok answer _ => .answer answer
      | .error e _ => .refused e
  | isFinished, s => .finished s.isFinished

/-- Whether the next call that does something is for raw text. A look or
a question does nothing. -/
def rawNext : List Call → Bool
  | [] => false
  | ask .peek :: calls => rawNext calls
  | ask .peekKind :: calls => rawNext calls
  | isFinished :: calls => rawNext calls
  | ask (.rawUntil _) :: _ => true
  | ask _ :: _ => false

/-- The second list has one look more than the first, which is not in
front of raw text. -/
inductive Inserts : List Call → List Call → Prop
  | intro (front : List Call) {look : Call} {back : List Call} (hlook : look.isLook = true)
      (hback : rawNext back = false) : Inserts (front ++ back) (front ++ look :: back)

end Call

namespace Scanner

def transcript (s : Scanner) : List Call → List (Call × Reply)
  | [] => []
  | call :: calls => (call, call.reply s) :: (call.leaves s).transcript calls

/-- What the calls come back with that are no looks. -/
def observed (s : Scanner) (calls : List Call) : List (Call × Reply) :=
  (s.transcript calls).filter fun entry => !entry.1.isLook

theorem transcript_append (s : Scanner) (front back : List Call) :
    s.transcript (front ++ back) =
      s.transcript front ++ (front.foldl (fun s call => call.leaves s) s).transcript back := by
  induction front generalizing s with
  | nil => rfl
  | cons call front ih => rw [List.cons_append, transcript, ih, transcript]; rfl

end Scanner

namespace Scan

variable {α : Type} {s s' t : Scanner} {token : Token}

def outcome (m : Scan α) (s : Scanner) : Except SyntaxError α :=
  match m s with
  | .ok a _ => .ok a
  | .error e _ => .error e

theorem outcome_bind_pure {β : Type} (m : Scan α) (f : α → β) (s : Scanner) :
    outcome (m >>= fun a => pure (f a)) s = (outcome m s).map f := by
  unfold outcome
  cases h : m s with
  | ok a t =>
      rw [bind_of_ok h]
      rfl
  | error e t =>
      rw [bind_of_error h]
      rfl

/-! ### A scanner that has looked -/

/-- To look again is to look. -/
theorem peek_leaves_peek (s : Scanner) : peek (leaves peek s) = peek s := by
  cases hpeek : peek s with
  | ok token t =>
      rw [leaves_of_ok hpeek]
      exact peek_of_held (held_of_peek hpeek)
  | error e t => rw [leaves_of_error hpeek, ← hpeek, eq_of_peek_error hpeek]

/-- What was looked at is what is taken. -/
theorem next_leaves_peek (s : Scanner) : next (leaves peek s) = next s := by
  have hagain := peek_leaves_peek s
  cases hpeek : peek s with
  | ok token t =>
      rw [hpeek] at hagain
      rw [next_of_peek hpeek, next_of_peek hagain]
  | error e t => rw [leaves_of_error hpeek, eq_of_peek_error hpeek]

theorem outcome_peek (s : Scanner) : outcome peek s = outcome next s := by
  unfold outcome
  cases hpeek : peek s with
  | ok token t => rw [next_of_peek hpeek]
  | error e t => rw [next_of_peek_error hpeek]

theorem bind_congr_left {β : Type} {m : Scan α} (k : α → Scan β) (h : m s = m s') :
    (m >>= k) s = (m >>= k) s' := by
  change EStateM.bind m k s = EStateM.bind m k s'
  rw [EStateM.bind, EStateM.bind, h]

/-- To take all tokens is to take one, and the others if it is not the
last. -/
theorem tokenize_eq :
    tokenize = (do
      let token ← next
      if token.kind = .eof then return [token] else return token :: (← tokenize) :
      Scan (List Token)) := by
  funext s
  rw [tokenize]
  split
  · next h => rw [bind_of_error h]
  · next token t h =>
      rw [bind_of_ok h]
      split
      · rfl
      · change _ = EStateM.bind tokenize _ t
        rw [EStateM.bind]
        cases tokenize t <;> rfl

/-- Every request but one for raw text comes to the same after a look,
and leaves the same scanner. -/
theorem perform_leaves_peek {request : Request} (h : ∀ d, request ≠ .rawUntil d) (s : Scanner) :
    request.perform (leaves peek s) = request.perform s := by
  cases request with
  | next => exact bind_congr_left _ (next_leaves_peek s)
  | peek => exact bind_congr_left _ (peek_leaves_peek s)
  | peekKind => exact bind_congr_left _ (bind_congr_left _ (peek_leaves_peek s))
  | expect kind => exact bind_congr_left _ (bind_congr_left _ (next_leaves_peek s))
  | rawUntil d => exact absurd rfl (h d)
  | tokenize =>
      rw [Request.perform, tokenize_eq]
      exact bind_congr_left _ (bind_congr_left _ (next_leaves_peek s))

/-- A scanner is finished if the end of input is next. -/
theorem isFinished_iff_next (s : Scanner) :
    s.isFinished = true ↔ ∃ token t, next s = .ok token t ∧ token.kind = .eof := by
  unfold Scanner.isFinished next
  cases hheld : s.held with
  | some token => simp
  | none =>
      dsimp only
      constructor
      · intro hend
        obtain hrest : s.rest = [] := by simpa using hend
        refine ⟨⟨s.line, .eof, []⟩, s.pass ⟨.eof, [], []⟩, ?_, rfl⟩
        rw [cut, hrest]
        rfl
      · rintro ⟨token, t, hcut, hend⟩
        obtain ⟨hrest, hcut, -⟩ := spec_of_cut hcut
        obtain ⟨htext, hnil⟩ := Cut.eof_iff.mp (hend ▸ hcut)
        rw [hrest, htext, hnil]
        rfl

theorem isFinished_leaves_peek (s : Scanner) :
    (leaves peek s).isFinished = s.isFinished := by
  rw [Bool.eq_iff_iff, isFinished_iff_next, isFinished_iff_next, next_leaves_peek]

end Scan

namespace Call

theorem leaves_of_isLook {look : Call} (h : look.isLook = true) (s : Scanner) :
    look.leaves s = Scan.leaves Scan.peek s := by
  unfold isLook at h
  split at h
  · rw [leaves, Request.perform, Scan.leaves_bind_pure]
  · rw [leaves, Request.perform, Scan.leaves_bind_pure, Scan.peekKind, Scan.leaves_bind_pure]
  · cases h

end Call

namespace Scanner

open Call Scan

/-! ### Transcripts -/

/-- Where no raw text is next, a look makes no difference to what is
called behind it. -/
theorem transcript_leaves_peek {calls : List Call} (h : rawNext calls = false) (s : Scanner) :
    (leaves peek s).transcript calls = s.transcript calls := by
  induction calls with
  | nil => rfl
  | cons call calls ih =>
      cases call with
      | isFinished =>
          rw [transcript, transcript, reply, reply, isFinished_leaves_peek]
          exact congrArg _ (ih h)
      | ask request =>
          have hraw : ∀ d, request ≠ .rawUntil d := by
            rintro d rfl
            cases h
          simp only [transcript, reply, Call.leaves, Scan.leaves.eq_def request.perform,
            perform_leaves_peek hraw]

/-- A look that is put in comes back with something, and no other call
with anything else. -/
theorem transcript_insert (s : Scanner) (front : List Call) {look : Call} {back : List Call}
    (hlook : look.isLook = true) (hback : rawNext back = false) :
    ∃ before reply behind, s.transcript (front ++ back) = before ++ behind ∧
      s.transcript (front ++ look :: back) = before ++ (look, reply) :: behind ∧
      before.map Prod.fst = front := by
  let mid := front.foldl (fun s call => call.leaves s) s
  refine ⟨s.transcript front, look.reply mid, mid.transcript back, transcript_append s front back,
    ?_, ?_⟩
  · rw [transcript_append, transcript, leaves_of_isLook hlook, transcript_leaves_peek hback]
  · induction front generalizing s with
    | nil => rfl
    | cons call front ih => exact congrArg _ (ih _)

theorem observed_eq_of_inserts (s : Scanner) {p q : List Call} (h : Inserts p q) :
    s.observed p = s.observed q := by
  obtain ⟨front, hlook, hback⟩ := h
  obtain ⟨before, reply, behind, hp, hq, -⟩ := s.transcript_insert front hlook hback
  rw [observed, observed, hp, hq, List.filter_append, List.filter_append, List.filter_cons,
    if_neg (by simp [hlook])]

/-- However many looks are put in and taken out, the other calls come
back with the same. -/
theorem observed_eq_of_eqvGen (s : Scanner) {p q : List Call} (h : Relation.EqvGen Inserts p q) :
    s.observed p = s.observed q := by
  induction h with
  | rel p q h => exact s.observed_eq_of_inserts h
  | refl p => rfl
  | symm p q _ ih => exact ih.symm
  | trans p q r _ _ ihp ihq => exact ihp.trans ihq

end Scanner

end StoredProc
