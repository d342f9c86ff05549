import StoredProc.Proofs.Scanner.Lockstep

/-!
A scanner in anybody's hands. Its operations can be asked for in any
order, and asking goes on after an answer that was refused. What is true
of the scanner afterwards is what every request keeps, whether it
succeeds or fails.

One such fact is that a token that is held is still the first token of
the text it was cut off, so that every token handed out is spelled as its
kind says. Lines have no part in it: raw text may be asked for up to a
delimiter that breaks a line.
-/

namespace StoredProc

open Text

inductive Request where
  | next
  | peek
  | peekKind
  | expect (kind : Kind)
  | rawUntil (delimiter : Char)
  | tokenize
  deriving DecidableEq, Repr

inductive Answer where
  | token (token : Token)
  | kind (kind : Kind)
  | text (text : Text)
  | tokens (tokens : List Token)
  deriving DecidableEq, Repr

def Answer.produced : Answer → List Token
  | token found => [found]
  | tokens found => found
  | kind _ => []
  | text _ => []

def Request.perform : Request → Scan Answer
  | next => do return .token (← Scan.next)
  | peek => do return .token (← Scan.peek)
  | peekKind => do return .kind (← Scan.peekKind)
  | expect kind => do return .token (← Scan.expect kind)
  | rawUntil delimiter => do return .text (← Scan.rawUntil delimiter)
  | tokenize => do return .tokens (← Scan.tokenize)

/-- The scanner that an operation leaves, whether it succeeds or
fails. -/
def Scan.leaves {α : Type} (m : Scan α) (s : Scanner) : Scanner :=
  match m s with
  | .ok _ t => t
  | .error _ t => t

namespace Scanner

def after (s : Scanner) (requests : List Request) : Scanner :=
  requests.foldl (fun s request => Scan.leaves request.perform s) s

/-- A token that is held is the first of the text it was cut off. -/
def Sound (s : Scanner) : Prop := ∀ token ∈ s.held, Cut token.kind token.text s.rest

theorem sound_of_none {s : Scanner} (h : s.held = none) : s.Sound := by
  intro token htoken
  rw [h] at htoken
  cases htoken

end Scanner

/-- The errors of a script that is not as it should be. The other two
are of operations used against their rules. -/
def SyntaxError.IsOrdinary : SyntaxError → Prop
  | unexpectedSymbol _ _ => True
  | missingDelimiter _ _ => True
  | mismatch _ _ => True
  | unexpected _ _ => True
  | misspelt _ _ => False
  | heldToken _ _ => False

def SyntaxError.Blames (e : SyntaxError) (s : Scanner) : Prop := e.IsOrdinary ∧ s.Sound

namespace Scan

variable {α : Type} {inv : Scanner → Prop} {fault fault' : SyntaxError → Scanner → Prop}
  {s t : Scanner} {token : Token} {d : Char}

theorem Keeps.mono {m : Scan α} (h : Keeps inv fault m) (hfault : ∀ e t, fault e t → fault' e t) :
    Keeps inv fault' m :=
  ⟨h.ok, fun hs herror => hfault _ _ (h.error hs herror)⟩

theorem leaves_of_ok {m : Scan α} {a : α} (h : m s = .ok a t) : leaves m s = t := by
  rw [leaves, h]

theorem leaves_of_error {m : Scan α} {e : SyntaxError} (h : m s = .error e t) :
    leaves m s = t := by
  rw [leaves, h]

/-- To make something of an answer does not move the scanner. -/
theorem leaves_bind_pure {β : Type} (m : Scan α) (f : α → β) (s : Scanner) :
    leaves (m >>= fun a => pure (f a)) s = leaves m s := by
  change (match EStateM.bind m (fun a => pure (f a)) s with | .ok _ t => t | .error _ t => t) = _
  rw [EStateM.bind, leaves]
  cases m s <;> rfl

/-- An operation that keeps an invariant on success and on failure
leaves it. -/
theorem Keeps.leaves {m : Scan α} (h : Keeps inv (fun _ t => inv t) m) (hs : inv s) :
    inv (leaves m s) := by
  unfold Scan.leaves
  split
  · next hok => exact h.ok hs hok
  · next herror => exact h.error hs herror

/-! ### What is put together from taking and looking -/

theorem Keeps.expect (h : Keeps inv (fun _ t => inv t) next) (kind : Kind) :
    Keeps inv (fun _ t => inv t) (expect kind) := by
  refine h.bind fun token => ?_
  split
  · exact keeps_pure token
  · refine ⟨?_, ?_⟩
    · intro s a t hs h
      cases h
    · intro s e t hs h
      cases h
      exact hs

theorem Keeps.tokenize (h : Keeps inv fault next) : Keeps inv fault tokenize := by
  refine ⟨?_, ?_⟩
  · intro s
    fun_induction Scan.tokenize s with
    | case1 s e t hnext => intro tokens u hs h; cases h
    | case2 s token t hnext hend =>
        intro tokens u hs hu
        cases hu
        exact h.ok hs hnext
    | case3 s token t hnext hend hlt tokens u hrest ih =>
        intro all v hs hv
        cases hv
        exact ih (h.ok hs hnext) hrest
    | case4 s token t hnext hend hlt e u hrest ih => intro tokens v hs hv; cases hv
  · intro s
    fun_induction Scan.tokenize s with
    | case1 s e t hnext =>
        intro e' u hs hu
        cases hu
        exact h.error hs hnext
    | case2 s token t hnext hend => intro e u hs hu; cases hu
    | case3 s token t hnext hend hlt tokens u hrest ih => intro e v hs hv; cases hv
    | case4 s token t hnext hend hlt e u hrest ih =>
        intro e' v hs hv
        cases hv
        exact ih (h.ok hs hnext) hrest

/-- What taking, looking and passing raw text keep, every request
keeps. -/
theorem Keeps.perform {request : Request} (hnext : Keeps inv (fun _ t => inv t) next)
    (hpeek : Keeps inv (fun _ t => inv t) peek)
    (hraw : ∀ d, request = .rawUntil d → Keeps inv (fun _ t => inv t) (rawUntil d)) :
    Keeps inv (fun _ t => inv t) request.perform := by
  cases request with
  | next => exact hnext.bind fun _ => keeps_pure _
  | peek => exact hpeek.bind fun _ => keeps_pure _
  | peekKind => exact (hpeek.bind fun _ => keeps_pure _).bind fun _ => keeps_pure _
  | expect kind => exact (hnext.expect kind).bind fun _ => keeps_pure _
  | rawUntil delimiter => exact (hraw delimiter rfl).bind fun _ => keeps_pure _
  | tokenize => exact hnext.tokenize.bind fun _ => keeps_pure _

/-! ### Single operations -/

/-- A token is taken, of whatever kind it is. -/
theorem leaves_expect (kind : Kind) (s : Scanner) : leaves (expect kind) s = leaves next s := by
  cases hnext : next s with
  | ok token t =>
      rw [leaves_of_ok hnext]
      by_cases hkind : token.kind = kind
      · exact leaves_of_ok (expect_of_next hnext hkind)
      · exact leaves_of_error (expect_of_next_ne hnext hkind)
  | error e t =>
      rw [leaves_of_error hnext]
      exact leaves_of_error (bind_of_error hnext)

theorem eq_of_next_error {e : SyntaxError} (h : next s = .error e t) : t = s := by
  obtain ⟨c, -, -, rfl⟩ := cut_eq_error (next_eq_error h).2
  rfl

theorem eq_of_peek_error {e : SyntaxError} (h : peek s = .error e t) : t = s := by
  obtain ⟨c, -, -, rfl⟩ := cut_eq_error (peek_eq_error h).2
  rfl

theorem cut_of_sound_next (hs : s.Sound) (h : next s = .ok token t) :
    Cut token.kind token.text t.rest ∧ t.held = none := by
  unfold next at h
  split at h
  · next hheld =>
      cases h
      exact ⟨hs token hheld, rfl⟩
  · next hheld =>
      obtain ⟨-, hcut, -, -, hsame⟩ := spec_of_cut h
      exact ⟨hcut, hsame.trans hheld⟩

theorem cut_of_sound_peek (hs : s.Sound) (h : peek s = .ok token t) :
    Cut token.kind token.text t.rest := by
  unfold peek at h
  split at h
  · next hheld =>
      cases h
      exact hs token hheld
  · split at h
    · next u hcut =>
        cases h
        exact (spec_of_cut hcut).2.1
    · cases h

/-- Where no token can be cut off, the script is to blame and the scanner
does not move. -/
theorem blames_of_cut {e : SyntaxError} (hs : s.Sound) (h : cut s = .error e t) : e.Blames t := by
  obtain ⟨c, -, rfl, rfl⟩ := cut_eq_error h
  exact ⟨trivial, hs⟩

theorem keeps_next : Keeps Scanner.Sound SyntaxError.Blames next :=
  ⟨fun hs h => Scanner.sound_of_none (cut_of_sound_next hs h).2,
    fun hs h => blames_of_cut hs (next_eq_error h).2⟩

theorem keeps_peek : Keeps Scanner.Sound SyntaxError.Blames peek := by
  refine ⟨?_, fun hs h => blames_of_cut hs (peek_eq_error h).2⟩
  intro s token t hs h held hheld
  rw [held_of_peek h] at hheld
  cases hheld
  exact cut_of_sound_peek hs h

theorem keeps_expect (kind : Kind) : Keeps Scanner.Sound SyntaxError.Blames (expect kind) := by
  refine keeps_next.bind fun token => ?_
  split
  · exact keeps_pure token
  · refine ⟨?_, ?_⟩
    · intro s a t hs h
      cases h
    · intro s e t hs h
      cases h
      exact ⟨trivial, hs⟩

theorem keeps_rawUntil (d : Char) :
    Keeps Scanner.Sound (fun _ t => t.Sound) (rawUntil d) := by
  refine ⟨?_, ?_⟩
  · intro s raw t hs h
    unfold rawUntil at h
    split at h
    · cases h
    · next hheld =>
        split at h
        · cases h
        · cases h
          exact Scanner.sound_of_none hheld
  · intro s e t hs h
    rw [(rawUntil_eq_error h).1]
    exact hs

/-! ### Requests -/

theorem keeps_perform (request : Request) :
    Keeps Scanner.Sound (fun _ t => t.Sound) request.perform := by
  have hweak : ∀ (e : SyntaxError) (t : Scanner), e.Blames t → t.Sound := fun e t h => h.2
  exact (keeps_next.mono hweak).perform (keeps_peek.mono hweak) fun d _ => keeps_rawUntil d

theorem spelt_of_tokenize {tokens : List Token} (hs : s.Sound) (h : tokenize s = .ok tokens t) :
    ∀ token ∈ tokens, token.Spelt := by
  fun_induction tokenize s generalizing tokens t with
  | case1 s e t hnext => cases h
  | case2 s token u hnext hend =>
      cases h
      intro other hother
      rw [List.mem_singleton.mp hother]
      exact ⟨_, (cut_of_sound_next hs hnext).1⟩
  | case3 s token u hnext hend hlt others v hrest ih =>
      cases h
      intro other hother
      rcases List.mem_cons.mp hother with rfl | hother
      · exact ⟨_, (cut_of_sound_next hs hnext).1⟩
      · exact ih (keeps_next.ok hs hnext) hrest other hother
  | case4 s token u hnext hend hlt e v hrest ih => cases h

/-- An answer hands out tokens that are spelled as their kinds say. -/
theorem spelt_of_perform {request : Request} {answer : Answer} (hs : s.Sound)
    (h : request.perform s = .ok answer t) : ∀ token ∈ answer.produced, token.Spelt := by
  have hsingle : ∀ {token : Token} {rest : Text}, Cut token.kind token.text rest →
      ∀ other ∈ [token], other.Spelt := by
    intro token rest hcut other hother
    rw [List.mem_singleton.mp hother]
    exact ⟨rest, hcut⟩
  cases request with
  | next =>
      obtain ⟨token, u, hnext, h⟩ := bind_eq_ok h
      cases h
      exact hsingle (cut_of_sound_next hs hnext).1
  | peek =>
      obtain ⟨token, u, hpeek, h⟩ := bind_eq_ok h
      cases h
      exact hsingle (cut_of_sound_peek hs hpeek)
  | expect kind =>
      obtain ⟨token, u, hexpect, h⟩ := bind_eq_ok h
      cases h
      exact hsingle (cut_of_sound_next hs (next_of_expect hexpect).1).1
  | tokenize =>
      obtain ⟨tokens, u, htokens, h⟩ := bind_eq_ok h
      cases h
      exact spelt_of_tokenize hs htokens
  | peekKind | rawUntil delimiter =>
      obtain ⟨_, u, -, h⟩ := bind_eq_ok h
      cases h
      exact fun token htoken => absurd htoken List.not_mem_nil

end Scan

/-- What every request keeps is true after any requests. -/
theorem Scanner.after_of_keeps {inv : Scanner → Prop}
    (h : ∀ request : Request, Scan.Keeps inv (fun _ t => inv t) request.perform) {s : Scanner}
    (hs : inv s) (requests : List Request) : inv (s.after requests) := by
  induction requests generalizing s with
  | nil => exact hs
  | cons request requests ih => exact ih ((h request).leaves hs)

/-- A scanner is sound whatever was asked of it. -/
theorem Scanner.sound_after (source : Text) (requests : List Request) :
    ((Scanner.ofText source).after requests).Sound :=
  after_of_keeps Scan.keeps_perform (sound_of_none rfl) requests

end StoredProc
