import Mathlib.Logic.Function.Iterate
import StoredProc.Proofs.Program.Lookahead
import StoredProc.Proofs.Program.Plain
import StoredProc.Proofs.Program.Safety
import StoredProc.Proofs.Text.Utf8

/-!
Reading a script goes forward. What has not been taken yet is the
measure: whatever is done with a scanner, the text that is unread
afterwards is an end of the text that was unread before, also where the
scanner is left in the middle of a statement. A statement that is read
takes at least the token it begins with, and a further parameter its
comma, so that each loop goes round at most as often as characters are
left, and reading comes to an end.

The loops are made with a coarser measure, for which a token that is held
counts for one. `Scan.unread_lt_of_size_lt` passes from one to the other:
from a scanner that holds a token, taking nothing would leave that
measure as it is.
-/

namespace StoredProc

open Text Scan Statement.Parse

/-! ### What can be done with a scanner -/

/-- Something is asked of a scanner, or a part of a script is read from
it. -/
inductive Operation where
  | ask (request : Request)
  | skipBlank
  | expectSpaced (kind : Kind)
  | unexpected (expected : Expectation)
  | sigilVariable
  | quoted (mark : Kind) (delimiter : Char)
  | literal
  | valueType
  | direction
  | param
  | nextParam
  | params
  | sigilAssignment
  | declarationOrAssignment
  | printing
  | procedureHeader
  | executeImmediate
  | ending
  | statement
  | program
  deriving DecidableEq, Repr

def Operation.leaves : Operation → Scanner → Scanner
  | ask request => Scan.leaves request.perform
  | skipBlank => Scan.leaves Statement.Parse.skipBlank
  | expectSpaced kind => Scan.leaves (Statement.Parse.expectSpaced kind)
  | unexpected expected => Scan.leaves (Statement.Parse.unexpected expected : Scan Unit)
  | sigilVariable => Scan.leaves Statement.Parse.sigilVariable
  | quoted mark delimiter => Scan.leaves (Statement.Parse.quoted mark delimiter)
  | literal => Scan.leaves Statement.Parse.literal
  | valueType => Scan.leaves Statement.Parse.valueType
  | direction => Scan.leaves Statement.Parse.direction
  | param => Scan.leaves Statement.Parse.param
  | nextParam => Scan.leaves Statement.Parse.nextParam
  | params => Scan.leaves Statement.Parse.params
  | sigilAssignment => Scan.leaves Statement.Parse.sigilAssignment
  | declarationOrAssignment => Scan.leaves Statement.Parse.declarationOrAssignment
  | printing => Scan.leaves Statement.Parse.printing
  | procedureHeader => Scan.leaves Statement.Parse.procedureHeader
  | executeImmediate => Scan.leaves Statement.Parse.executeImmediate
  | ending => Scan.leaves Statement.Parse.ending
  | statement => Scan.leaves Statement.parse
  | program => Scan.leaves Program.read

namespace Scanner

def worked (s : Scanner) (operations : List Operation) : Scanner :=
  operations.foldl (fun s operation => operation.leaves s) s

/-- The place of the scanner in the bytes of the script: its cursor, less
the length of a token that is held. -/
def offset (source : Text) (s : Scanner) : Nat :=
  Utf8.size source - Utf8.size s.rest - Utf8.size s.heldText

end Scanner

namespace Scan

/-- What the few operations keep, also where they fail, and what does not
depend on the trace. -/
structure Lasting (inv : Scanner → Prop) : Prop where
  next : Keeps inv (fun _ t => inv t) next
  peek : Keeps inv (fun _ t => inv t) peek
  rawUntil : ∀ d, Keeps inv (fun _ t => inv t) (rawUntil d)
  trace : ∀ {s} event, inv s → inv { s with trace := event :: s.trace }

/-- A loop that repeats a step as long as it finds something: it goes
round `n` times, ends with what was found or with an error, and leaves a
scanner. -/
inductive EndsAfter {α : Type} (step : Scan (Option α)) :
    Nat → Scanner → Except SyntaxError (List α) → Scanner → Prop
  | done {s t : Scanner} (h : step s = .ok none t) : EndsAfter step 0 s (.ok []) t
  | failed {s t : Scanner} {e : SyntaxError} (h : step s = .error e t) :
      EndsAfter step 0 s (.error e) t
  | more {n : Nat} {s t u : Scanner} {a : α} {result : Except SyntaxError (List α)}
      (h : step s = .ok (some a) t) (hmore : EndsAfter step n t result u) :
      EndsAfter step (n + 1) s (result.map (a :: ·)) u

variable {α : Type} {inv : Scanner → Prop} {m : Scan α} {s t : Scanner}

/-! ### What every operation keeps -/

namespace Lasting

theorem plain (h : Lasting inv) (hm : Plain m) : Keeps inv (fun _ t => inv t) m :=
  hm.keeps h.next h.peek h.rawUntil fun hs _ => hs

theorem nextStatement (h : Lasting inv) :
    Keeps inv (fun _ t => inv t) Program.nextStatement := by
  refine (h.plain plain_peekKind).bind fun kind => ?_
  split
  · exact keeps_pure none
  · exact (h.plain plain_parse).bind fun _ => (keeps_note (h.trace _)).bind fun _ => keeps_pure _

theorem read (h : Lasting inv) : Keeps inv (fun _ t => inv t) Program.read := by
  have hget : Keeps inv (fun _ t => inv t) (get : Scan Scanner) := by
    refine ⟨?_, ?_⟩
    · intro s a t hs hok
      cases hok
      exact hs
    · intro s e t hs herror
      cases herror
  exact hget.bind fun _ =>
    (keeps_many Program.advancing_nextStatement h.nextStatement).bind fun _ => keeps_pure _

theorem leaves (h : Lasting inv) (operation : Operation) (hs : inv s) :
    inv (operation.leaves s) := by
  have hplain : ∀ {α : Type} {m : Scan α}, Plain m → inv (Scan.leaves m s) := fun hm =>
    (h.plain hm).leaves hs
  cases operation with
  | ask request => exact (h.next.perform h.peek fun d _ => h.rawUntil d).leaves hs
  | skipBlank => exact hplain plain_skipBlank
  | expectSpaced kind => exact hplain (plain_expectSpaced kind)
  | unexpected expected => exact hplain (plain_unexpected expected)
  | sigilVariable => exact hplain plain_sigilVariable
  | quoted mark delimiter => exact hplain (plain_quoted mark delimiter)
  | literal => exact hplain plain_literal
  | valueType => exact hplain plain_valueType
  | direction => exact hplain plain_direction
  | param => exact hplain plain_param
  | nextParam => exact hplain plain_nextParam
  | params => exact hplain plain_params
  | sigilAssignment => exact hplain plain_sigilAssignment
  | declarationOrAssignment => exact hplain plain_declarationOrAssignment
  | printing => exact hplain plain_printing
  | procedureHeader => exact hplain plain_procedureHeader
  | executeImmediate => exact hplain plain_executeImmediate
  | ending => exact hplain plain_ending
  | statement => exact hplain plain_parse
  | program => exact h.read.leaves hs

theorem worked (h : Lasting inv) (hs : inv s) (operations : List Operation) :
    inv (s.worked operations) := by
  induction operations generalizing s with
  | nil => exact hs
  | cons operation operations ih => exact ih (h.leaves operation hs)

end Lasting

theorem lasting_sound : Lasting Scanner.Sound where
  next := keeps_next.mono fun _ _ h => h.2
  peek := keeps_peek.mono fun _ _ h => h.2
  rawUntil := keeps_rawUntil
  trace := fun _ hs => hs

/-- What is unread stays an end of what was unread. -/
theorem lasting_suffix (text : Text) : Lasting fun s => s.unread <:+ text where
  next := by
    refine ⟨?_, ?_⟩
    · intro s token t hs h
      rw [unread_of_next h] at hs
      exact (List.suffix_append _ _).trans hs
    · intro s e t hs h
      rwa [eq_of_next_error h]
  peek := by
    refine ⟨?_, ?_⟩
    · intro s token t hs h
      rwa [unread_of_peek h]
    · intro s e t hs h
      rwa [eq_of_peek_error h]
  rawUntil := by
    intro d
    refine ⟨?_, ?_⟩
    · intro s raw t hs h
      have hunread := unread_leaves_rawUntil d s
      rw [leaves_of_ok h] at hunread
      rw [hunread] at hs
      exact (List.suffix_append _ _).trans hs
    · intro s e t hs h
      rwa [(rawUntil_eq_error h).1]
  trace := fun _ hs => hs

theorem Plain.suffix (hm : Plain m) (s : Scanner) : (leaves m s).unread <:+ s.unread :=
  ((lasting_suffix s.unread).plain hm).leaves List.suffix_rfl

theorem Plain.suffix_of_ok {a : α} (hm : Plain m) (h : m s = .ok a t) : t.unread <:+ s.unread := by
  have hsuffix := hm.suffix s
  rwa [leaves_of_ok h] at hsuffix

/-! ### What is taken -/

/-- A token other than the end of input is not empty. -/
theorem unread_lt_of_next {token : Token} (hs : s.Sound) (h : next s = .ok token t)
    (hkind : token.kind ≠ .eof) : t.unread.length < s.unread.length := by
  have hne := (cut_of_sound_next hs h).1.text_ne_nil hkind
  have hpos := List.length_pos_iff.mpr hne
  rw [unread_of_next h, List.length_append]
  omega

/-- A scanner that holds a token is no larger than one at the same place
of the script. -/
theorem size_le_of_unread_eq {token : Token} (hs : s.Sound) (ht : t.Sound)
    (hheld : s.held = some token) (h : t.unread = s.unread) : s.size ≤ t.size := by
  have hcut := hs token hheld
  rw [Scanner.unread_of_some hheld] at h
  cases hother : t.held with
  | some other =>
      rw [Scanner.unread_of_some hother] at h
      obtain ⟨hkind, -, hrest⟩ := (ht other hother).unique hcut h
      simp [Scanner.size, hheld, hother, Scanner.heldSize, hkind, hrest]
  | none =>
      rw [Scanner.unread_of_none hother] at h
      simp only [Scanner.size, hheld, hother, Scanner.heldSize, h, List.length_append]
      split
      · omega
      · next hkind =>
          have hpos := List.length_pos_iff.mpr (hcut.text_ne_nil hkind)
          omega

/-- From a scanner that holds a token, what makes the scanner smaller
takes some of the script. -/
theorem unread_lt_of_size_lt {token : Token} (hs : s.Sound) (ht : t.Sound)
    (hheld : s.held = some token) (hsuffix : t.unread <:+ s.unread) (hsize : t.size < s.size) :
    t.unread.length < s.unread.length := by
  refine Nat.lt_of_le_of_ne hsuffix.length_le fun hlength => ?_
  have hle := size_le_of_unread_eq hs ht hheld (hsuffix.eq_of_length hlength)
  omega

/-- A statement takes some of the script. It begins with a look, so it
may as well be read from the scanner that holds the token. -/
theorem unread_lt_of_parse {statement : Statement} (hs : s.Sound)
    (h : Statement.parse s = .ok statement t) : t.unread.length < s.unread.length := by
  obtain ⟨kind, u, hkind, -⟩ := bind_eq_ok h
  obtain ⟨token, v, hpeek, hpure⟩ := bind_eq_ok hkind
  cases hpure
  have hagain : Statement.parse u = .ok statement t := by
    rw [← h, ← leaves_of_ok hpeek]
    exact bind_congr_left _ (bind_congr_left _ (peek_leaves_peek s))
  have hu : u.Sound := keeps_peek.ok hs hpeek
  rw [← unread_of_peek hpeek]
  exact unread_lt_of_size_lt hu ((lasting_sound.plain plain_parse).ok hu hagain)
    (held_of_peek hpeek) (plain_parse.suffix_of_ok hagain) (Statement.consuming_parse hagain)

/-- Where a comma is found, it is taken, whether or not a parameter
follows it. -/
theorem unread_lt_of_comma {u : Scanner} (hs : s.Sound) (hskip : skipBlank s = .ok () t)
    (hcomma : peekKind t = .ok .comma u) :
    (leaves nextParam s).unread.length < s.unread.length := by
  have ht : t.Sound := (lasting_sound.plain plain_skipBlank).ok hs hskip
  have hrest : leaves nextParam s = leaves (do
      let _ ← expect .comma
      let param ← param
      return some param : Scan (Option Param)) u := by
    unfold leaves
    rw [nextParam, bind_of_ok hskip, bind_of_ok hcomma, if_pos rfl]
  obtain ⟨token, v, hpeek, hpure⟩ := bind_eq_ok hcomma
  obtain ⟨hkind, rfl⟩ : token.kind = .comma ∧ v = u := EStateM.Result.ok.inj hpure
  have hlt : v.drop.unread.length < t.unread.length :=
    unread_lt_of_next ht (next_of_peek hpeek) (by rw [hkind]; decide)
  have hparam : leaves nextParam s = leaves (do
      let param ← param
      return some param : Scan (Option Param)) v.drop := by
    rw [hrest]
    unfold leaves
    rw [bind_of_ok (expect_of_peek (peek_of_held (held_of_peek hpeek)) hkind)]
  have hthere := (plain_skipBlank.suffix_of_ok hskip).length_le
  have hbehind := ((Plain.bind plain_param fun param => .pure (some param)).suffix v.drop).length_le
  rw [hparam]
  omega

theorem unread_lt_of_nextParam {param : Param} (hs : s.Sound)
    (h : nextParam s = .ok (some param) t) : t.unread.length < s.unread.length := by
  obtain ⟨⟨⟩, u, hskip, hchoice⟩ := bind_eq_ok h
  obtain ⟨kind, v, hkind, hchoice⟩ := bind_eq_ok hchoice
  split at hchoice
  · next hcomma =>
      rw [hcomma] at hkind
      have hlt := unread_lt_of_comma hs hskip hkind
      rwa [leaves_of_ok h] at hlt
  · cases hchoice

theorem unread_lt_of_nextStatement {statement : Statement} (hs : s.Sound)
    (h : Program.nextStatement s = .ok (some statement) t) :
    t.unread.length < s.unread.length := by
  obtain ⟨kind, u, hkind, hchoice⟩ := bind_eq_ok h
  have hu : u.Sound := (lasting_sound.plain plain_peekKind).ok hs hkind
  have hle := (plain_peekKind.suffix_of_ok hkind).length_le
  split at hchoice
  · cases hchoice
  · obtain ⟨found, v, hparse, hchoice⟩ := bind_eq_ok hchoice
    obtain ⟨⟨⟩, w, hnote, hpure⟩ := bind_eq_ok hchoice
    cases hnote
    cases hpure
    have hlt := unread_lt_of_parse hu hparse
    change v.unread.length < s.unread.length
    omega

/-! ### Loops come to an end -/

/-- A loop whose every round takes some of the script goes round at most
as often as characters are left. -/
theorem endsAfter_many {step : Scan (Option α)} (hadvancing : Advancing step)
    (hkeeps : Keeps Scanner.Sound (fun _ t => t.Sound) step)
    (hlt : ∀ {s a t}, s.Sound → step s = .ok (some a) t → t.unread.length < s.unread.length)
    (hs : s.Sound) :
    ∃ n, EndsAfter step n s (outcome (many step hadvancing) s) (leaves (many step hadvancing) s) ∧
      n ≤ s.unread.length := by
  unfold outcome leaves
  fun_induction many step hadvancing s with
  | case1 s e t hstep => exact ⟨0, .failed hstep, Nat.zero_le _⟩
  | case2 s t hstep => exact ⟨0, .done hstep, Nat.zero_le _⟩
  | case3 s a t hstep hsize as u hmany ih =>
      obtain ⟨n, hends, hn⟩ := ih (hkeeps.ok hs hstep)
      rw [hmany] at hends
      have hround := hlt hs hstep
      exact ⟨n + 1, .more hstep hends, by omega⟩
  | case4 s a t hstep hsize e u hmany ih =>
      obtain ⟨n, hends, hn⟩ := ih (hkeeps.ok hs hstep)
      rw [hmany] at hends
      have hround := hlt hs hstep
      exact ⟨n + 1, .more hstep hends, by omega⟩

theorem EndsAfter.length_eq {step : Scan (Option α)} {n : Nat} {as : List α}
    {result : Except SyntaxError (List α)} (h : EndsAfter step n s result t)
    (hresult : result = .ok as) : as.length = n := by
  induction h generalizing as with
  | done h =>
      cases hresult
      rfl
  | failed h => cases hresult
  | more h hmore ih =>
      rename_i found
      cases found with
      | error e => cases hresult
      | ok bs =>
          cases hresult
          rw [List.length_cons, ih rfl]

/-! ### The end of a script -/

theorem exhausted_of_nextStatement (hs : s.Sound) (h : Program.nextStatement s = .ok none t) :
    Exhausted t := by
  obtain ⟨kind, u, hkind, hchoice⟩ := bind_eq_ok h
  split at hchoice
  · next hend =>
      cases hchoice
      obtain ⟨token, v, hpeek, hpure⟩ := bind_eq_ok hkind
      obtain ⟨htoken, rfl⟩ : token.kind = kind ∧ v = t := EStateM.Result.ok.inj hpure
      exact exhausted_of_peek hs hpeek (htoken.trans hend)
  · obtain ⟨found, v, -, hchoice⟩ := bind_eq_ok hchoice
    obtain ⟨⟨⟩, w, -, hpure⟩ := bind_eq_ok hchoice
    cases hpure

theorem exhausted_of_statements {statements : List Statement} (hs : s.Sound)
    (h : many Program.nextStatement Program.advancing_nextStatement s = .ok statements t) :
    Exhausted t := by
  fun_induction many Program.nextStatement Program.advancing_nextStatement s
    generalizing statements with
  | case1 s e u hstep => cases h
  | case2 s u hstep =>
      cases h
      exact exhausted_of_nextStatement hs hstep
  | case3 s a u hstep hsize as v hothers ih =>
      cases h
      exact ih (lasting_sound.nextStatement.ok hs hstep) hothers
  | case4 s a u hstep hsize e v hothers ih => cases h

/-- A script that was read was read to its end. -/
theorem exhausted_of_read {program : Program} (hs : s.Sound)
    (h : Program.read s = .ok program t) : Exhausted t := by
  obtain ⟨_, u, hget, h⟩ := bind_eq_ok h
  cases hget
  obtain ⟨statements, v, hmany, hpure⟩ := bind_eq_ok h
  cases hpure
  exact exhausted_of_statements hs hmany

/-- At the end of a script there is one without statements. -/
theorem Exhausted.read (h : Exhausted s) :
    ∃ t, Program.read s = .ok ⟨s.line, []⟩ t ∧ Exhausted t := by
  obtain ⟨token, t, hpeek, hend, -, ht⟩ := h.peek
  have hkind : peekKind s = .ok .eof t := by
    rw [peekKind, bind_of_ok hpeek, hend]
    rfl
  have hnext : Program.nextStatement s = .ok none t := by
    rw [Program.nextStatement, bind_of_ok hkind, if_pos rfl]
    rfl
  exact ⟨t, bind_of_ok (many_of_none Program.advancing_nextStatement hnext), ht⟩

end Scan

/-! ### Offsets -/

namespace Scanner

variable {source : Text} {s t : Scanner}

theorem offset_eq (taken : Text) (h : source = taken ++ s.unread) :
    s.offset source = Utf8.size taken := by
  subst h
  rw [offset, unread_eq, Utf8.size_append, Utf8.size_append]
  omega

/-- Where less is unread the offset is larger. -/
theorem offset_le (hsource : s.unread <:+ source) (h : t.unread <:+ s.unread) :
    s.offset source ≤ t.offset source := by
  obtain ⟨taken, hsource⟩ := hsource
  obtain ⟨piece, hpiece⟩ := h
  rw [offset_eq taken hsource.symm, offset_eq (taken ++ piece) (by simp [hpiece, hsource]),
    Utf8.size_append]
  omega

theorem offset_lt (hsource : s.unread <:+ source) (h : t.unread <:+ s.unread)
    (hlt : t.unread.length < s.unread.length) : s.offset source < t.offset source := by
  obtain ⟨taken, hsource⟩ := hsource
  obtain ⟨piece, hpiece⟩ := h
  have hne : piece ≠ [] := by
    rintro rfl
    rw [← hpiece] at hlt
    exact Nat.lt_irrefl _ hlt
  have hpos := Utf8.size_pos hne
  rw [offset_eq taken hsource.symm, offset_eq (taken ++ piece) (by simp [hpiece, hsource]),
    Utf8.size_append]
  omega

end Scanner

/-! ### Reading again and again -/

namespace Program

variable {s t : Scanner}

/-- Each time that a script is read a piece is taken, and the pieces
follow one another. -/
theorem exists_segments (s : Scanner) (n : Nat) :
    ∃ segments : List Text, segments.length = n ∧
      s.unread = segments.flatten ++ ((leaves read)^[n] s).unread ∧
      ∀ i segment, segments[i]? = some segment →
        ((leaves read)^[i] s).unread = segment ++ ((leaves read)^[i + 1] s).unread := by
  induction n generalizing s with
  | zero => exact ⟨[], rfl, rfl, by simp⟩
  | succ n ih =>
      obtain ⟨segments, hlength, hsplit, hsegments⟩ := ih (leaves read s)
      obtain ⟨segment, hsegment⟩ :=
        (lasting_suffix s.unread).read.leaves (List.suffix_refl s.unread)
      refine ⟨segment :: segments, by rw [List.length_cons, hlength], ?_, ?_⟩
      · rw [List.flatten_cons, List.append_assoc, Function.iterate_succ_apply, ← hsplit, hsegment]
      · intro i piece hpiece
        cases i with
        | zero =>
            obtain rfl : segment = piece := by simpa using hpiece
            exact hsegment.symm
        | succ i =>
            rw [Function.iterate_succ_apply, Function.iterate_succ_apply]
            exact hsegments i piece (by simpa using hpiece)

/-- Behind the end of a script nothing more is read, however often. -/
theorem eq_nil_of_mem_readings {n : Nat} {result : Except SyntaxError Program} (hs : Exhausted s)
    (h : result ∈ readings n s) : ∃ line, result = .ok ⟨line, []⟩ := by
  induction n generalizing s with
  | zero => cases h
  | succ n ih =>
      obtain ⟨t, hread, ht⟩ := hs.read
      rw [readings, hread] at h
      rcases List.mem_cons.mp h with rfl | h
      · exact ⟨s.line, rfl⟩
      · exact ih ht h

/-- Whatever was done with the scanner of a script, its offset is the
length of what was taken, and no operation makes it smaller. A statement
that is read makes it larger, and so does a comma that is found behind a
parameter, whether or not a parameter follows. Both loops come to an end
and go round at most as often as characters are left, so reading ends
with at most so many statements. Reading again and again, also after
failures, takes one piece of the script after another, and once a script
was read there are no statements behind it. -/
theorem reading_progresses (source : Text) (operations : List Operation) :
    let s := (Scanner.ofText source).worked operations
    (∃ taken, source = taken ++ s.unread ∧ s.offset source = Utf8.size taken) ∧
    (∀ operation : Operation, s.offset source ≤ (operation.leaves s).offset source) ∧
    (∀ statement t, Statement.parse s = .ok statement t → s.offset source < t.offset source) ∧
    (∀ t u, skipBlank s = .ok () t → peekKind t = .ok .comma u →
      s.offset source < (leaves nextParam s).offset source) ∧
    (∃ n, EndsAfter nextParam n s (outcome (many nextParam advancing_nextParam) s)
        (leaves (many nextParam advancing_nextParam) s) ∧ n ≤ s.unread.length) ∧
    (∃ n result, EndsAfter nextStatement n s result (leaves read s) ∧
      outcome read s = result.map (Program.mk s.line) ∧ n ≤ s.unread.length) ∧
    (∀ program t, read s = .ok program t →
      program.statements.length ≤ s.unread.length ∧
      ∀ n, ∀ result ∈ readings n t, ∃ line, result = .ok ⟨line, []⟩) ∧
    ∀ n, ∃ segments : List Text, segments.length = n ∧
      s.unread = segments.flatten ++ ((leaves read)^[n] s).unread ∧
      ∀ i segment, segments[i]? = some segment →
        ((leaves read)^[i] s).unread = segment ++ ((leaves read)^[i + 1] s).unread := by
  intro s
  have hsound : s.Sound := lasting_sound.worked (Scanner.sound_of_none rfl) operations
  have hstart : (Scanner.ofText source).unread <:+ source := List.suffix_refl source
  have hsource : s.unread <:+ source := (lasting_suffix source).worked hstart operations
  have hleaves : leaves read s = leaves (many nextStatement advancing_nextStatement) s :=
    leaves_bind_pure _ _ s
  have hends : ∃ n, EndsAfter nextStatement n s
      (outcome (many nextStatement advancing_nextStatement) s) (leaves read s) ∧
      n ≤ s.unread.length := by
    rw [hleaves]
    exact endsAfter_many advancing_nextStatement lasting_sound.nextStatement
      unread_lt_of_nextStatement hsound
  have houtcome : outcome read s =
      (outcome (many nextStatement advancing_nextStatement) s).map (Program.mk s.line) :=
    outcome_bind_pure _ _ s
  refine ⟨?_, ?_, ?_, ?_, ?_, ?_, ?_, exists_segments s⟩
  · obtain ⟨taken, htaken⟩ := hsource
    exact ⟨taken, htaken.symm, Scanner.offset_eq taken htaken.symm⟩
  · intro operation
    exact Scanner.offset_le hsource
      ((lasting_suffix s.unread).leaves operation (List.suffix_refl s.unread))
  · intro statement t h
    exact Scanner.offset_lt hsource (plain_parse.suffix_of_ok h) (unread_lt_of_parse hsound h)
  · intro t u hskip hcomma
    exact Scanner.offset_lt hsource (plain_nextParam.suffix s)
      (unread_lt_of_comma hsound hskip hcomma)
  · exact endsAfter_many advancing_nextParam (lasting_sound.plain plain_nextParam)
      unread_lt_of_nextParam hsound
  · obtain ⟨n, h, hn⟩ := hends
    exact ⟨n, _, h, houtcome, hn⟩
  · intro program t h
    refine ⟨?_, fun n result hresult => ?_⟩
    · obtain ⟨n, hends, hn⟩ := hends
      cases hmany : outcome (many nextStatement advancing_nextStatement) s with
      | error e =>
          rw [outcome, h, hmany] at houtcome
          cases houtcome
      | ok statements =>
          rw [outcome, h, hmany] at houtcome
          cases houtcome
          have hlength := hends.length_eq hmany
          dsimp only
          omega
    · exact eq_nil_of_mem_readings (exhausted_of_read hsound h) hresult

end Program

end StoredProc
