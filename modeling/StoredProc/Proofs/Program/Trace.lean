import StoredProc.Proofs.Program.Pieces
import StoredProc.Proofs.Program.Plain
import StoredProc.Proofs.Text.Utf8

/-!
What the trace of reading a script says. The events of tokens and of raw
text lead through the script from its beginning to its end, so each token
is told of once, where it stands, however often it was looked at. Between
them stand the statements that were read, in order.

A token is told of when it is cut off and not when it is taken, so the
way through the script is an invariant of the scanner's moves. That
reading a statement tells of no other statement is seen from its form,
which is plain.
-/

namespace StoredProc

open Text Scan

/-! ### Kinds of events -/

namespace Event

def isPassing : Event → Bool
  | token _ => true
  | skippedTo _ _ _ => true
  | _ => false

def parsed? : Event → Option Statement
  | parsed statement => some statement
  | _ => none

def isReading (event : Event) : Bool := event.isPassing || event.parsed?.isSome

end Event

/-! ### The way through a script -/

/-- The way that events tell of through a script, from one offset in
bytes to another. A token stands at the offset with the text that it is
reported with, and raw text is as long as it is reported to be. No other
event moves. -/
inductive Walk (source : Text) : Nat → List Event → Nat → Prop
  | nil {offset : Nat} : Walk source offset [] offset
  | token {before slice behind : Text} {token : Token} {events : List Event} {last : Nat}
      (hsource : source = before ++ slice ++ behind)
      (htext : ("text".toList, .text (Quoted.ofText slice)) ∈ (Event.token token).particulars)
      (hrest : Walk source (Utf8.size before + Utf8.size slice) events last) :
      Walk source (Utf8.size before) (.token token :: events) last
  | raw {offset line bytes len : Nat} {delimiter : Char} {events : List Event} {last : Nat}
      (hlen : ("len".toList, .number len) ∈ (Event.skippedTo delimiter line bytes).particulars)
      (hrest : Walk source (offset + len) events last) :
      Walk source offset (.skippedTo delimiter line bytes :: events) last
  | other {offset : Nat} {event : Event} {events : List Event} {last : Nat}
      (hevent : event.isPassing = false) (hrest : Walk source offset events last) :
      Walk source offset (event :: events) last

namespace Walk

variable {source before slice behind : Text} {start mid last : Nat} {events events' : List Event}

theorem append (h : Walk source start events mid) (h' : Walk source mid events' last) :
    Walk source start (events ++ events') last := by
  induction h with
  | nil => exact h'
  | token hsource htext _ ih => exact .token hsource htext (ih h')
  | raw hlen _ ih => exact .raw hlen (ih h')
  | other hevent _ ih => exact .other hevent (ih h')

theorem of_not_isPassing (h : ∀ event ∈ events, event.isPassing = false) :
    Walk source start events start := by
  induction events with
  | nil => exact .nil
  | cons event events ih =>
      exact .other (h event List.mem_cons_self)
        (ih fun other hother => h other (List.mem_cons_of_mem event hother))

theorem concat_token {line : Nat} {kind : Kind} (h : Walk source start events (Utf8.size before))
    (hsource : source = before ++ slice ++ behind) :
    Walk source start (events ++ [.token ⟨line, kind, slice⟩])
      (Utf8.size before + Utf8.size slice) :=
  h.append (.token hsource (by simp [Event.particulars]) .nil)

theorem concat_raw (h : Walk source start events mid) (delimiter : Char) (line len : Nat) :
    Walk source start (events ++ [.skippedTo delimiter line len]) (mid + len) :=
  h.append (.raw (by simp [Event.particulars]) .nil)

theorem concat_parsed {statement : Statement} (h : Walk source start events last) :
    Walk source start (events ++ [.parsed statement]) last :=
  h.append (.other rfl .nil)

end Walk

/-! ### The scanner's moves -/

namespace Scan

variable {α : Type} {source : Text} {s t : Scanner} {l : Lexeme} {d : Char} {raw more : Text}

/-- The trace leads through the script to where the scanner stands, and
tells of reading only. -/
structure Walked (source : Text) (s : Scanner) : Prop where
  walk : ∃ before, source = before ++ s.rest ∧ Walk source 0 s.trace.reverse (Utf8.size before)
  reading : ∀ event ∈ s.trace, event.isReading = true
  held : ∀ token ∈ s.held, token.Spelt

theorem Walked.ofText (source : Text) : Walked source (.ofText source) :=
  ⟨⟨[], rfl, .nil⟩, fun _ h => absurd h List.not_mem_nil, by rintro token ⟨⟩⟩

theorem Walked.pass (h : Walked source s) (hl : Lexeme.first s.rest = .ok l) :
    Walked source (s.pass l) := by
  obtain ⟨before, hsource, hwalk⟩ := h.walk
  obtain ⟨hrest, hcut⟩ := Lexeme.first_eq_ok_iff.mp hl
  rw [hrest, ← List.append_assoc] at hsource
  by_cases hend : l.kind = .eof
  · -- The end of input is no event, and takes nothing.
    have htrace : (s.pass l).trace = s.trace := if_pos hend
    rw [hend] at hcut
    rw [(Cut.eof_iff.mp hcut).1, List.append_nil] at hsource
    refine ⟨⟨before, hsource, ?_⟩, ?_, h.held⟩
    · rw [htrace]
      exact hwalk
    · rw [htrace]
      exact h.reading
  · have htrace : (s.pass l).trace = .token ⟨s.line, l.kind, l.text⟩ :: s.trace := if_neg hend
    refine ⟨⟨before ++ l.text, hsource, ?_⟩, ?_, h.held⟩
    · rw [htrace, List.reverse_cons, Utf8.size_append]
      exact hwalk.concat_token hsource
    · rw [htrace]
      exact List.forall_mem_cons.mpr ⟨rfl, h.reading⟩

theorem Walked.passRaw (h : Walked source s) (hrest : s.rest = raw ++ d :: more) :
    Walked source (s.passRaw d raw (d :: more)) := by
  obtain ⟨before, hsource, hwalk⟩ := h.walk
  refine ⟨⟨before ++ raw, ?_, ?_⟩, List.forall_mem_cons.mpr ⟨rfl, h.reading⟩, h.held⟩
  · rw [hsource, hrest, List.append_assoc]
    rfl
  · rw [Utf8.size_append]
    have hraw := hwalk.concat_raw d (s.line + lineBreaks raw) (Utf8.size raw)
    rwa [← List.reverse_cons] at hraw

theorem stable_walked (source : Text) : Stable (Walked source) where
  pass := Walked.pass
  passRaw := fun h hrest _ => h.passRaw hrest
  hold := by
    intro s token h hspelt
    refine ⟨h.walk, h.reading, ?_⟩
    rintro token ⟨⟩
    exact hspelt
  drop := fun h => ⟨h.walk, h.reading, by rintro token ⟨⟩⟩
  trace := by
    intro s statement h
    obtain ⟨before, hsource, hwalk⟩ := h.walk
    refine ⟨⟨before, hsource, ?_⟩, List.forall_mem_cons.mpr ⟨rfl, h.reading⟩, h.held⟩
    rw [List.reverse_cons]
    exact hwalk.concat_parsed
  held := Walked.held

/-! ### The statements that were read -/

/-- The statements that the trace tells of, the newest first. -/
def told (s : Scanner) : List Statement := s.trace.filterMap Event.parsed?

theorem told_pass (s : Scanner) (l : Lexeme) : told (s.pass l) = told s := by
  unfold told Scanner.pass
  dsimp only
  split <;> rfl

theorem told_of_peek {token : Token} (h : peek s = .ok token t) : told t = told s := by
  obtain ⟨-, rfl⟩ | ⟨l, -, -, rfl⟩ := peek_eq_ok_cases h
  · rfl
  · exact told_pass s l

/-- A plain operation tells of no statement. -/
theorem Plain.told_eq {m : Scan α} {a : α} (h : Plain m) (hm : m s = .ok a t) :
    told t = told s := by
  have hpeek : Keeps (fun u => told u = told s) (fun _ _ => True) Scan.peek :=
    ⟨fun hs h => (told_of_peek h).trans hs, fun _ _ => trivial⟩
  have hraw : ∀ d, Keeps (fun u => told u = told s) (fun _ _ => True) (Scan.rawUntil d) := by
    intro d
    refine ⟨?_, fun _ _ => trivial⟩
    intro u raw v hu hraw
    obtain ⟨-, more, -, -, rfl⟩ := rawUntil_eq_ok_cases hraw
    exact hu
  exact (h.keeps (hpeek.next_of_peek id) hpeek hraw fun _ _ => trivial).ok rfl hm

end Scan

namespace Program

variable {source : Text} {program : Program} {s t : Scanner}

/-- A statement that was found is told of, behind the tokens that it was
found from. -/
theorem told_of_nextStatement {found : Option Statement} (h : nextStatement s = .ok found t) :
    told t = found.toList ++ told s := by
  obtain ⟨kind, u, hkind, h⟩ := bind_eq_ok h
  have hu := plain_peekKind.told_eq hkind
  split at h
  · cases h
    exact hu
  · obtain ⟨statement, v, hstatement, h⟩ := bind_eq_ok h
    obtain ⟨_, w, hnote, h⟩ := bind_eq_ok h
    cases hnote
    cases h
    exact congrArg (statement :: ·) ((plain_parse.told_eq hstatement).trans hu)

theorem told_of_many {statements : List Statement}
    (h : many nextStatement advancing_nextStatement s = .ok statements t) :
    told t = statements.reverse ++ told s := by
  fun_induction many nextStatement advancing_nextStatement s generalizing statements t with
  | case1 s e u hstep => cases h
  | case2 s u hstep =>
      cases h
      exact told_of_nextStatement hstep
  | case3 s statement u hstep hlt others v hothers ih =>
      cases h
      rw [ih hothers, told_of_nextStatement hstep, List.reverse_cons, List.append_assoc]
      rfl
  | case4 s statement u hstep hlt e v hothers ih => cases h

/-- The events of reading a script lead from its beginning to its end,
and tell of its statements in order and of nothing but reading. -/
theorem trace_of_parse (h : parse source = .ok program) :
    Walk source 0 (parseEvents source) (Utf8.size source) ∧
      (parseEvents source).filterMap Event.parsed? = program.statements ∧
      ∀ event ∈ parseEvents source, event.isReading = true := by
  obtain ⟨s, hread⟩ := read_of_parse h
  have hevents : parseEvents source = s.trace.reverse := by rw [parseEvents, hread]
  have hwalked := (stable_walked source).invariant.read.ok (.ofText source) hread
  obtain ⟨before, hsource, hwalk⟩ := hwalked.walk
  rw [rest_of_read hread, List.append_nil] at hsource
  rw [hevents]
  refine ⟨?_, ?_, ?_⟩
  · rwa [← hsource] at hwalk
  · obtain ⟨_, t, hget, hread⟩ := bind_eq_ok hread
    cases hget
    obtain ⟨statements, u, hmany, hread⟩ := bind_eq_ok hread
    cases hread
    have htold := told_of_many hmany
    rw [List.filterMap_reverse, ← told, htold, List.reverse_append, List.reverse_reverse]
    rfl
  · intro event hevent
    exact hwalked.reading event (List.mem_reverse.mp hevent)

end Program

end StoredProc
