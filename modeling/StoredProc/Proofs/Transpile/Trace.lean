import Mathlib.Algebra.GroupWithZero.Nat
import StoredProc.Proofs.Program.Trace
import StoredProc.Proofs.Transpile.Concat
import StoredProc.Proofs.Transpile.File
import StoredProc.Proofs.Transpile.Reference

/-!
What the trace of a script says of running it. Each statement is told of
in turn, up to the first that fails: that it changes nothing, that its
procedure replaces the one before it, and that its code is about to be
written. So the trace can be told from the statements alone
(`narration`), without a session.
-/

namespace StoredProc

open Text

/-! ### Telling of statements -/

namespace Statement

def header? : Statement → Option Header
  | procedure header => some header
  | _ => none

def isIdle : Statement → Bool
  | declaration _ _ _ => true
  | execute _ _ => true
  | blockEnd _ => true
  | blank _ => true
  | _ => false

def hasCode : Statement → Bool
  | procedure _ => true
  | blockStart _ => true
  | assignment _ _ _ => true
  | execute _ _ => true
  | blockEnd _ => true
  | _ => false

theorem isEmpty_code (settings : Settings) (statement : Statement) :
    (statement.code settings).isEmpty = !statement.hasCode := by
  have hlast : ∀ {front last : Text}, last.isEmpty = false → (front ++ last).isEmpty = false := by
    intro front last h
    rw [List.isEmpty_eq_false_iff] at h ⊢
    exact List.append_ne_nil_of_right_ne_nil front h
  cases statement with
  | print | declaration | blank => rfl
  | _ => exact hlast rfl

def lastHeader? (statements : List Statement) : Option Header :=
  statements.reverse.findSome? header?

theorem lastHeader?_concat (statements : List Statement) (statement : Statement) :
    lastHeader? (statements ++ [statement]) = statement.header?.or (lastHeader? statements) := by
  rw [lastHeader?, List.reverse_append, List.reverse_singleton, List.singleton_append,
    List.findSome?_cons, ← lastHeader?]
  cases statement.header? <;> rfl

end Statement

open Statement

/-- The events of one statement behind others. -/
def narration (settings : Settings) (front : List Statement) (statement : Statement) :
    List Event :=
  (if statement.isIdle then [.idle statement] else []) ++
    (match statement.header?, lastHeader? front with
      | some header, some previous => [.replaced header previous]
      | _, _ => []) ++
    (if statement.hasCode then [.emitting statement (Utf8.size (statement.code settings))] else [])

def narrations (settings : Settings) : List Statement → List Statement → List Event
  | _, [] => []
  | front, statement :: statements =>
      narration settings front statement ++ narrations settings (front ++ [statement]) statements

/-- The length of the code that is about to be written. -/
def Event.bytes? : Event → Option Nat
  | emitting _ bytes => some bytes
  | _ => none

variable {settings : Settings}

/-- No event of a run is one of reading. -/
theorem isReading_of_mem_narrations {front statements : List Statement} {event : Event}
    (h : event ∈ narrations settings front statements) : event.isReading = false := by
  induction statements generalizing front with
  | nil => cases h
  | cons statement statements ih =>
      rw [narrations, narration, List.mem_append, List.mem_append, List.mem_append] at h
      rcases h with ((h | h) | h) | h
      · split at h
        · rw [List.mem_singleton.mp h]
          rfl
        · cases h
      · split at h
        · rw [List.mem_singleton.mp h]
          rfl
        · cases h
      · split at h
        · rw [List.mem_singleton.mp h]
          rfl
        · cases h
      · exact ih h

/-- The code that is told of is as long as the code of the
statements. -/
theorem sum_bytes_narrations (settings : Settings) (front statements : List Statement) :
    ((narrations settings front statements).filterMap Event.bytes?).sum =
      Utf8.size (statements.flatMap (code settings)) := by
  induction statements generalizing front with
  | nil => rfl
  | cons statement statements ih =>
      have hone : ((narration settings front statement).filterMap Event.bytes?).sum =
          Utf8.size (statement.code settings) := by
        rw [narration]
        cases lastHeader? front <;> cases statement <;> rfl
      rw [narrations, List.filterMap_append, List.sum_append, ih, hone, List.flatMap_cons,
        Utf8.size_append]

/-! ### The trace of a run -/

namespace Session

variable {session next : Session} {statement : Statement} {value : Option Text}

theorem procedure_of_resolve (h : session.resolve statement = .ok (next, value)) :
    next.procedure = statement.header?.or session.procedure := by
  cases statement with
  | print line var =>
      rw [resolve] at h
      split at h
      · cases h
        rfl
      · cases h
  | _ =>
      cases h
      rfl

/-- What is said of a statement is known from the procedure that began
last. -/
theorem remarks_append_emission {front : List Statement}
    (h : session.procedure = lastHeader? front) (settings : Settings) (statement : Statement) :
    session.remarks statement ++ Run.emission settings statement =
      narration settings front statement := by
  unfold narration Run.emission
  rw [isEmpty_code]
  cases statement with
  | procedure header =>
      rw [remarks, h]
      cases lastHeader? front <;> rfl
  | _ => simp [remarks, isIdle, header?, hasCode]

end Session

namespace Run

variable {σ : Type} {writer : Writer σ} {printer : Printer σ} {statements : List Statement}
  {s t : Stage σ}

theorem Completes.trace_eq {statement : Statement} {front : List Statement}
    (h : Completes settings writer printer statement s t)
    (hfront : s.session.procedure = lastHeader? front) :
    t.trace.reverse = s.trace.reverse ++ narration settings front statement ∧
      t.session.procedure = lastHeader? (front ++ [statement]) := by
  cases h with
  | intro hresolve hprint hemit =>
      refine ⟨?_, ?_⟩
      · have hemission : (emission settings statement).reverse = emission settings statement := by
          unfold emission
          split <;> rfl
        rw [← Session.remarks_append_emission hfront]
        simp [hemission]
      · rw [lastHeader?_concat, ← hfront]
        exact Session.procedure_of_resolve hresolve

/-- Complete statements are told of in order. -/
theorem Completed.trace_eq {front : List Statement}
    (h : Completed settings writer printer statements s t)
    (hfront : s.session.procedure = lastHeader? front) :
    t.trace.reverse = s.trace.reverse ++ narrations settings front statements := by
  induction h generalizing front with
  | nil => exact (List.append_nil _).symm
  | cons h hrest ih =>
      obtain ⟨htrace, hnext⟩ := h.trace_eq hfront
      rw [ih hnext, htrace, narrations, List.append_assoc]

end Run

/-! ### Scripts -/

/-- A statement that was read is reported by its summary, on its line. -/
theorem report_parsed (events : List Event) :
    (events.filter fun event => event.parsed?.isSome).map
        (fun event => (event.level, event.message, event.line)) =
      (events.filterMap Event.parsed?).map
        (fun statement => (.debug, "parsed ".toList ++ statement.summary, statement.line)) := by
  induction events with
  | nil => rfl
  | cons event events ih =>
      cases event with
      | parsed statement => exact congrArg (_ :: ·) ih
      | _ => exact ih

/-- The statements that a run in memory completes are told of, and no
others. -/
theorem Session.trace_of_play {p : List Statement} {found : Session × List Text}
    (h : fresh.play p = .ok found) :
    ∃ t, Run.Completed .standard Sink.writer.left Printer.toListing.right p
        ⟨fresh, (.unlimited, .empty none), []⟩ t ∧
      t.session = found.1 ∧ t.trace.reverse = narrations .standard [] p := by
  have hroomy : Run.Roomy (Sink.unlimited, Listing.empty none) := ⟨rfl, rfl, rfl⟩
  have hrun := Run.Roomy.run (s := ⟨fresh, (.unlimited, .empty none), []⟩) hroomy
    fun statement (_ : statement ∈ p) => Settings.spells_standard statement
  dsimp only at hrun
  rw [h] at hrun
  obtain ⟨t, ht, hlast, -⟩ := hrun
  exact ⟨t, ht, hlast, ht.trace_eq rfl⟩

theorem transpileEvents_of_parse {source : Text} {program : Program}
    (h : Program.parse source = .ok program) :
    transpileEvents source = Program.parseEvents source ++
      (Run.inMemory .standard program.statements).trace.reverse := by
  rw [transpileEvents, h, Run.inMemory]
  dsimp only
  cases Session.fresh.run .standard program.statements <;> rfl

/-- The statements of a script that are told of when it is run: all of
them if it is transpiled, and those in front of the print that fails if
it is not. -/
theorem trace_of_run {source : Text} {program : Program}
    (h : Program.parse source = .ok program) :
    ∃ reached rest, program.statements = reached ++ rest ∧
      (Run.inMemory .standard program.statements).trace.reverse =
        narrations .standard [] reached ∧
      match transpile source with
      | .ok x => rest = [] ∧ x.code = reached.flatMap (code .standard)
      | .error e => ∃ line var others last values, rest = .print line var :: others ∧
          Session.fresh.play reached = .ok (last, values) ∧ last.env.get? var.name = none ∧
          e = .unknownVariable line var.name := by
  rw [Run.inMemory, Session.run, Session.runInto, transpile_of_parse h]
  cases hplay : Session.fresh.play program.statements with
  | ok found =>
      obtain ⟨t, ht, -, htrace⟩ := Session.trace_of_play hplay
      refine ⟨program.statements, [], (List.append_nil _).symm, ?_, rfl, rfl⟩
      rw [ht.statements_eq]
      exact htrace
  | error e =>
      obtain ⟨front, line, var, back, mid, values, hsplit, hfront, hget, he⟩ :=
        Session.play_eq_error hplay
      obtain ⟨t, ht, rfl, htrace⟩ := Session.trace_of_play hfront
      -- The print that fails is not told of, so the trace is the one in front of it.
      have hprint : t.session.resolve (.print line var) =
          .error (.unknownVariable line var.name) := by
        rw [Session.resolve, hget]
      refine ⟨front, .print line var :: back, hsplit, ?_, line, var, back, t.session, values, rfl,
        hfront, hget, he⟩
      rw [hsplit, (Run.Halts.resolving hprint).statements_eq ht back]
      exact htrace

/-- The trace of a script that can be read. First the events of tokens
and raw text lead through the script from its beginning to its end, and
among them stand the statements that were read, in order. Behind them
each statement is told of, up to the first failure, and the code that is
told of is as long as the code of these statements, which is all of the
code if nothing fails. -/
theorem events_account {source : Text} {program : Program}
    (h : Program.parse source = .ok program) :
    ∃ reading running reached rest,
      transpileEvents source = reading ++ running ∧
      Walk source 0 (transpileEvents source) (Utf8.size source) ∧
      (∀ event ∈ reading, event.isReading = true) ∧
      (∀ event ∈ running, event.isReading = false) ∧
      (reading.filter fun event => event.parsed?.isSome).map
          (fun event => (event.level, event.message, event.line)) =
        program.statements.map
          (fun statement => (.debug, "parsed ".toList ++ statement.summary, statement.line)) ∧
      program.statements = reached ++ rest ∧
      running = narrations .standard [] reached ∧
      (running.filterMap Event.bytes?).sum =
        Utf8.size (reached.flatMap (code .standard)) ∧
      match transpile source with
      | .ok x => rest = [] ∧ x.code = reached.flatMap (code .standard)
      | .error e => ∃ line var others last values, rest = .print line var :: others ∧
          Session.fresh.play reached = .ok (last, values) ∧ last.env.get? var.name = none ∧
          e = .unknownVariable line var.name := by
  obtain ⟨hwalk, hparsed, hreading⟩ := Program.trace_of_parse h
  obtain ⟨reached, rest, hsplit, hrunning, hresult⟩ := trace_of_run h
  have hnot : ∀ event ∈ narrations .standard [] reached, event.isReading = false :=
    fun event hevent => isReading_of_mem_narrations hevent
  have hevents := transpileEvents_of_parse h
  rw [hrunning] at hevents
  refine ⟨Program.parseEvents source, narrations .standard [] reached, reached, rest, hevents, ?_,
    hreading, hnot, ?_, hsplit, rfl, sum_bytes_narrations .standard [] reached, hresult⟩
  · rw [hevents]
    exact hwalk.append (.of_not_isPassing fun event hevent => by
      have hfalse := hnot event hevent
      rw [Event.isReading, Bool.or_eq_false_iff] at hfalse
      exact hfalse.1)
  · rw [report_parsed, hparsed]

/-- The second procedure replaces the first. What cannot be printed is
not told of, nor what stands behind it. -/
theorem events_account_two_procedures :
    let p : Header := ⟨1, ⟨1, ['p']⟩, [⟨1, ⟨1, ['a']⟩, .char, .input⟩]⟩
    let q : Header := ⟨2, ⟨2, ['q']⟩, [⟨2, ⟨2, ['b']⟩, .char, .output⟩]⟩
    let x : Statement := .assignment 2 ⟨2, ['x']⟩ "\r;é".toList
    let source : Text := "CREATE OR REPLACE PROCEDURE p(a CHAR IN)IS\n".toList ++
      "CREATE OR REPLACE PROCEDURE q(b CHAR OUT)IS x:='\r;é';PRINT($y)END;".toList
    Program.parse source = .ok ⟨1, [.procedure p, .blank 1, .procedure q, .blank 2, x,
        .print 3 ⟨3, ['y']⟩, .blockEnd 3]⟩ ∧
      Walk source 0 (transpileEvents source) 110 ∧
      (transpileEvents source).filter (fun event => !event.isReading) =
        [.emitting (.procedure p) 10, .idle (.blank 1), .replaced q p,
          .emitting (.procedure q) 9, .idle (.blank 2), .emitting x 20] := by
  intro p q x source
  have hparse : Program.parse source = .ok ⟨1, [.procedure p, .blank 1, .procedure q, .blank 2, x,
      .print 3 ⟨3, ['y']⟩, .blockEnd 3]⟩ := eq_ok_of_toOption (by decide +kernel)
  obtain ⟨reading, running, reached, rest, -, hwalk, -⟩ := events_account hparse
  have hsize : Utf8.size source = 110 := by decide +kernel
  rw [hsize] at hwalk
  exact ⟨hparse, hwalk, by decide +kernel⟩

end StoredProc
