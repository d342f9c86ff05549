import Mathlib.Data.List.Induction
import StoredProc.Proofs.Run.Law
import StoredProc.Proofs.Transpile.File
import StoredProc.Proofs.Transpile.Reference

/-!
A run whose output does not fit. Beside a printer that never fails, a
sink is all that a run can fail of, apart from a statement that cannot be
resolved or has no code. So how far a run gets is known beforehand: it
reaches the statements in front of the first of these, and completes as
many of them as the sink has room for. What a full sink holds is then
the beginning of what a sink without a limit holds, and everything else
is as it was when the statement that does not fit was resolved.
-/

namespace StoredProc

open Text

def Printer.always {τ : Type} (act : Text → τ → τ) : Printer τ :=
  fun value state => .ok () (act value state)

namespace Session

/-- The statements in front of the first that cannot be resolved or whose
code cannot be made. -/
def reached (settings : Settings) (session : Session) : List Statement → List Statement
  | [] => []
  | statement :: statements =>
      match session.resolve statement with
      | .ok (next, _) =>
          if settings.Spells statement then statement :: next.reached settings statements else []
      | .error _ => []

/-- The failure behind what is reached, and the session it leaves. -/
def stop? (settings : Settings) (session : Session) :
    List Statement → Option (Diagnostic × Session)
  | [] => none
  | statement :: statements =>
      match session.resolve statement with
      | .ok (next, _) =>
          if settings.Spells statement then next.stop? settings statements
          else some (.capacity, next)
      | .error e => some (e, session)

variable {settings : Settings} {session next mid : Session} {statement : Statement}
  {value : Option Text}

theorem reached_cons_of_spells (h : session.resolve statement = .ok (next, value))
    (hspells : settings.Spells statement) (statements : List Statement) :
    session.reached settings (statement :: statements) =
      statement :: next.reached settings statements := by
  rw [reached, h]
  exact if_pos hspells

theorem reached_cons_of_not_spells (h : session.resolve statement = .ok (next, value))
    (hspells : ¬ settings.Spells statement) (statements : List Statement) :
    session.reached settings (statement :: statements) = [] := by
  rw [reached, h]
  exact if_neg hspells

theorem reached_cons_of_error {e : Diagnostic} (h : session.resolve statement = .error e)
    (statements : List Statement) : session.reached settings (statement :: statements) = [] := by
  rw [reached, h]

/-- What is reached is the beginning of the script; it can be played, and
its code can be made. -/
theorem reached_spec (settings : Settings) (session : Session) (statements : List Statement) :
    session.reached settings statements <+: statements ∧
      (∃ found, session.play (session.reached settings statements) = .ok found) ∧
      ∀ statement ∈ session.reached settings statements, settings.Spells statement := by
  induction statements generalizing session with
  | nil => exact ⟨List.prefix_rfl, ⟨_, rfl⟩, fun statement hmem => by cases hmem⟩
  | cons statement statements ih =>
      have hnothing : [] <+: statement :: statements ∧ (∃ found, session.play [] = .ok found) ∧
          ∀ statement ∈ [], settings.Spells statement :=
        ⟨List.nil_prefix, ⟨_, rfl⟩, fun statement hmem => by cases hmem⟩
      cases h : session.resolve statement with
      | error e =>
          rw [reached_cons_of_error h]
          exact hnothing
      | ok found =>
          by_cases hspells : settings.Spells statement
          · obtain ⟨hfront, ⟨rest, hrest⟩, hothers⟩ := ih found.1
            rw [reached_cons_of_spells h hspells]
            refine ⟨(List.prefix_cons_inj statement).mpr hfront, ?_,
              List.forall_mem_cons.mpr ⟨hspells, hothers⟩⟩
            rw [play_cons_of_ok h, hrest]
            exact ⟨_, rfl⟩
          · rw [reached_cons_of_not_spells h hspells]
            exact hnothing

/-- Each statement that is reached is resolved behind those in front of
it. -/
theorem play_of_reached {statements front back : List Statement}
    (h : session.reached settings statements = front ++ statement :: back) :
    ∃ mid values next value rest, session.play front = .ok (mid, values) ∧
      mid.resolve statement = .ok (next, value) ∧ statements = front ++ statement :: rest := by
  obtain ⟨⟨rest, hrest⟩, ⟨⟨last, values⟩, hplay⟩, -⟩ := session.reached_spec settings statements
  rw [h] at hplay hrest
  rw [List.append_assoc, List.cons_append] at hrest
  obtain ⟨mid, before, behind, hfront, hback, -⟩ := play_append_eq_ok hplay
  obtain ⟨next, value, more, hresolve, -⟩ := play_cons_eq_ok hback
  exact ⟨mid, before, next, value, back ++ rest, hfront, hresolve, hrest.symm⟩

/-- What has code prints nothing. -/
theorem eq_none_of_code (h : session.resolve statement = .ok (next, value))
    (hcode : statement.code settings ≠ []) : value = none := by
  cases value with
  | none => rfl
  | some value =>
      obtain ⟨line, var, rfl, -⟩ := print_of_resolve_some h
      exact absurd rfl hcode

end Session

namespace Run

def failure? {σ : Type} : EStateM.Result Diagnostic (Stage σ) Unit → Option Diagnostic
  | .ok () _ => none
  | .error e _ => some e

section

variable {σ : Type}

/-- How a run ends that has come to a stage and stops there, if it does. -/
def endingAt (t : Stage σ) (trace : List Event) :
    Option (Diagnostic × Session) → EStateM.Result Diagnostic (Stage σ) Unit
  | none => .ok () t
  | some (e, session) => .error e ⟨session, t.outside, trace⟩

variable {settings : Settings} {writer : Writer σ} {printer : Printer σ}
  {statements : List Statement} {s t : Stage σ} {trace : List Event}
  {stop : Option (Diagnostic × Session)}

@[simp] theorem failure?_endingAt : failure? (endingAt t trace stop) = stop.map Prod.fst := by
  cases stop <;> rfl

@[simp] theorem session_endingAt :
    (ending (endingAt t trace stop)).session = stop.elim t.session Prod.snd := by
  cases stop <;> rfl

@[simp] theorem outside_endingAt : (ending (endingAt t trace stop)).outside = t.outside := by
  cases stop <;> rfl

/-- A run that completes what it reaches stops behind it, and nothing
outside is different then. -/
theorem Completed.statements_of_reached
    (h : Completed settings writer printer (s.session.reached settings statements) s t) :
    ∃ trace, Run.statements settings writer printer statements s =
      endingAt t trace (s.session.stop? settings statements) := by
  induction statements generalizing s with
  | nil =>
      cases h
      exact ⟨[], rfl⟩
  | cons statement statements ih =>
      rw [Session.stop?]
      cases hresolve : s.session.resolve statement with
      | error e =>
          rw [Session.reached_cons_of_error hresolve] at h
          cases h
          exact ⟨_, (Halts.resolving hresolve).statements_eq .nil statements⟩
      | ok found =>
          obtain ⟨next, value⟩ := found
          by_cases hspells : settings.Spells statement
          · rw [Session.reached_cons_of_spells hresolve hspells] at h
            cases h with
            | cons hfirst hrest =>
                obtain ⟨value', hsession⟩ := hfirst.resolve_eq
                rw [hresolve] at hsession
                cases hsession
                obtain ⟨trace, htrace⟩ := ih hrest
                refine ⟨trace, ?_⟩
                rw [statements_cons, bind_of_ok hfirst.statement_eq, htrace]
                dsimp only
                rw [if_pos hspells]
          · rw [Session.reached_cons_of_not_spells hresolve hspells] at h
            cases h
            obtain rfl := Session.eq_none_of_code hresolve
              fun hcode => hspells (spells_of_code_eq_nil hcode)
            dsimp only
            rw [if_neg hspells]
            exact ⟨_, (Halts.spelling hresolve .nothing hspells).statements_eq .nil statements⟩

end

section

variable {τ : Type} {act : Text → τ → τ} {settings : Settings} {statement : Statement}
  {session mid : Session} {values : List Text} {sink : Sink} {state : τ} {trace : List Event}

/-! ### Runs beside a printer that does not fail -/

def printAll (act : Text → τ → τ) (values : List Text) (state : τ) : τ :=
  values.foldl (fun state value => act value state) state

theorem prints_always (value : Option Text) :
    Prints (Printer.always act).right value (sink, state)
      (sink, printAll act value.toList state) := by
  cases value with
  | none => exact .nothing
  | some value => exact .value rfl

def codeBytes (settings : Settings) (statements : List Statement) : List UInt8 :=
  Utf8.encode (statements.flatMap (Statement.code settings))

theorem codeBytes_append (settings : Settings) (p q : List Statement) :
    codeBytes settings (p ++ q) = codeBytes settings p ++ codeBytes settings q := by
  rw [codeBytes, List.flatMap_append, Utf8.encode_append, ← codeBytes, ← codeBytes]

theorem codeBytes_cons (settings : Settings) (statement : Statement) (p : List Statement) :
    codeBytes settings (statement :: p) =
      Utf8.encode (statement.code settings) ++ codeBytes settings p := by
  rw [codeBytes, List.flatMap_cons, Utf8.encode_append, ← codeBytes]

theorem codeBytes_singleton (settings : Settings) (statement : Statement) :
    codeBytes settings [statement] = Utf8.encode (statement.code settings) := by
  rw [codeBytes, List.flatMap_singleton]

/-- Statements that can be played complete, if their code can be made,
fits, and can be flushed. -/
theorem completed_of_play {p : List Statement} (hplay : session.play p = .ok (mid, values))
    (hspells : ∀ statement ∈ p, settings.Spells statement)
    (hfits : sink.Fits (codeBytes settings p))
    (hflush : sink.flushFails = false ∨ ∀ statement ∈ p, statement.code settings = [])
    (act : Text → τ → τ) (state : τ) (trace : List Event) :
    ∃ t, Completed settings Sink.writer.left (Printer.always act).right p
        ⟨session, (sink, state), trace⟩ t ∧
      t.session = mid ∧ t.outside.2 = printAll act values state ∧
      t.outside.1.room = sink.room.map (· - (codeBytes settings p).length) ∧
      t.outside.1.flushFails = sink.flushFails := by
  induction p generalizing session values sink state trace with
  | nil =>
      cases hplay
      exact ⟨_, .nil, rfl, rfl, Option.map_id'.symm, rfl⟩
  | cons statement p ih =>
      obtain ⟨next, value, rest, hresolve, hrest, hvalues⟩ := Session.play_cons_eq_ok hplay
      obtain rfl : values = value.toList ++ rest := hvalues
      rw [codeBytes_cons] at hfits ⊢
      -- What fits with the code of the others behind it fits alone.
      have hone : sink.Fits (Utf8.encode (statement.code settings)) := by
        intro room hroom
        have hle := hfits room hroom
        rw [List.length_append] at hle
        omega
      obtain ⟨hfirst, hspells⟩ := List.forall_mem_cons.mp hspells
      obtain ⟨sink', hemits, hroom', hflush'⟩ := emits_of_fits hfirst hone
        (hflush.imp_right fun h => h statement List.mem_cons_self)
        (printAll act value.toList state)
      have hfits' : sink'.Fits (codeBytes settings p) := by
        intro room' hroom
        rw [hroom'] at hroom
        obtain ⟨room, hsome, rfl⟩ := Option.map_eq_some_iff.mp hroom
        have hle := hfits room hsome
        rw [List.length_append] at hle
        omega
      have hothers : sink'.flushFails = false ∨ ∀ other ∈ p, other.code settings = [] := by
        rw [hflush']
        exact hflush.imp_right fun h other hother => h other (List.mem_cons_of_mem _ hother)
      obtain ⟨t, ht, hsession, hstate, hroom, hfails⟩ :=
        ih hrest hspells hfits' hothers _ _
      refine ⟨t, .cons (.intro hresolve (prints_always value) hemits) ht, hsession, ?_, ?_, ?_⟩
      · rw [hstate, printAll, printAll, printAll, List.foldl_append]
      · rw [hroom, hroom', Option.map_map, List.length_append]
        congr 1
        funext room
        exact Nat.sub_sub ..
      · rw [hfails, hflush']

/-! ### Statements that do not fit -/

/-- Where code is longer than a limit, one statement crosses it. -/
theorem exists_crossing {p : List Statement} {limit : Nat}
    (h : limit < (codeBytes settings p).length) :
    ∃ front statement back, p = front ++ statement :: back ∧
      (codeBytes settings front).length ≤ limit ∧
      limit < (codeBytes settings (front ++ [statement])).length := by
  induction p using List.reverseRecOn with
  | nil => cases h
  | append_singleton p last ih =>
      by_cases hle : (codeBytes settings p).length ≤ limit
      · exact ⟨p, last, [], rfl, hle, h⟩
      · obtain ⟨front, statement, back, rfl, hfront, hcross⟩ := ih (Nat.lt_of_not_le hle)
        exact ⟨front, statement, back ++ [last], by simp, hfront, hcross⟩

/-- The statement that crosses the limit is resolved and then fails. As
much of its code is stored as there is room for. -/
theorem statements_of_crossing {front : List Statement} {next : Session} {value : Option Text}
    {limit : Nat} (hspells : ∀ statement' ∈ front ++ [statement], settings.Spells statement')
    (hfront : session.play front = .ok (mid, values))
    (hresolve : mid.resolve statement = .ok (next, value))
    (hle : (codeBytes settings front).length ≤ limit)
    (hlt : limit < (codeBytes settings (front ++ [statement])).length) (back : List Statement)
    (act : Text → τ → τ) (state : τ) (trace : List Event) :
    ∃ t, Run.statements settings Sink.writer.left (Printer.always act).right
        (front ++ statement :: back) ⟨session, (.empty (some limit) false, state), trace⟩ =
        .error (.io "sink full".toList) t ∧
      mid.resolve statement = .ok (t.session, none) ∧
      t.outside.2 = printAll act values state ∧
      t.outside.1.bytes = (codeBytes settings (front ++ [statement])).take limit := by
  obtain ⟨u, hu, rfl, hstate, hroom, -⟩ :=
    completed_of_play hfront (fun other hother => hspells other (List.mem_append_left _ hother))
      (Sink.fits_empty hle false) (.inl rfl) act state trace
  have hbytes := hu.seen_eq (shows_sink (Printer.always act))
  rw [codeBytes_append, codeBytes_singleton] at hlt ⊢
  rw [List.length_append] at hlt
  have hcode : statement.code settings ≠ [] := by
    intro hcode
    rw [hcode] at hlt
    change limit < (codeBytes settings front).length + 0 at hlt
    omega
  obtain rfl := Session.eq_none_of_code hresolve hcode
  let stored := u.outside.1.push ((Utf8.encode (statement.code settings)).take
    (limit - (codeBytes settings front).length))
  have hwrite : Sink.writer.left.write (Utf8.encode (statement.code settings)) u.outside =
      .error "sink full".toList (stored, u.outside.2) := by
    rw [Writer.left, Writer.write_onPart]
    exact onPart_of_error (Sink.write_of_lt hroom (Nat.sub_lt_left_of_lt_add hle hlt))
  have hstatement : settings.Spells statement := hspells statement (by simp)
  refine ⟨_, (Halts.writing hresolve .nothing hstatement hcode hwrite).statements_eq hu back,
    hresolve, hstate, ?_⟩
  rw [Sink.bytes_push, hbytes, Sink.bytes_empty, List.nil_append, ← codeBytes,
    List.take_append, List.take_of_length_le hle]

/-- Where nothing can be flushed, the first code that is written is the
last. -/
theorem bytes_of_flushing (statements : List Statement) :
    (ending (Run.statements settings Sink.writer.left (Printer.always act).right statements
        ⟨session, (.empty none true, state), trace⟩)).outside.1.bytes =
      (((session.reached settings statements).find? fun statement =>
        statement.code settings ≠ []).elim []
          fun statement => Utf8.encode (statement.code settings)) := by
  have hfits : ∀ bytes, (Sink.empty none true).Fits bytes := Sink.fits_of_none rfl
  cases hfind : (session.reached settings statements).find? fun statement =>
      statement.code settings ≠ [] with
  | none =>
      obtain ⟨-, ⟨⟨last, values⟩, hplay⟩, hspells⟩ := session.reached_spec settings statements
      have hnone : ∀ statement ∈ session.reached settings statements,
          statement.code settings = [] := by
        intro statement hmem
        simpa using List.find?_eq_none.mp hfind statement hmem
      obtain ⟨t, ht, -⟩ := completed_of_play hplay hspells (hfits _) (.inr hnone) act state trace
      obtain ⟨last, hlast⟩ := Completed.statements_of_reached (s := ⟨session, _, trace⟩) ht
      rw [hlast, outside_endingAt, ht.seen_eq (shows_sink (Printer.always act)),
        List.flatMap_eq_nil_iff.mpr hnone]
      rfl
  | some statement =>
      obtain ⟨hcode, front, back, hsplit, hfront⟩ := List.find?_eq_some_iff_append.mp hfind
      replace hcode : statement.code settings ≠ [] := of_decide_eq_true hcode
      replace hfront : ∀ other ∈ front, other.code settings = [] := by
        intro other hother
        simpa using hfront other hother
      obtain ⟨-, -, hspells⟩ := session.reached_spec settings statements
      rw [hsplit] at hspells
      obtain ⟨hbefore, hbehind⟩ := List.forall_mem_append.mp hspells
      obtain ⟨mid, values, next, value, rest, hplay, hresolve, rfl⟩ :=
        Session.play_of_reached hsplit
      obtain rfl := Session.eq_none_of_code hresolve hcode
      -- Nothing is written in front of the statement, so nothing has to be flushed there.
      obtain ⟨u, hu, rfl, -, hroom, hfails⟩ :=
        completed_of_play hplay hbefore (hfits _) (.inr hfront) act state trace
      have hbytes := hu.seen_eq (shows_sink (Printer.always act))
      rw [List.flatMap_eq_nil_iff.mpr hfront] at hbytes
      let stored := u.outside.1.push (Utf8.encode (statement.code settings))
      have hwrite : Sink.writer.left.write (Utf8.encode (statement.code settings)) u.outside =
          .ok () (stored, u.outside.2) := by
        rw [Writer.left, Writer.write_onPart]
        exact onPart_of_ok (Sink.write_of_fits (Sink.fits_of_none hroom _))
      have hflush : Sink.writer.left.flush (stored, u.outside.2) =
          .error "flush refused".toList (stored, u.outside.2) := by
        rw [Writer.left, Writer.flush_onPart]
        exact onPart_of_error (Sink.flush_of_eq_true hfails)
      have hstatement : settings.Spells statement := hbehind statement List.mem_cons_self
      rw [(Halts.flushing hresolve .nothing hstatement hcode hwrite hflush).statements_eq hu rest,
        ending, Sink.bytes_push, hbytes]
      rfl

/-- Where all the code that is reached fits, how a run ends does not depend
on the sink. -/
theorem run_of_fits {statements : List Statement}
    (hplay : session.play (session.reached settings statements) = .ok (mid, values))
    (hfits : sink.Fits (codeBytes settings (session.reached settings statements)))
    (hflush : sink.flushFails = false) (act : Text → τ → τ) (state : τ) (trace : List Event) :
    let result := Run.statements settings Sink.writer.left (Printer.always act).right statements
      ⟨session, (sink, state), trace⟩
    let stop := session.stop? settings statements
    failure? result = stop.map Prod.fst ∧
      (ending result).session = stop.elim mid Prod.snd ∧
      (ending result).outside.2 = printAll act values state ∧
      (ending result).outside.1.bytes =
        sink.bytes ++ codeBytes settings (session.reached settings statements) := by
  intro result stop
  obtain ⟨-, -, hspells⟩ := session.reached_spec settings statements
  obtain ⟨t, ht, hmid, hprinted, -⟩ :=
    completed_of_play hplay hspells hfits (.inl hflush) act state trace
  obtain ⟨last, hlast⟩ := Completed.statements_of_reached (s := ⟨session, _, trace⟩) ht
  have hresult : result = endingAt t last stop := hlast
  rw [hresult, failure?_endingAt, session_endingAt, outside_endingAt, hmid, hprinted,
    ht.seen_eq (shows_sink (Printer.always act)), codeBytes]
  exact ⟨rfl, rfl, rfl, rfl⟩

/-- Where the code does not fit, a run fails at the statement that crosses
the limit. -/
theorem exists_crossing_of_lt {limit : Nat} {statements : List Statement}
    (h : limit < (codeBytes settings (session.reached settings statements)).length)
    (act : Text → τ → τ) (state : τ) (trace : List Event) :
    ∃ t, Run.statements settings Sink.writer.left (Printer.always act).right statements
        ⟨session, (.empty (some limit) false, state), trace⟩ = .error (.io "sink full".toList) t ∧
      t.outside.1.bytes = (codeBytes settings (session.reached settings statements)).take limit ∧
      ∃ front statement back mid values, statements = front ++ statement :: back ∧
        (codeBytes settings front).length ≤ limit ∧
        limit < (codeBytes settings (front ++ [statement])).length ∧
        session.play front = .ok (mid, values) ∧ t.outside.2 = printAll act values state ∧
        mid.resolve statement = .ok (t.session, none) := by
  obtain ⟨front, statement, back, hsplit, hle, hlt⟩ := exists_crossing h
  obtain ⟨-, -, hspells⟩ := session.reached_spec settings statements
  rw [hsplit, ← List.singleton_append, ← List.append_assoc] at hspells
  have hstatements := (List.forall_mem_append.mp hspells).1
  obtain ⟨mid, values, next, value, rest, hfront, hresolve, rfl⟩ :=
    Session.play_of_reached hsplit
  obtain ⟨t, ht, hsession, hprinted, hbytes⟩ :=
    statements_of_crossing hstatements hfront hresolve hle hlt rest act state trace
  have hjoin : codeBytes settings (front ++ statement :: back) =
      codeBytes settings (front ++ [statement]) ++ codeBytes settings back := by
    rw [← codeBytes_append, List.append_assoc, List.singleton_append]
  refine ⟨t, ht, ?_, front, statement, rest, mid, values, rfl, hle, hlt, hfront, hprinted,
    hsession⟩
  rw [hbytes, hsplit, hjoin, List.take_append_of_le_length (Nat.le_of_lt hlt)]

/-- A run into a sink that takes so many bytes stores the first so many
bytes of the run into one that takes all. If all fit, nothing else is
different either. If not, the run fails at the statement whose code
crosses the limit: the values printed are those of the statements in
front of it, and the session is the one that it is resolved to. Where
nothing can be flushed, the code of the first statement that has any is
stored. -/
theorem truncated_output (settings : Settings) (session : Session) (statements : List Statement)
    (limit : Nat) (act : Text → τ → τ) (start : τ) :
    let run := fun sink => Run.statements settings Sink.writer.left (Printer.always act).right
      statements ⟨session, (sink, start), []⟩
    let full := run .unlimited
    let limited := run (.empty (some limit) false)
    let output := (ending full).outside.1.bytes
    (ending limited).outside.1.bytes = output.take limit ∧
    (output.length ≤ limit →
      failure? limited = failure? full ∧ (ending limited).session = (ending full).session ∧
        (ending limited).outside.2 = (ending full).outside.2) ∧
    (limit < output.length →
      failure? limited = some (.io "sink full".toList) ∧
      ∃ front statement back mid values, statements = front ++ statement :: back ∧
        (codeBytes settings front).length ≤ limit ∧
        limit < (codeBytes settings (front ++ [statement])).length ∧
        session.play front = .ok (mid, values) ∧
        (ending limited).outside.2 = printAll act values start ∧
        mid.resolve statement = .ok ((ending limited).session, none)) ∧
    (ending (run (.empty none true))).outside.1.bytes =
      (((session.reached settings statements).find? fun statement =>
        statement.code settings ≠ []).elim []
          fun statement => Utf8.encode (statement.code settings)) := by
  intro run full limited output
  obtain ⟨-, ⟨⟨last, values⟩, hplay⟩, -⟩ := session.reached_spec settings statements
  have hall : ∀ bytes, Sink.unlimited.Fits bytes := Sink.fits_of_none rfl
  obtain ⟨hfailure, hsession, hprinted, houtput⟩ :=
    run_of_fits hplay (hall _) rfl act start []
  change output = _ at houtput
  rw [Sink.unlimited, Sink.bytes_empty, List.nil_append] at houtput
  by_cases hle : output.length ≤ limit
  · have hfits := Sink.fits_empty (houtput ▸ hle) false
    obtain ⟨hfailure', hsession', hprinted', hbytes⟩ := run_of_fits hplay hfits rfl act start []
    rw [Sink.bytes_empty, List.nil_append, ← houtput] at hbytes
    refine ⟨?_, fun _ => ?_, fun hlt => absurd hle (Nat.not_le_of_lt hlt),
      bytes_of_flushing statements⟩
    · rw [List.take_of_length_le hle]
      exact hbytes
    · exact ⟨hfailure'.trans hfailure.symm, hsession'.trans hsession.symm,
        hprinted'.trans hprinted.symm⟩
  · have hlt : limit < (codeBytes settings (session.reached settings statements)).length := by
      rw [← houtput]
      exact Nat.lt_of_not_le hle
    obtain ⟨t, ht, hbytes, hcrossing⟩ := exists_crossing_of_lt hlt act start []
    have hlimited : limited = .error (.io "sink full".toList) t := ht
    rw [hlimited, houtput]
    exact ⟨hbytes, fun hle' => absurd hlt (Nat.not_lt_of_le hle'), fun _ => ⟨rfl, hcrossing⟩,
      bytes_of_flushing statements⟩

end

end Run

end StoredProc
