import StoredProc.Proofs.Disk
import StoredProc.Proofs.Transpile.Play
import StoredProc.Transpile.File

/-!
A run from file to file beside the run of the same script in memory. Both
go through the same sessions and write the same code; they can only part
where the console is full. Until then the console holds the lines of the
values printed in memory. A line that does not fit ends the run with as
many of its bytes as there is room for, and the file keeps the code of
the statements before it.

`Mirrors` is what the two have in common between statements. One
statement keeps it, or fails in both in the same way, or is the print
that does not fit; a run of statements is then an induction.
-/

namespace StoredProc

/-! ### Lines on a console -/

def consoleLine (value : Text) : List UInt8 := Text.Utf8.encode (value ++ ['\n'])

def consoleLines (values : List Text) : List UInt8 := values.flatMap consoleLine

theorem consoleLines_append (values more : List Text) :
    consoleLines (values ++ more) = consoleLines values ++ consoleLines more :=
  List.flatMap_append

theorem consoleLines_concat (values : List Text) (value : Text) :
    consoleLines (values ++ [value]) = consoleLines values ++ consoleLine value := by
  rw [consoleLines_append, consoleLines, consoleLines, List.flatMap_singleton]

theorem Printer.toSink_of_fits {value : Text} {sink : Sink} (h : sink.Fits (consoleLine value)) :
    toSink value sink = .ok () (sink.push (consoleLine value)) := by
  rw [toSink, ← consoleLine, Sink.write_of_fits h]

theorem Printer.toSink_of_lt {value : Text} {sink : Sink} {room : Nat}
    (hroom : sink.room = some room) (h : room < (consoleLine value).length) :
    toSink value sink =
      .error (.io "sink full".toList) (sink.push ((consoleLine value).take room)) := by
  rw [toSink, ← consoleLine, Sink.write_of_lt hroom h]

/-- Only a print has a value, the one that its name has. -/
theorem Session.print_of_resolve_some {session session' : Session} {statement : Statement}
    {value : Text} (h : session.resolve statement = .ok (session', some value)) :
    ∃ line var, statement = .print line var ∧ session.env.get? var.name = some value := by
  cases statement with
  | print line var =>
      rw [resolve] at h
      split at h
      · next found hfound =>
          cases h
          exact ⟨line, var, rfl, hfound⟩
      · cases h
  | _ => cases h

/-! ### The two runs -/

namespace Run

/-- What a run in memory has put outside, and what the run from file to
file has, which began with the given streams. The file is the sink in
memory, and the console has taken a line for each value. -/
structure Mirrors (base : Streams) (ideal : Sink × Listing) (streams : Streams) : Prop where
  roomy : Roomy ideal
  file : streams.file = ideal.1
  errors : streams.errors = base.errors
  fits : base.console.Fits (consoleLines ideal.2.values)
  bytes : streams.console.bytes = base.console.bytes ++ consoleLines ideal.2.values
  room : streams.console.room =
    base.console.room.map (· - (consoleLines ideal.2.values).length)

variable {base streams : Streams} {ideal : Sink × Listing} {settings : Settings}

theorem Mirrors.start (base : Streams) (hfile : base.file = .unlimited) :
    Mirrors base (.unlimited, .empty none) base := by
  refine ⟨⟨rfl, rfl, rfl⟩, hfile, rfl, ?_, ?_, ?_⟩
  · intro room _
    exact Nat.zero_le room
  · exact (List.append_nil _).symm
  · simp [consoleLines]

/-- A value whose line fits behind the others is printed in both runs. -/
theorem Mirrors.prints (h : Mirrors base ideal streams) {value : Option Text}
    (hfits : base.console.Fits (consoleLines (ideal.2.values ++ value.toList))) :
    ∃ ideal' streams', Prints Printer.toListing.right value ideal ideal' ∧
      Prints Streams.printer value streams streams' ∧ Mirrors base ideal' streams' := by
  cases value with
  | none => exact ⟨ideal, streams, .nothing, .nothing, h⟩
  | some value =>
      obtain ⟨ideal', hprint, hroomy, hvalues⟩ := h.roomy.prints (some value)
      have hsink : ideal'.1 = ideal.1 := by
        cases hprint with
        | value hprint =>
            rw [Printer.right, Printer.onPart] at hprint
            obtain ⟨part, -, rfl⟩ := onPart_eq_ok hprint
            rfl
      rw [← hvalues] at hfits
      have hlines : consoleLines ideal'.2.values =
          consoleLines ideal.2.values ++ consoleLine value := by
        rw [hvalues]
        exact consoleLines_concat _ value
      have hline : streams.console.Fits (consoleLine value) := by
        intro room hroom
        rw [h.room] at hroom
        obtain ⟨limit, hlimit, rfl⟩ := Option.map_eq_some_iff.mp hroom
        have hlength := hfits limit hlimit
        rw [hlines, List.length_append] at hlength
        omega
      have hwrite : Streams.printer value streams =
          .ok () { streams with console := streams.console.push (consoleLine value) } := by
        rw [Streams.printer, Printer.onPart]
        exact onPart_of_ok (Printer.toSink_of_fits hline)
      refine ⟨ideal', _, hprint, .value hwrite, hroomy, h.file.trans hsink.symm, h.errors, hfits,
        ?_, ?_⟩
      · rw [Sink.bytes_push, h.bytes, hlines, List.append_assoc]
      · simp only [Sink.push, h.room, hlines, Option.map_map, List.length_append]
        congr 1
        funext room
        exact Nat.sub_sub room _ _

/-- A value whose line does not fit behind the others is refused by the
console, which takes the bytes up to its limit. -/
theorem Mirrors.refuses (h : Mirrors base ideal streams) {value : Text} {limit : Nat}
    (hlimit : base.console.room = some limit)
    (hover : limit < (consoleLines (ideal.2.values ++ [value])).length) :
    ∃ streams', Streams.printer value streams = .error (.io "sink full".toList) streams' ∧
      streams'.file = ideal.1 ∧ streams'.errors = base.errors ∧
      streams'.console.bytes =
        base.console.bytes ++ (consoleLines (ideal.2.values ++ [value])).take limit := by
  have hheld := h.fits limit hlimit
  have hroom : streams.console.room = some (limit - (consoleLines ideal.2.values).length) := by
    rw [h.room, hlimit, Option.map_some]
  have hline : limit - (consoleLines ideal.2.values).length < (consoleLine value).length := by
    rw [consoleLines_concat, List.length_append] at hover
    omega
  refine ⟨{ streams with console := streams.console.push ((consoleLine value).take
    (limit - (consoleLines ideal.2.values).length)) }, ?_, h.file, h.errors, ?_⟩
  · rw [Streams.printer, Printer.onPart]
    exact onPart_of_error (Printer.toSink_of_lt hroom hline)
  · rw [Sink.bytes_push, h.bytes, consoleLines_concat, List.take_append,
      List.take_of_length_le hheld, List.append_assoc]

/-- The code of a statement is written in both runs. -/
theorem Mirrors.emits (h : Mirrors base ideal streams) {statement : Statement}
    (hspells : settings.Spells statement) :
    ∃ ideal' streams', Emits settings Sink.writer.left statement ideal ideal' ∧
      Emits settings Streams.toFile statement streams streams' ∧ Mirrors base ideal' streams' := by
  obtain ⟨ideal', hemit, hroomy, hlisting⟩ := h.roomy.emits hspells
  refine ⟨ideal', { streams with file := ideal'.1 }, hemit, ?_, hroomy, rfl, h.errors, ?_, ?_, ?_⟩
  · cases hemit with
    | nothing hcode =>
        rw [← h.file]
        exact .nothing hcode
    | code _ hcode hwrite hflush =>
        -- Both write to the same sink, each over a part of its own state.
        rw [Writer.left, Writer.write_onPart] at hwrite
        rw [Writer.left, Writer.flush_onPart] at hflush
        obtain ⟨written, hwritten, rfl⟩ := onPart_eq_ok hwrite
        obtain ⟨flushed, hflushed, rfl⟩ := onPart_eq_ok hflush
        rw [← h.file] at hwritten
        have hwrite : Streams.toFile.write (Text.Utf8.encode (statement.code settings)) streams =
            .ok () { streams with file := written } := by
          rw [Streams.toFile, Writer.write_onPart]
          exact onPart_of_ok hwritten
        refine .code hspells hcode hwrite ?_
        rw [Streams.toFile, Writer.flush_onPart]
        exact onPart_of_ok hflushed
  · rw [hlisting]
    exact h.fits
  · rw [hlisting]
    exact h.bytes
  · rw [hlisting]
    exact h.room

inductive Alike (base : Streams) :
    EStateM.Result Diagnostic (Stage (Sink × Listing)) Unit →
      EStateM.Result Diagnostic (Stage Streams) Unit → Prop
  | ok {s : Stage (Sink × Listing)} {t : Stage Streams} (hsession : t.session = s.session)
      (h : Mirrors base s.outside t.outside) : Alike base (.ok () s) (.ok () t)
  | error {s : Stage (Sink × Listing)} {t : Stage Streams} (e : Diagnostic)
      (h : Mirrors base s.outside t.outside) : Alike base (.error e s) (.error e t)

variable {s : Stage (Sink × Listing)} {t : Stage Streams} {statement : Statement}

/-- A statement in both runs. They differ only if it has a value whose
line does not fit. -/
theorem Mirrors.statement_alike (h : Mirrors base s.outside t.outside)
    (hsession : t.session = s.session) (settings : Settings)
    (hfits : ∀ session value, s.session.resolve statement = .ok (session, some value) →
      base.console.Fits (consoleLines (s.outside.2.values ++ [value]))) :
    Alike base (Run.statement settings Sink.writer.left Printer.toListing.right statement s)
      (Run.statement settings Streams.toFile Streams.printer statement t) := by
  cases hresolve : s.session.resolve statement with
  | error e =>
      have hresolve' := hresolve
      rw [← hsession] at hresolve'
      rw [(Halts.resolving hresolve).statement_eq, (Halts.resolving hresolve').statement_eq]
      exact .error e h
  | ok found =>
      obtain ⟨session, value⟩ := found
      have hvalue : base.console.Fits (consoleLines (s.outside.2.values ++ value.toList)) := by
        cases value with
        | none => simpa using h.fits
        | some value => exact hfits session value hresolve
      obtain ⟨printed, printed', hprint, hprint', hmirrors⟩ := h.prints hvalue
      have hresolve' := hresolve
      rw [← hsession] at hresolve'
      by_cases hspells : settings.Spells statement
      · obtain ⟨outside, outside', hemit, hemit', hmirrors'⟩ := hmirrors.emits hspells
        rw [(Completes.intro hresolve hprint hemit).statement_eq,
          (Completes.intro hresolve' hprint' hemit').statement_eq]
        exact .ok rfl hmirrors'
      · rw [(Halts.spelling hresolve hprint hspells).statement_eq,
          (Halts.spelling hresolve' hprint' hspells).statement_eq]
        exact .error .capacity hmirrors

/-- A value whose line does not fit ends the run from file to file in
front of the code of its statement. -/
theorem Mirrors.statement_refused (h : Mirrors base s.outside t.outside)
    (hsession : t.session = s.session) (settings : Settings) {session : Session} {value : Text}
    (hresolve : s.session.resolve statement = .ok (session, some value)) {limit : Nat}
    (hlimit : base.console.room = some limit)
    (hover : limit < (consoleLines (s.outside.2.values ++ [value])).length) :
    ∃ t', Run.statement settings Streams.toFile Streams.printer statement t =
        .error (.io "sink full".toList) t' ∧
      t'.outside.file = s.outside.1 ∧ t'.outside.errors = base.errors ∧
      t'.outside.console.bytes =
        base.console.bytes ++ (consoleLines (s.outside.2.values ++ [value])).take limit := by
  obtain ⟨streams, hprint, hstreams⟩ := h.refuses hlimit hover
  have hresolve' : t.session.resolve statement = .ok (t.session, some value) := by
    rw [hsession, hresolve, Session.eq_of_resolve_some hresolve]
  exact ⟨_, (Halts.printing hresolve' hprint).statement_eq, hstreams⟩

/-- The first print of a run whose line does not fit on the console: what
stands in front of it completes in memory. -/
structure Overflows (settings : Settings) (limit : Nat) (statements : List Statement)
    (s : Stage (Sink × Listing)) (front : List Statement) (mid : Stage (Sink × Listing))
    (value : Text) : Prop where
  ideal : Run.statements settings Sink.writer.left Printer.toListing.right front s = .ok () mid
  found : ∃ line var back, statements = front ++ .print line var :: back ∧
    mid.session.env.get? var.name = some value
  fits : (consoleLines mid.outside.2.values).length ≤ limit
  exceeds : limit < (consoleLines (mid.outside.2.values ++ [value])).length

/-- The run from file to file ends as the run in memory does, or it is
ended by the first print that overflows the console. -/
theorem Mirrors.run (h : Mirrors base s.outside t.outside) (hsession : t.session = s.session)
    (settings : Settings) (statements : List Statement) :
    Alike base (Run.statements settings Sink.writer.left Printer.toListing.right statements s)
      (Run.statements settings Streams.toFile Streams.printer statements t) ∨
    ∃ limit front mid value t', base.console.room = some limit ∧
      Overflows settings limit statements s front mid value ∧
      Run.statements settings Streams.toFile Streams.printer statements t =
        .error (.io "sink full".toList) t' ∧
      t'.outside.file = mid.outside.1 ∧ t'.outside.errors = base.errors ∧
      t'.outside.console.bytes =
        base.console.bytes ++ (consoleLines (mid.outside.2.values ++ [value])).take limit := by
  induction statements generalizing s t with
  | nil => exact .inl (.ok hsession h)
  | cons statement statements ih =>
      rw [statements_cons, statements_cons]
      by_cases hfits : ∀ session value, s.session.resolve statement = .ok (session, some value) →
          base.console.Fits (consoleLines (s.outside.2.values ++ [value]))
      · have halike := h.statement_alike hsession settings hfits
        generalize hideal : Run.statement settings Sink.writer.left Printer.toListing.right
          statement s = ideal at halike
        generalize hactual : Run.statement settings Streams.toFile Streams.printer
          statement t = actual at halike
        cases halike with
        | error e h' =>
            rw [bind_of_error hideal, bind_of_error hactual]
            exact .inl (.error e h')
        | ok hsession' h' =>
            rw [bind_of_ok hideal, bind_of_ok hactual]
            rcases ih h' hsession' with halike |
              ⟨limit, front, mid, value, last, hlimit, hover, hrun, hstreams⟩
            · exact .inl halike
            · refine .inr ⟨limit, statement :: front, mid, value, last, hlimit, ?_, hrun,
                hstreams⟩
              obtain ⟨line, var, back, rfl, hfound⟩ := hover.found
              refine ⟨?_, ⟨line, var, back, rfl, hfound⟩, hover.fits, hover.exceeds⟩
              rw [statements_cons, bind_of_ok hideal, hover.ideal]
      -- The line of this statement does not fit, so it is the one.
      · simp only [Sink.Fits, Classical.not_forall, Nat.not_le] at hfits
        obtain ⟨session, value, hresolve, limit, hlimit, hover⟩ := hfits
        obtain ⟨t', ht', hstreams⟩ :=
          h.statement_refused hsession settings hresolve hlimit hover
        obtain ⟨line, var, rfl, hfound⟩ := Session.print_of_resolve_some hresolve
        refine .inr ⟨limit, [], s, value, t', hlimit, ?_, bind_of_error ht', hstreams⟩
        exact ⟨rfl, ⟨line, var, statements, rfl, hfound⟩, h.fits limit hlimit, hover⟩

def ending {σ : Type} : EStateM.Result Diagnostic (Stage σ) Unit → Stage σ
  | .ok () stage => stage
  | .error _ stage => stage

def inMemory (settings : Settings) (statements : List Statement) : Stage (Sink × Listing) :=
  ending (Session.fresh.run settings statements)

/-- In memory there is room to the end, and values that were printed stay
printed. -/
theorem Roomy.ending {s : Stage (Sink × Listing)} (h : Roomy s.outside) (settings : Settings)
    (statements : List Statement) :
    let last := Run.ending (Run.statements settings Sink.writer.left Printer.toListing.right
      statements s)
    Roomy last.outside ∧ ∃ more, last.outside.2.values = s.outside.2.values ++ more := by
  induction statements generalizing s with
  | nil => exact ⟨h, [], (List.append_nil _).symm⟩
  | cons statement statements ih =>
      rw [statements_cons]
      cases hresolve : s.session.resolve statement with
      | error e =>
          rw [bind_of_error (Halts.resolving hresolve).statement_eq]
          exact ⟨h, [], (List.append_nil _).symm⟩
      | ok found =>
          obtain ⟨session, value⟩ := found
          by_cases hspells : settings.Spells statement
          · obtain ⟨mid, hmid, -, hroomy, hvalues⟩ := h.completes hspells hresolve
            obtain ⟨hlast, more, hmore⟩ := ih hroomy
            rw [bind_of_ok hmid.statement_eq]
            refine ⟨hlast, value.toList ++ more, ?_⟩
            rw [hmore, hvalues, List.append_assoc]
          · obtain ⟨printed, hprint, hroomy, hvalues⟩ := h.prints value
            rw [bind_of_error (Halts.spelling hresolve hprint hspells).statement_eq]
            exact ⟨hroomy, value.toList, hvalues⟩

/-- Where a print overflows the console, the lines of the run in memory
go on behind the line that does not fit. -/
theorem Overflows.exists_lines {s mid : Stage (Sink × Listing)} {limit : Nat}
    {statements front : List Statement} {value : Text} (hroomy : Roomy s.outside)
    (h : Overflows settings limit statements s front mid value) :
    ∃ more, consoleLines (ending (Run.statements settings Sink.writer.left
        Printer.toListing.right statements s)).outside.2.values =
      consoleLines (mid.outside.2.values ++ [value]) ++ more := by
  obtain ⟨line, var, back, rfl, hfound⟩ := h.found
  have hmid : Roomy mid.outside := by
    have hfront := (hroomy.ending settings front).1
    rwa [h.ideal] at hfront
  have hresolve : mid.session.resolve (.print line var) = .ok (mid.session, some value) := by
    rw [Session.resolve, hfound]
  have hspells : settings.Spells (.print line var) := spells_of_code_eq_nil rfl
  obtain ⟨next, hnext, -, hroomy', hvalues⟩ := hmid.completes hspells hresolve
  obtain ⟨-, more, hmore⟩ := hroomy'.ending settings back
  refine ⟨consoleLines more, ?_⟩
  rw [statements_append, bind_of_ok h.ideal, statements_cons, bind_of_ok hnext.statement_eq,
    hmore, hvalues, consoleLines_append]
  rfl

end Run

/-! ### The flush behind a run -/

/-- What was written to an outlet has been let go of. -/
def Outlet.Settled (outlet : Outlet) (file : Sink) : Prop :=
  match outlet with
  | .file _ | .device .null => file.flushFails = false
  | .device .full => file.bytes = []
  | .device .output | .device .errors => True

theorem Outlet.flush_of_settled {outlet : Outlet} {streams : Streams}
    (h : outlet.Settled streams.file) : outlet.writer.flush streams = .ok () streams := by
  match outlet with
  | .file _ | .device .null =>
      rw [writer, Streams.toFile, Writer.flush_onPart]
      exact onPart_of_ok (Sink.flush_of_eq_false h)
  | .device .full => exact if_pos h
  | .device .output | .device .errors => rfl

/-- A flush that fails changes nothing either. -/
theorem Outlet.flush_of_not_settled {outlet : Outlet} {streams : Streams}
    (h : ¬ outlet.Settled streams.file) :
    ∃ reason, outlet.writer.flush streams = .error reason streams := by
  match outlet with
  | .file _ | .device .null =>
      rw [writer, Streams.toFile, Writer.flush_onPart]
      exact ⟨_, onPart_of_error (Sink.flush_of_eq_true (eq_true_of_ne_false h))⟩
  | .device .full => exact ⟨_, if_neg h⟩
  | .device .output | .device .errors => exact absurd trivial h

theorem Outlet.settled_of_flush {outlet : Outlet} {streams streams' : Streams}
    (h : outlet.writer.flush streams = .ok () streams') : outlet.Settled streams'.file := by
  by_cases hsettled : outlet.Settled streams.file
  · rw [flush_of_settled hsettled] at h
    cases h
    exact hsettled
  · obtain ⟨reason, hfails⟩ := flush_of_not_settled hsettled
    rw [hfails] at h
    cases h

theorem Outlet.settled_unlimited (outlet : Outlet) : outlet.Settled .unlimited := by
  match outlet with
  | .file _ | .device .null | .device .full => rfl
  | .device .output | .device .errors => trivial

namespace Run

variable {settings : Settings} {outlet : Outlet} {statements : List Statement}
  {s t : Stage Streams}

theorem Prints.file_eq {value : Option Text} {streams streams' : Streams}
    (h : Prints Streams.printer value streams streams') : streams'.file = streams.file := by
  cases h with
  | nothing => rfl
  | value h =>
      rw [Streams.printer, Printer.onPart] at h
      obtain ⟨part, -, rfl⟩ := onPart_eq_ok h
      rfl

/-- What is written is let go of before the next statement. -/
theorem Completed.settled (h : Completed settings outlet.writer Streams.printer statements s t)
    (hs : outlet.Settled s.outside.file) : outlet.Settled t.outside.file := by
  induction h with
  | nil => exact hs
  | cons h hrest ih =>
      apply ih
      cases h with
      | intro hresolve hprint hemit =>
          cases hemit with
          | nothing hcode => exact hprint.file_eq ▸ hs
          | code hspells hcode hwrite hflush => exact Outlet.settled_of_flush hflush

/-- Each piece of code is flushed when it is written, so there is nothing
to let go of behind a run, and where the run fails so does the whole. -/
theorem runAndFlush_eq (settings : Settings) (statements : List Statement)
    (hs : outlet.Settled s.outside.file) :
    (means outlet.writer Streams.printer).runAndFlush settings statements s =
      Run.statements settings outlet.writer Streams.printer statements s := by
  rcases completed_or_halts settings outlet.writer Streams.printer statements s with
    ⟨t, hall⟩ | ⟨front, st, back, mid, e, t, rfl, hfront, hst⟩
  · have hrun : (means outlet.writer Streams.printer).statements settings statements s =
        .ok () t := hall.statements_eq
    have hflush : (means outlet.writer Streams.printer).flush t = .ok () t :=
      writing_eq_ok (Outlet.flush_of_settled (hall.settled hs))
    rw [hall.statements_eq, Means.runAndFlush, bind_of_ok (observing_of_ok hrun),
      bind_of_ok (observing_of_ok hflush)]
    rfl
  · have hrun : (means outlet.writer Streams.printer).statements settings (front ++ st :: back) s =
        .error e t := hst.statements_eq hfront back
    rw [hst.statements_eq hfront, Means.runAndFlush, bind_of_ok (observing_of_error hrun)]
    -- The flush may fail then, and it is not its failure that is reported.
    by_cases hsettled : outlet.Settled t.outside.file
    · have hflush : (means outlet.writer Streams.printer).flush t = .ok () t :=
        writing_eq_ok (Outlet.flush_of_settled hsettled)
      rw [bind_of_ok (observing_of_ok hflush)]
      rfl
    · obtain ⟨reason, hfails⟩ := Outlet.flush_of_not_settled hsettled
      have hflush : (means outlet.writer Streams.printer).flush t = .error (.io reason) t :=
        writing_eq_error hfails
      rw [bind_of_ok (observing_of_error hflush)]
      rfl

end Run

/-- Running a script into an outlet is running its statements. -/
theorem Program.run_eq (program : Program) (settings : Settings) (outlet : Outlet)
    {streams : Streams} (h : streams.file = .unlimited) :
    program.run settings outlet streams =
      Run.statements settings outlet.writer Streams.printer program.statements
        ⟨.fresh, streams, []⟩ :=
  Run.runAndFlush_eq settings program.statements (h ▸ outlet.settled_unlimited)

/-! ### From file to file -/

namespace Site

/-- What a run into a file leaves behind: the code is read where the
output path leads, nothing else on the disk is different, and the console
shows what it showed before and then the lines. -/
structure Leaves (site : Site) (output : Text) (place : Location) (code lines : List UInt8)
    (site' : Site) : Prop where
  read : site'.disk.read output = .ok code
  file : site'.disk.entry? place = some (.file code)
  others : ∀ other, other ≠ place → site'.disk.entry? other = site.disk.entry? other
  home : site'.disk.home = site.disk.home
  console : site'.console.bytes = site.console.bytes ++ lines
  errors : site'.errors = site.errors

variable {settings : Settings} {input output : Text} {site : Site} {program : Program}

theorem leaves_after {created : Disk} {place : Location} {streams : Streams}
    {lines : List UInt8} (hcreate : site.disk.create output = .ok (created, .file place))
    (hconsole : streams.console.bytes = site.console.bytes ++ lines)
    (herrors : streams.errors = site.errors) :
    Leaves site output place streams.file.bytes lines
      (after { site with disk := created } (.file place) streams) := by
  obtain ⟨htarget, rfl⟩ := Disk.targetOf_of_create hcreate
  obtain ⟨-, -, -, -, hfree⟩ := Disk.walk_of_targetOf htarget
  have hdisk : (after { site with disk := site.disk.fill (.file place) [] } (.file place)
      streams).disk = site.disk.put place (.file streams.file.bytes) :=
    Disk.put_put site.disk place _ _
  refine ⟨?_, ?_, ?_, ?_, hconsole, herrors⟩
  · rw [hdisk]
    exact Disk.read_put_of_targetOf htarget _
  · rw [hdisk]
    exact Disk.entry?_put_self hfree.ne_nil _ _
  · intro other hother
    rw [hdisk]
    exact Disk.entry?_put_of_ne hother _ _
  · rw [hdisk]
    rfl

theorem host_read_of_ok {bytes : List UInt8} (h : site.disk.read input = .ok bytes) :
    (host settings).read input site = .ok bytes site := by
  change read input site = _
  rw [read, h]

theorem transpile_of_read_error {fault : Fault} (h : site.disk.read input = .error fault) :
    transpile settings input output site = .error (.io fault.reason) site := by
  have hread : read input site = .error (.io fault.reason) site := by rw [read, h]
  exact bind_of_error hread

theorem transpile_of_ofBytes_error {bytes : List UInt8} {e : Diagnostic}
    (hbytes : site.disk.read input = .ok bytes) (h : Program.ofBytes bytes = .error e) :
    transpile settings input output site = .error e site := by
  rw [transpile, Host.transpile, bind_of_ok (host_read_of_ok hbytes), h]
  rfl

def Holds (site : Site) (input : Text) (program : Program) : Prop :=
  ∃ bytes, site.disk.read input = .ok bytes ∧ Program.ofBytes bytes = .ok program

/-- A script is run into what is created for it. -/
theorem transpile_of_holds (h : site.Holds input program) :
    transpile settings input output site =
      match site.disk.create output with
      | .error fault => .error (.io fault.reason) site
      | .ok (created, outlet) =>
          match program.run settings outlet site.streams with
          | .ok () stage => .ok program.statements.length
              (after { site with disk := created } outlet stage.outside)
          | .error e stage => .error e
              (after { site with disk := created } outlet stage.outside) := by
  obtain ⟨bytes, hbytes, hprogram⟩ := h
  rw [transpile, Host.transpile, bind_of_ok (host_read_of_ok hbytes), hprogram]
  change (create output >>= _) site = _
  cases hcreate : site.disk.create output with
  | error fault =>
      have hfail : create output site = .error (.io fault.reason) site := by rw [create, hcreate]
      exact bind_of_error hfail
  | ok found =>
      obtain ⟨created, outlet⟩ := found
      have hopen : create output site = .ok outlet { site with disk := created } := by
        rw [create, hcreate]
      rw [bind_of_ok hopen]
      dsimp only
      change (run settings program outlet >>= _) { site with disk := created } = _
      -- The streams of a run do not depend on the disk.
      have hstreams : streams { site with disk := created } = site.streams := rfl
      cases hrun : program.run settings outlet site.streams with
      | ok _ stage => exact bind_of_ok (by rw [run, hstreams, hrun])
      | error e stage => exact bind_of_error (by rw [run, hstreams, hrun])

/-- The answer of a run: the number of its statements, unless it fails. -/
def answerOf {σ : Type} (count : Nat) (site : Site) :
    EStateM.Result Diagnostic (Stage σ) Unit → EStateM.Result Diagnostic Site Nat
  | .ok () _ => .ok count site
  | .error e _ => .error e site

/-- How a run of statements into a file answers and what it leaves, next
to the run of the same statements in memory. -/
structure Delivers (settings : Settings) (statements : List Statement) (output : Text)
    (place : Location) (site : Site) (answer : EStateM.Result Diagnostic Site Nat) : Prop where
  /-- Where the console has room for the lines of all values, it shows them,
  the file holds the code, and the answer is that of the run in memory. -/
  whole : site.console.Fits (consoleLines (Run.inMemory settings statements).outside.2.values) →
    ∃ site', answer = answerOf statements.length site' (Session.fresh.run settings statements) ∧
      Leaves site output place (Run.inMemory settings statements).outside.1.bytes
        (consoleLines (Run.inMemory settings statements).outside.2.values) site'
  /-- Where it has not, it shows the bytes up to its limit, and the file holds
  the code in front of the print whose line is cut. -/
  cut : ∀ limit, site.console.room = some limit →
    limit < (consoleLines (Run.inMemory settings statements).outside.2.values).length →
    ∃ site' front line var back mid value,
      answer = .error (.io "sink full".toList) site' ∧
      statements = front ++ .print line var :: back ∧
      Session.fresh.run settings front = .ok () mid ∧
      mid.session.env.get? var.name = some value ∧
      (consoleLines mid.outside.2.values).length ≤ limit ∧
      limit < (consoleLines (mid.outside.2.values ++ [value])).length ∧
      Leaves site output place mid.outside.1.bytes
        ((consoleLines (Run.inMemory settings statements).outside.2.values).take limit) site'

/-- What the two runs have in common at the end is what is left. -/
theorem leaves_of_mirrors {created : Disk} {place : Location} {ideal : Sink × Listing}
    {streams : Streams} (hcreate : site.disk.create output = .ok (created, .file place))
    (h : Run.Mirrors site.streams ideal streams) :
    Leaves site output place ideal.1.bytes (consoleLines ideal.2.values)
      (after { site with disk := created } (.file place) streams) := by
  rw [← h.file]
  exact leaves_after hcreate h.bytes h.errors

/-- Runs that end alike leave no print that overflows. -/
theorem delivers_of_alike {created : Disk} {place : Location}
    (hcreate : site.disk.create output = .ok (created, .file place))
    (h : Run.Alike site.streams (Session.fresh.run settings program.statements)
      (program.run settings (.file place) site.streams))
    (hload : site.Holds input program) :
    Delivers settings program.statements output place site
      (transpile settings input output site) := by
  rw [transpile_of_holds hload, hcreate]
  dsimp only
  generalize hactual : program.run settings (.file place) site.streams = actual at h
  generalize hideal : Session.fresh.run settings program.statements = ideal at h
  have hfits : site.console.Fits
      (consoleLines (Run.inMemory settings program.statements).outside.2.values) := by
    rw [Run.inMemory, hideal]
    cases h with
    | ok hsession h => exact h.fits
    | error e h => exact h.fits
  refine ⟨?_, ?_⟩
  · intro _
    rw [Run.inMemory, hideal]
    cases h with
    | ok hsession h => exact ⟨_, rfl, leaves_of_mirrors hcreate h⟩
    | error e h => exact ⟨_, rfl, leaves_of_mirrors hcreate h⟩
  · intro limit hlimit hover
    exact absurd (hfits limit hlimit) (Nat.not_le_of_lt hover)

/-- A print that overflows is one of those that the run in memory makes,
so its lines do not fit either. -/
theorem delivers_of_overflows {created : Disk} {place : Location} {limit : Nat}
    {front : List Statement} {mid : Stage (Sink × Listing)} {value : Text} {stage : Stage Streams}
    (hcreate : site.disk.create output = .ok (created, .file place))
    (hlimit : site.console.room = some limit)
    (hover : Run.Overflows settings limit program.statements
      ⟨.fresh, (.unlimited, .empty none), []⟩ front mid value)
    (hrun : program.run settings (.file place) site.streams =
      .error (.io "sink full".toList) stage)
    (hfile : stage.outside.file = mid.outside.1) (herrors : stage.outside.errors = site.errors)
    (hconsole : stage.outside.console.bytes =
      site.console.bytes ++ (consoleLines (mid.outside.2.values ++ [value])).take limit)
    (hload : site.Holds input program) :
    Delivers settings program.statements output place site
      (transpile settings input output site) := by
  obtain ⟨more, hlines⟩ := hover.exists_lines ⟨rfl, rfl, rfl⟩
  change consoleLines (Run.inMemory settings program.statements).outside.2.values = _ at hlines
  rw [transpile_of_holds hload, hcreate]
  dsimp only
  rw [hrun]
  refine ⟨?_, ?_⟩
  · intro hfits
    have hroom := hfits limit hlimit
    have hlength := hover.exceeds
    rw [hlines, List.length_append] at hroom
    omega
  · intro limit' hlimit' _
    obtain rfl : limit = limit' := Option.some.inj (hlimit.symm.trans hlimit')
    obtain ⟨line, var, back, hstatements, hfound⟩ := hover.found
    refine ⟨_, front, line, var, back, mid, value, rfl, hstatements, hover.ideal, hfound,
      hover.fits, hover.exceeds, ?_⟩
    rw [← hfile, hlines, List.take_append_of_le_length (Nat.le_of_lt hover.exceeds)]
    exact leaves_after hcreate hconsole herrors

theorem delivers_of_create {created : Disk} {place : Location}
    (hload : site.Holds input program)
    (hcreate : site.disk.create output = .ok (created, .file place)) :
    Delivers settings program.statements output place site
      (transpile settings input output site) := by
  have hstart : Run.Mirrors site.streams (.unlimited, .empty none) site.streams :=
    .start site.streams rfl
  have hactual := program.run_eq settings (.file place) (rfl : site.streams.file = .unlimited)
  rcases hstart.run (s := ⟨.fresh, (.unlimited, .empty none), []⟩)
      (t := ⟨.fresh, site.streams, []⟩) rfl settings program.statements with
    halike | ⟨limit, front, mid, value, stage, hlimit, hover, hrun, hfile, herrors, hconsole⟩
  · exact delivers_of_alike hcreate (hactual ▸ halike) hload
  · exact delivers_of_overflows hcreate hlimit hover (hactual.trans hrun) hfile herrors hconsole
      hload

/-- A script from a file to a file does what the script does in memory:
nothing is touched by a script that cannot be read or an output that
cannot be opened, and otherwise the run into the file delivers what the
run in memory comes to, as far as the console takes it. -/
theorem transpile_refines_run (settings : Settings) (input output : Text) (site : Site) :
    match site.disk.read input with
    | .error fault => transpile settings input output site = .error (.io fault.reason) site
    | .ok bytes =>
        match Text.Utf8.decode? bytes with
        | none => transpile settings input output site = .error (.io Fault.notText.reason) site
        | some source =>
            match Program.parse source with
            | .error e => transpile settings input output site = .error e.diagnostic site
            | .ok program =>
                (∀ fault, site.disk.create output = .error fault →
                  transpile settings input output site = .error (.io fault.reason) site) ∧
                ∀ created place, site.disk.create output = .ok (created, .file place) →
                  Delivers settings program.statements output place site
                    (transpile settings input output site) := by
  cases hread : site.disk.read input with
  | error fault => exact transpile_of_read_error hread
  | ok bytes =>
      dsimp only
      cases hdecode : Text.Utf8.decode? bytes with
      | none => exact transpile_of_ofBytes_error hread (by rw [Program.ofBytes, hdecode])
      | some source =>
          dsimp only
          cases hparse : Program.parse source with
          | error e =>
              refine transpile_of_ofBytes_error hread ?_
              simp only [Program.ofBytes, hdecode, hparse]
          | ok program =>
              have hload : site.Holds input program := by
                refine ⟨bytes, hread, ?_⟩
                simp only [Program.ofBytes, hdecode, hparse]
              refine ⟨?_, fun created place => delivers_of_create hload⟩
              intro fault hcreate
              rw [transpile_of_holds hload, hcreate]

end Site

end StoredProc
