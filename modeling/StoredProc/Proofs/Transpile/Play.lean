import StoredProc.Proofs.Grammar.Append
import StoredProc.Proofs.Run.Written
import StoredProc.Transpile

/-!
What a script comes to, without the places where a run puts it. A script
is played when its statements are resolved in order and the values they
print are listed. In memory nothing else can fail: the sink takes every
byte and the listing every value, so a script is transpiled if it can be
played, to the code of its statements and the values of the play.

A play looks at the values of names and at nothing else. So blank
statements make no difference to it, lines make none to what it prints,
and a session that knows more plays at least as well.
-/

namespace StoredProc

open Statement

/-! ### Plays -/

namespace Session

/-- The statements resolved in order: the session they end in and the
values they print. -/
def play (session : Session) : List Statement → Except Diagnostic (Session × List Text)
  | [] => .ok (session, [])
  | statement :: statements =>
      match session.resolve statement with
      | .ok (next, value) =>
          (next.play statements).map fun found => (found.1, value.toList ++ found.2)
      | .error e => .error e

variable {session session' next : Session} {statement : Statement} {value : Option Text}

theorem play_cons_of_ok (h : session.resolve statement = .ok (next, value))
    (statements : List Statement) :
    session.play (statement :: statements) =
      (next.play statements).map fun found => (found.1, value.toList ++ found.2) := by
  rw [play, h]

theorem play_cons_of_error {e : Diagnostic} (h : session.resolve statement = .error e)
    (statements : List Statement) : session.play (statement :: statements) = .error e := by
  rw [play, h]

/-- A play that succeeds begins with a statement that is resolved. -/
theorem play_cons_eq_ok {statements : List Statement} {found : Session × List Text}
    (h : session.play (statement :: statements) = .ok found) :
    ∃ next value values, session.resolve statement = .ok (next, value) ∧
      next.play statements = .ok (found.1, values) ∧ found.2 = value.toList ++ values := by
  cases hresolve : session.resolve statement with
  | error e =>
      rw [play_cons_of_error hresolve] at h
      cases h
  | ok step =>
      obtain ⟨next, value⟩ := step
      rw [play_cons_of_ok hresolve] at h
      cases hplay : next.play statements with
      | error e =>
          rw [hplay] at h
          cases h
      | ok rest =>
          rw [hplay] at h
          cases h
          exact ⟨next, value, rest.2, rfl, hplay, rfl⟩

theorem play_append {p q : List Statement} {mid last : Session} {values values' : List Text}
    (hp : session.play p = .ok (mid, values)) (hq : mid.play q = .ok (last, values')) :
    session.play (p ++ q) = .ok (last, values ++ values') := by
  induction p generalizing session values with
  | nil =>
      cases hp
      exact hq
  | cons statement p ih =>
      obtain ⟨next, value, rest, hresolve, hplay, hvalues⟩ := play_cons_eq_ok hp
      obtain rfl : values = value.toList ++ rest := hvalues
      rw [List.cons_append, play_cons_of_ok hresolve, ih hplay, List.append_assoc]
      rfl

/-- Blank statements are played without effect. -/
theorem play_withoutBlanks (session : Session) (statements : List Statement) :
    session.play (withoutBlanks statements) = session.play statements := by
  induction statements generalizing session with
  | nil => rfl
  | cons statement statements ih =>
      by_cases hblank : statement.isLayout = true
      · have hresolve : session.resolve statement = .ok (session, none) := by
          obtain ⟨line, rfl⟩ := exists_blank_of_isLayout hblank
          rfl
        rw [withoutBlanks_cons_of_isLayout hblank statements, play_cons_of_ok hresolve, ih]
        cases session.play statements <;> rfl
      · rw [withoutBlanks_cons_of_not_isLayout hblank statements]
        cases hresolve : session.resolve statement with
        | error e => rw [play_cons_of_error hresolve, play_cons_of_error hresolve]
        | ok step => rw [play_cons_of_ok hresolve, play_cons_of_ok hresolve, ih]

/-! ### Sessions that know more -/

def Extends (session' session : Session) : Prop :=
  ∀ name value, session.env.get? name = some value → session'.env.get? name = some value

theorem extends_fresh (session : Session) : session.Extends fresh := by
  intro name value h
  cases h

theorem Extends.assign (h : session'.Extends session) (name value : Text) :
    Extends { session' with env := session'.env.assign name value }
      { session with env := session.env.assign name value } := by
  intro key found hkey
  rw [Environment.get?_assign] at hkey ⊢
  by_cases hname : key = name
  · rwa [if_pos hname] at hkey ⊢
  · rw [if_neg hname] at hkey ⊢
    exact h key found hkey

/-- What can be resolved can be resolved with more values known, on any
line, and prints the same. -/
theorem Extends.resolve (h : session'.Extends session) (f : Nat → Nat)
    (hresolve : session.resolve statement = .ok (next, value)) :
    ∃ next', session'.resolve (statement.mapLine f) = .ok (next', value) ∧ next'.Extends next := by
  cases statement with
  | assignment line var literal =>
      cases hresolve
      exact ⟨_, rfl, h.assign var.name literal⟩
  | print line var =>
      rw [Session.resolve] at hresolve
      split at hresolve
      · next found hfound =>
          cases hresolve
          refine ⟨session', ?_, h⟩
          rw [mapLine, Session.resolve, Variable.mapLine, h var.name found hfound]
      · cases hresolve
  | procedure | blockStart | declaration | execute | blockEnd | blank =>
      cases hresolve
      exact ⟨_, rfl, h⟩

theorem Extends.play (h : session'.Extends session) (f : Nat → Nat) {statements : List Statement}
    {last : Session} {values : List Text}
    (hplay : session.play statements = .ok (last, values)) :
    ∃ last', session'.play (statements.map (mapLine f)) = .ok (last', values) ∧
      last'.Extends last := by
  induction statements generalizing session session' values with
  | nil =>
      cases hplay
      exact ⟨session', rfl, h⟩
  | cons statement statements ih =>
      obtain ⟨next, value, rest, hresolve, hrest, hvalues⟩ := play_cons_eq_ok hplay
      obtain rfl : values = value.toList ++ rest := hvalues
      obtain ⟨next', hresolve', hnext⟩ := h.resolve f hresolve
      obtain ⟨last', hrest', hlast⟩ := ih hnext hrest
      refine ⟨last', ?_, hlast⟩
      rw [List.map_cons, play_cons_of_ok hresolve', hrest']
      rfl

end Session

/-! ### Code -/

namespace Statement

theorem code_mapLine (settings : Settings) (f : Nat → Nat) (statement : Statement) :
    (statement.mapLine f).code settings = statement.code settings := by
  cases statement with
  | procedure header =>
      have hinputs : (header.mapLine f).inputs = header.inputs := by
        simp only [Header.inputs, Header.mapLine, List.filter_map, List.map_map]
        rfl
      exact congrArg (fun inputs => "def ".toList ++ header.name.name ++ '(' ::
        Text.join ", ".toList inputs ++ "):\n".toList) hinputs
  | _ => rfl

theorem flatMap_code_mapLine (settings : Settings) (f : Nat → Nat)
    (statements : List Statement) :
    (statements.map (mapLine f)).flatMap (code settings) = statements.flatMap (code settings) := by
  rw [List.flatMap_map]
  congr 1
  funext statement
  exact code_mapLine settings f statement

theorem flatMap_code_withoutBlanks (settings : Settings) (statements : List Statement) :
    (withoutBlanks statements).flatMap (code settings) = statements.flatMap (code settings) := by
  induction statements with
  | nil => rfl
  | cons statement statements ih =>
      by_cases hblank : statement.isLayout = true
      · have hcode : statement.code settings = [] := by
          obtain ⟨line, rfl⟩ := exists_blank_of_isLayout hblank
          rfl
        rw [withoutBlanks_cons_of_isLayout hblank statements, List.flatMap_cons, hcode, ih,
          List.nil_append]
      · rw [withoutBlanks_cons_of_not_isLayout hblank statements, List.flatMap_cons,
          List.flatMap_cons, ih]

end Statement

/-! ### In memory -/

namespace Run

structure Roomy (outside : Sink × Listing) : Prop where
  sink : outside.1.room = none
  flush : outside.1.flushFails = false
  listing : outside.2.room = none

variable {settings : Settings} {statement : Statement} {outside : Sink × Listing}

theorem Roomy.prints (h : Roomy outside) (value : Option Text) :
    ∃ outside', Prints Printer.toListing.right value outside outside' ∧ Roomy outside' ∧
      outside'.2.values = outside.2.values ++ value.toList := by
  cases value with
  | none => exact ⟨outside, .nothing, h, (List.append_nil _).symm⟩
  | some value =>
      have hprint : Printer.toListing.right value outside =
          .ok () (outside.1, outside.2.push value) := by
        rw [Printer.right, Printer.onPart]
        refine onPart_of_ok ?_
        rw [Printer.toListing, h.listing]
        rfl
      refine ⟨_, .value hprint, ⟨h.sink, h.flush, ?_⟩, Listing.values_push _ value⟩
      rw [Listing.push, h.listing, Option.map_none]

theorem Roomy.emits (h : Roomy outside) (hspells : settings.Spells statement) :
    ∃ outside', Emits settings Sink.writer.left statement outside outside' ∧ Roomy outside' ∧
      outside'.2 = outside.2 := by
  obtain ⟨sink, hemits, hroom, hflush⟩ :=
    emits_of_fits hspells (Sink.fits_of_none h.sink _) (.inl h.flush) outside.2
  refine ⟨(sink, outside.2), hemits, ⟨?_, ?_, h.listing⟩, rfl⟩
  · rw [hroom, h.sink, Option.map_none]
  · rw [hflush, h.flush]

/-- Where there is room, a statement whose code can be made completes if it
is resolved. -/
theorem Roomy.completes {s : Stage (Sink × Listing)} (h : Roomy s.outside)
    (hspells : settings.Spells statement) {session : Session} {value : Option Text}
    (hresolve : s.session.resolve statement = .ok (session, value)) :
    ∃ t, Completes settings Sink.writer.left Printer.toListing.right statement s t ∧
      t.session = session ∧ Roomy t.outside ∧
      t.outside.2.values = s.outside.2.values ++ value.toList := by
  obtain ⟨printed, hprint, hroomy, hvalues⟩ := h.prints value
  obtain ⟨outside, hemit, hroomy', hlisting⟩ := hroomy.emits hspells
  exact ⟨_, .intro hresolve hprint hemit, rfl, hroomy', by rw [hlisting, hvalues]⟩

/-- Where there is room and code can be made, a run succeeds and fails as
the play does. -/
theorem Roomy.run {s : Stage (Sink × Listing)} (h : Roomy s.outside)
    {statements : List Statement}
    (hspells : ∀ statement ∈ statements, settings.Spells statement) :
    match s.session.play statements with
    | .ok (last, values) => ∃ t,
        Completed settings Sink.writer.left Printer.toListing.right statements s t ∧
        t.session = last ∧ t.outside.2.values = s.outside.2.values ++ values
    | .error e => ∃ t,
        Run.statements settings Sink.writer.left Printer.toListing.right statements s =
          .error e t := by
  induction statements generalizing s with
  | nil => exact ⟨s, .nil, rfl, (List.append_nil _).symm⟩
  | cons statement statements ih =>
      obtain ⟨hfirst, hothers⟩ := List.forall_mem_cons.mp hspells
      cases hresolve : s.session.resolve statement with
      | error e =>
          rw [Session.play_cons_of_error hresolve]
          exact ⟨s, (Halts.resolving hresolve).statements_eq .nil statements⟩
      | ok step =>
          obtain ⟨next, value⟩ := step
          obtain ⟨mid, hmid, rfl, hroomy, hvalues⟩ := h.completes hfirst hresolve
          have hrest := ih hroomy hothers
          rw [Session.play_cons_of_ok hresolve]
          cases hplay : mid.session.play statements with
          | ok found =>
              obtain ⟨last, values⟩ := found
              rw [hplay] at hrest
              obtain ⟨t, ht, rfl, hvalues'⟩ := hrest
              refine ⟨t, .cons hmid ht, rfl, ?_⟩
              rw [hvalues', hvalues, List.append_assoc]
          | error e =>
              rw [hplay] at hrest
              obtain ⟨t, ht⟩ := hrest
              refine ⟨t, ?_⟩
              rw [statements_cons, bind_of_ok hmid.statement_eq, ht]

end Run

/-- In memory, statements whose code can be made come to it and to the
values that they print when they are played. -/
theorem Session.transpile_fst {settings : Settings} {statements : List Statement}
    (hspells : ∀ statement ∈ statements, settings.Spells statement) (session : Session) :
    (session.transpile settings statements).1 =
      (session.play statements).map fun found =>
        ⟨statements.flatMap (Statement.code settings), found.2⟩ := by
  have hroomy : Run.Roomy (Sink.unlimited, Listing.empty none) := ⟨rfl, rfl, rfl⟩
  have hrun := Run.Roomy.run (s := ⟨session, (.unlimited, .empty none), []⟩) hroomy hspells
  rw [transpile, run, runInto]
  dsimp only at hrun
  cases hplay : session.play statements with
  | ok found =>
      rw [hplay] at hrun
      obtain ⟨t, ht, -, hvalues⟩ := hrun
      have hbytes := ht.seen_eq (shows_sink Printer.toListing)
      have htext : t.outside.1.text = statements.flatMap (Statement.code settings) := by
        rw [Sink.text, hbytes, Sink.unlimited, Sink.bytes_empty, List.nil_append,
          Text.Utf8.decodeLossy_encode]
      rw [ht.statements_eq]
      dsimp only
      rw [htext, hvalues, Listing.values_empty, List.nil_append]
      rfl
  | error e =>
      rw [hplay] at hrun
      obtain ⟨t, ht⟩ := hrun
      rw [ht]
      rfl

/-- A script that can be read is played. -/
theorem transpile_of_parse {source : Text} {program : Program}
    (h : Program.parse source = .ok program) :
    transpile source =
      (Session.fresh.play program.statements).map fun found =>
        ⟨program.statements.flatMap (Statement.code .standard), found.2⟩ := by
  rw [transpile, h]
  exact Session.transpile_fst (fun statement _ => Settings.spells_standard statement) .fresh

/-- A script that is transpiled is read and can be played. -/
theorem play_of_transpile {source : Text} {program : Program} {x : Transpiled}
    (h : Program.parse source = .ok program) (hx : transpile source = .ok x) :
    x.code = program.statements.flatMap (Statement.code .standard) ∧
      ∃ last, Session.fresh.play program.statements = .ok (last, x.printed) := by
  rw [transpile_of_parse h] at hx
  cases hplay : Session.fresh.play program.statements with
  | error e =>
      rw [hplay] at hx
      cases hx
  | ok found =>
      rw [hplay] at hx
      cases hx
      exact ⟨rfl, found.1, rfl⟩

end StoredProc
