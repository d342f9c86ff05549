import StoredProc.Proofs.Transpile.Play

/-!
What a script comes to, read off its text from the outside. A name has
the value that was assigned to it last, by whichever form of assignment;
nothing else gives it one. So every value that a script prints, and the
first print for which there is none, are found by looking back over the
statements in front of it, without a session.

The proofs go through the play of the statements. Playing a list is
playing its parts, and after each part the session holds what looking
back over that part finds.
-/

namespace StoredProc

open Statement

namespace Statement

/-- The text that a statement assigns to a name. Declarations and
parameters assign nothing, and names differ by letter case. -/
def assigned? (name : Text) : Statement → Option Text
  | assignment _ var literal => if var.name = name then some literal else none
  | _ => none

def lastAssigned? (statements : List Statement) (name : Text) : Option Text :=
  statements.reverse.findSome? (assigned? name)

def isPrint : Statement → Bool
  | print _ _ => true
  | _ => false

/-- Behind `front` stands a print of a name to which nothing in front of
it assigns. -/
structure Dangles (statements front : List Statement) (line : Nat) (var : Variable) : Prop where
  place : ∃ back, statements = front ++ print line var :: back
  unassigned : ∀ statement ∈ front, statement.assigned? var.name = none

def DanglesFirst (statements front : List Statement) (line : Nat) (var : Variable) : Prop :=
  Dangles statements front line var ∧
    ∀ front' line' var', Dangles statements front' line' var' → front.length ≤ front'.length

/-- The values are those of the prints, in order: each is what was
assigned last in front of its print. -/
structure Printout (statements : List Statement) (values : List Text) : Prop where
  length_eq : values.length = statements.countP isPrint
  value_eq : ∀ front line var back, statements = front ++ print line var :: back →
    values[front.countP isPrint]? = lastAssigned? front var.name

theorem lastAssigned?_cons (statement : Statement) (statements : List Statement) (name : Text) :
    lastAssigned? (statement :: statements) name =
      (lastAssigned? statements name).or (statement.assigned? name) := by
  simp [lastAssigned?, List.findSome?_append]

theorem lastAssigned?_eq_none_iff {statements : List Statement} {name : Text} :
    lastAssigned? statements name = none ↔
      ∀ statement ∈ statements, statement.assigned? name = none := by
  simp [lastAssigned?]

end Statement

/-! ### What a play leaves behind -/

namespace Session

variable {session next last : Session} {statement : Statement} {statements : List Statement}
  {value : Option Text} {values : List Text}

/-- Resolving a statement assigns what the statement assigns. -/
theorem get?_of_resolve (h : session.resolve statement = .ok (next, value)) (name : Text) :
    next.env.get? name = (statement.assigned? name).or (session.env.get? name) := by
  cases statement with
  | assignment line var literal =>
      cases h
      rw [Environment.get?_assign, assigned?]
      by_cases hname : var.name = name
      · simp [hname]
      · simp [hname, Ne.symm hname]
  | print line var =>
      rw [resolve] at h
      split at h
      · cases h
        rfl
      · cases h
  | procedure | blockStart | declaration | execute | blockEnd | blank =>
      cases h
      rfl

/-- After a play a name has the value that was assigned to it last. -/
theorem get?_of_play (h : session.play statements = .ok (last, values)) (name : Text) :
    last.env.get? name = (lastAssigned? statements name).or (session.env.get? name) := by
  induction statements generalizing session values with
  | nil =>
      cases h
      rfl
  | cons statement statements ih =>
      obtain ⟨next, value, rest, hresolve, hplay, -⟩ := play_cons_eq_ok h
      rw [ih hplay, get?_of_resolve hresolve, lastAssigned?_cons, Option.or_assoc]

/-- A print, and no other statement, has a value. -/
theorem length_toList_of_resolve (h : session.resolve statement = .ok (next, value)) :
    value.toList.length = [statement].countP isPrint := by
  cases statement with
  | print line var =>
      rw [resolve] at h
      split at h
      · cases h
        rfl
      · cases h
  | assignment | procedure | blockStart | declaration | execute | blockEnd | blank =>
      cases h
      rfl

theorem length_of_play (h : session.play statements = .ok (last, values)) :
    values.length = statements.countP isPrint := by
  induction statements generalizing session values with
  | nil =>
      cases h
      rfl
  | cons statement statements ih =>
      obtain ⟨next, value, rest, hresolve, hplay, hvalues⟩ := play_cons_eq_ok h
      obtain rfl : values = value.toList ++ rest := hvalues
      rw [List.length_append, length_toList_of_resolve hresolve, ih hplay, ← List.countP_append,
        List.singleton_append]

/-- A play of two parts plays the first, and then the second from where
the first has ended. -/
theorem play_append_eq_ok {p q : List Statement} (h : session.play (p ++ q) = .ok (last, values)) :
    ∃ mid front back, session.play p = .ok (mid, front) ∧ mid.play q = .ok (last, back) ∧
      values = front ++ back := by
  induction p generalizing session values with
  | nil => exact ⟨session, [], values, rfl, h, rfl⟩
  | cons statement p ih =>
      obtain ⟨next, value, rest, hresolve, hplay, hvalues⟩ := play_cons_eq_ok h
      obtain ⟨mid, front, back, hp, hq, rfl⟩ := ih hplay
      refine ⟨mid, value.toList ++ front, back, ?_, hq, ?_⟩
      · rw [play_cons_of_ok hresolve, hp]
        rfl
      · rw [List.append_assoc]
        exact hvalues

/-- Only a print can fail, of a name that has no value. -/
theorem resolve_eq_error_iff {e : Diagnostic} :
    session.resolve statement = .error e ↔
      ∃ line var, statement = .print line var ∧ session.env.get? var.name = none ∧
        e = .unknownVariable line var.name := by
  constructor
  · intro h
    cases statement with
    | print line var =>
        rw [resolve] at h
        split at h
        · cases h
        · next hget =>
            cases h
            exact ⟨line, var, rfl, hget, rfl⟩
    | assignment | procedure | blockStart | declaration | execute | blockEnd | blank => cases h
  · rintro ⟨line, var, rfl, hget, rfl⟩
    rw [resolve, hget]

/-- A play that fails has played what stands in front of one print, whose
name has no value there. -/
theorem play_eq_error {e : Diagnostic} (h : session.play statements = .error e) :
    ∃ front line var back mid values, statements = front ++ .print line var :: back ∧
      session.play front = .ok (mid, values) ∧ mid.env.get? var.name = none ∧
      e = .unknownVariable line var.name := by
  induction statements generalizing session with
  | nil => cases h
  | cons statement statements ih =>
      cases hresolve : session.resolve statement with
      | error e' =>
          rw [play_cons_of_error hresolve] at h
          cases h
          obtain ⟨line, var, rfl, hget, rfl⟩ := resolve_eq_error_iff.mp hresolve
          exact ⟨[], line, var, statements, session, [], rfl, rfl, hget, rfl⟩
      | ok step =>
          obtain ⟨next, value⟩ := step
          rw [play_cons_of_ok hresolve] at h
          cases hplay : next.play statements with
          | ok found =>
              rw [hplay] at h
              cases h
          | error e' =>
              rw [hplay] at h
              cases h
              obtain ⟨front, line, var, back, mid, values, rfl, hfront, hget, rfl⟩ := ih hplay
              refine ⟨statement :: front, line, var, back, mid, value.toList ++ values, rfl, ?_,
                hget, rfl⟩
              rw [play_cons_of_ok hresolve, hfront]
              rfl

/-! ### From the beginning -/

/-- A print behind a part that was played has what was assigned last. -/
theorem play_print_of_fresh {front back : List Statement} {line : Nat} {var : Variable}
    (h : fresh.play (front ++ .print line var :: back) = .ok (last, values)) :
    values[front.countP isPrint]? = lastAssigned? front var.name ∧
      lastAssigned? front var.name ≠ none := by
  obtain ⟨mid, before, after, hfront, hback, rfl⟩ := play_append_eq_ok h
  obtain ⟨next, value, rest, hresolve, -, hafter⟩ := play_cons_eq_ok hback
  obtain rfl : after = value.toList ++ rest := hafter
  have hget : mid.env.get? var.name = lastAssigned? front var.name := by
    rw [get?_of_play hfront, fresh, Environment.get?_nil, Option.or_none]
  rw [resolve] at hresolve
  split at hresolve
  · next found hfound =>
      cases hresolve
      rw [← hget, hfound, ← length_of_play hfront]
      simp
  · cases hresolve

/-- A print that no value was found for dangles. -/
theorem dangles_of_play {front back : List Statement} {line : Nat} {var : Variable}
    (hplace : statements = front ++ .print line var :: back)
    (hfront : fresh.play front = .ok (last, values)) (hget : last.env.get? var.name = none) :
    Dangles statements front line var := by
  refine ⟨⟨back, hplace⟩, lastAssigned?_eq_none_iff.mp ?_⟩
  rwa [get?_of_play hfront, fresh, Environment.get?_nil, Option.or_none] at hget

/-- No print dangles in a part that was played. -/
theorem length_le_of_play {front front' back : List Statement} {line : Nat} {var : Variable}
    (hfront : fresh.play front = .ok (last, values)) (hplace : statements = front ++ back)
    (h : Dangles statements front' line var) : front.length ≤ front'.length := by
  obtain ⟨back', hplace'⟩ := h.place
  apply Nat.le_of_not_lt
  intro hlt
  have hlong : front' ++ [.print line var] <+: statements := ⟨back', by simp [hplace']⟩
  have hshort : front <+: statements := ⟨back, hplace.symm⟩
  obtain ⟨more, rfl⟩ : front' ++ [.print line var] <+: front := by
    apply List.prefix_of_prefix_length_le hlong hshort
    rw [List.length_append]
    exact hlt
  rw [List.append_assoc, List.singleton_append] at hfront
  exact (play_print_of_fresh hfront).2 (lastAssigned?_eq_none_iff.mpr h.unassigned)

/-- From the beginning a play fails if some print dangles. -/
theorem exists_play_error_iff :
    (∃ e, fresh.play statements = .error e) ↔
      ∃ front line var, Dangles statements front line var := by
  constructor
  · rintro ⟨e, h⟩
    obtain ⟨front, line, var, back, mid, values, hplace, hfront, hget, -⟩ := play_eq_error h
    exact ⟨front, line, var, dangles_of_play hplace hfront hget⟩
  · rintro ⟨front, line, var, ⟨back, rfl⟩, hunassigned⟩
    cases h : fresh.play (front ++ .print line var :: back) with
    | error e => exact ⟨e, rfl⟩
    | ok found =>
        have hassigned := (play_print_of_fresh h).2
        exact absurd (lastAssigned?_eq_none_iff.mpr hunassigned) hassigned

/-- The failure is that of the first print that dangles. -/
theorem play_eq_error_iff {e : Diagnostic} :
    fresh.play statements = .error e ↔
      ∃ front line var, DanglesFirst statements front line var ∧
        e = .unknownVariable line var.name := by
  have hfirst : ∀ {e}, fresh.play statements = .error e →
      ∃ front line var, DanglesFirst statements front line var ∧
        e = .unknownVariable line var.name := by
    intro e h
    obtain ⟨front, line, var, back, mid, values, hplace, hfront, hget, he⟩ := play_eq_error h
    refine ⟨front, line, var, ⟨dangles_of_play hplace hfront hget, ?_⟩, he⟩
    intro front' line' var' h'
    exact length_le_of_play hfront hplace h'
  refine ⟨hfirst, ?_⟩
  rintro ⟨front, line, var, ⟨hdangles, hleast⟩, rfl⟩
  obtain ⟨e, h⟩ := exists_play_error_iff.mpr ⟨front, line, var, hdangles⟩
  obtain ⟨front', line', var', ⟨hdangles', hleast'⟩, rfl⟩ := hfirst h
  -- Both are the first, so they are the same.
  have hlength : front.length = front'.length :=
    Nat.le_antisymm (hleast _ _ _ hdangles') (hleast' _ _ _ hdangles)
  obtain ⟨back, hplace⟩ := hdangles.place
  obtain ⟨back', hplace'⟩ := hdangles'.place
  obtain ⟨-, hprint⟩ := List.append_inj (hplace.symm.trans hplace') hlength
  cases hprint
  exact h

theorem printout_of_play (h : fresh.play statements = .ok (last, values)) :
    Printout statements values := by
  refine ⟨length_of_play h, ?_⟩
  rintro front line var back rfl
  exact (play_print_of_fresh h).1

/-- The bytes of the code are those of a text, so reading them back
replaces nothing. -/
theorem decode?_of_play (h : session.play statements = .ok (last, values)) :
    ∃ stage, session.run .standard statements = .ok () stage ∧
      Text.Utf8.decode? stage.outside.1.bytes =
        some (statements.flatMap (Statement.code .standard)) := by
  have hroomy : Run.Roomy (Sink.unlimited, Listing.empty none) := ⟨rfl, rfl, rfl⟩
  have hrun := Run.Roomy.run (s := ⟨session, (.unlimited, .empty none), []⟩) hroomy
    fun statement (_ : statement ∈ statements) => Settings.spells_standard statement
  dsimp only at hrun
  rw [h] at hrun
  obtain ⟨stage, hstage, -⟩ := hrun
  refine ⟨stage, hstage.statements_eq, ?_⟩
  rw [hstage.seen_eq (shows_sink Printer.toListing), Sink.unlimited, Sink.bytes_empty,
    List.nil_append, Text.Utf8.decode?_encode]

end Session

/-- A script that can be read fails at the first print of a name that no
statement in front of it assigns, and only there. Otherwise it prints for
each print what was assigned last, and comes to the code of its
statements in order, of which no byte is lost. A script that cannot be
read fails as reading it does. -/
theorem transpile_exact (source : Text) :
    match Program.parse source with
    | .error e => transpile source = .error e.diagnostic
    | .ok program =>
        ((∃ d, transpile source = .error d) ↔
          ∃ front line var, Dangles program.statements front line var) ∧
        (∀ d, transpile source = .error d ↔
          ∃ front line var, DanglesFirst program.statements front line var ∧
            d = .unknownVariable line var.name) ∧
        ∀ x, transpile source = .ok x →
          Printout program.statements x.printed ∧
          x.code = program.statements.flatMap (Statement.code .standard) ∧
          ∃ stage, Session.fresh.run .standard program.statements = .ok () stage ∧
            Text.Utf8.decode? stage.outside.1.bytes = some x.code := by
  cases hparse : Program.parse source with
  | error e =>
      dsimp only
      rw [transpile, hparse]
  | ok program =>
      have herror : ∀ d, transpile source = .error d ↔
          Session.fresh.play program.statements = .error d := by
        intro d
        rw [transpile_of_parse hparse]
        cases Session.fresh.play program.statements <;> simp [Except.map]
      refine ⟨?_, ?_, ?_⟩
      · simp only [herror]
        exact Session.exists_play_error_iff
      · intro d
        rw [herror]
        exact Session.play_eq_error_iff
      · intro x hx
        obtain ⟨hcode, last, hplay⟩ := play_of_transpile hparse hx
        obtain ⟨stage, hrun, hbytes⟩ := Session.decode?_of_play hplay
        exact ⟨Session.printout_of_play hplay, hcode, stage, hrun, hcode ▸ hbytes⟩

end StoredProc
