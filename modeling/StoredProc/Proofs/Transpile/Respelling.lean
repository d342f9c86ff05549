import StoredProc.Proofs.Program.Respelling
import StoredProc.Proofs.Transpile.Concat

/-!
What a script comes to does not depend on its lines. Resolving looks at
names and literals only, and so does the code, so statements that are the
same but for the lines print the same values, fail for the same name and
come to the same code. Together with reading, another spelling of a
script comes to what the script comes to.
-/

namespace StoredProc

open Statement

/-! ### Statements on other lines -/

namespace Session

variable {session session' : Session} {statement statement' : Statement}

/-- A statement on another line is resolved alike. -/
theorem resolve_of_bare (hbare : statement'.bare = statement.bare)
    (henv : session'.env = session.env) :
    (∃ next next' value, session.resolve statement = .ok (next, value) ∧
      session'.resolve statement' = .ok (next', value) ∧ next'.env = next.env) ∨
    ∃ line line' name, session.resolve statement = .error (.unknownVariable line name) ∧
      session'.resolve statement' = .error (.unknownVariable line' name) := by
  cases statement <;> cases statement' <;>
    simp only [Statement.bare, Variable.bare, reduceCtorEq, Statement.assignment.injEq,
      Statement.print.injEq, Variable.mk.injEq, true_and] at hbare
  case assignment.assignment line var literal line' var' literal' =>
    obtain ⟨hname, rfl⟩ := hbare
    refine .inl ⟨_, _, none, rfl, rfl, ?_⟩
    change session'.env.assign _ _ = session.env.assign _ _
    rw [henv, hname]
  case print.print line var line' var' =>
    simp only [resolve, henv, hbare]
    cases session.env.get? var.name with
    | none => exact .inr ⟨line, line', var.name, rfl, rfl⟩
    | some value => exact .inl ⟨session, session', some value, rfl, rfl, henv⟩
  -- The others leave the values as they are.
  all_goals exact .inl ⟨_, _, none, rfl, rfl, henv⟩

/-- Statements on other lines are played alike. -/
theorem play_of_bare {p p' : List Statement} (hbare : p'.map Statement.bare = p.map Statement.bare)
    (henv : session'.env = session.env) :
    (∃ last last' values, session.play p = .ok (last, values) ∧
      session'.play p' = .ok (last', values)) ∨
    ∃ line line' name, session.play p = .error (.unknownVariable line name) ∧
      session'.play p' = .error (.unknownVariable line' name) := by
  induction p generalizing p' session session' with
  | nil =>
      rw [List.map_nil, List.map_eq_nil_iff] at hbare
      subst hbare
      exact .inl ⟨session, session', [], rfl, rfl⟩
  | cons statement p ih =>
      obtain ⟨statement', p', rfl, hfirst, hrest⟩ := List.map_eq_cons_iff.mp hbare
      obtain ⟨next, next', value, hok, hok', hnext⟩ | ⟨line, line', name, herror, herror'⟩ :=
        resolve_of_bare hfirst henv
      · rw [play_cons_of_ok hok, play_cons_of_ok hok']
        obtain ⟨last, last', values, hplay, hplay'⟩ | ⟨line, line', name, hplay, hplay'⟩ :=
          ih hrest hnext
        · rw [hplay, hplay']
          exact .inl ⟨last, last', value.toList ++ values, rfl, rfl⟩
        · rw [hplay, hplay']
          exact .inr ⟨line, line', name, rfl, rfl⟩
      · rw [play_cons_of_error herror, play_cons_of_error herror']
        exact .inr ⟨line, line', name, rfl, rfl⟩

end Session

theorem Statement.code_bare (settings : Settings) (statement : Statement) :
    statement.bare.code settings = statement.code settings := by
  have hbare : statement.bare = statement.mapLine fun _ => 0 := by
    cases statement <;> rfl
  rw [hbare, code_mapLine]

theorem Statement.flatMap_code_of_bare {p p' : List Statement} (settings : Settings)
    (hbare : p'.map Statement.bare = p.map Statement.bare) :
    p'.flatMap (code settings) = p.flatMap (code settings) := by
  have hcode : ∀ statements : List Statement,
      statements.flatMap (code settings) = (statements.map bare).flatMap (code settings) := by
    intro statements
    rw [List.flatMap_map]
    congr 1
    funext statement
    exact (code_bare settings statement).symm
  rw [hcode p', hbare, ← hcode]

/-! ### Other spellings -/

/-- A script that was read is made up of its pieces, and with other
layout and its keywords in other letter case it is read as the same
statements on other lines. It comes to the same code and values, or fails
for the same name. -/
theorem respelling_law {source : Text} {program : Program} {pieces' : List Piece}
    (hparse : Program.parse source = .ok program)
    (h : Piece.Respelt (Program.pieces source) pieces') :
    Piece.join (Program.pieces source) = source ∧
    (∃ program', Program.parse (Piece.join pieces') = .ok program' ∧
      program'.statements.map Statement.bare = program.statements.map Statement.bare) ∧
    ((∃ x, transpile source = .ok x ∧ transpile (Piece.join pieces') = .ok x) ∨
      ∃ line line' name, transpile source = .error (.unknownVariable line name) ∧
        transpile (Piece.join pieces') = .error (.unknownVariable line' name)) := by
  obtain ⟨program', hparse', hbare⟩ := Program.parse_respelt hparse h
  refine ⟨Program.join_pieces hparse, ⟨program', hparse', hbare⟩, ?_⟩
  rw [transpile_of_parse hparse, transpile_of_parse hparse', flatMap_code_of_bare .standard hbare]
  have henv : Session.fresh.env = Session.fresh.env := rfl
  obtain ⟨last, last', values, hplay, hplay'⟩ | ⟨line, line', name, hplay, hplay'⟩ :=
    Session.play_of_bare hbare henv
  · rw [hplay, hplay']
    exact .inl ⟨_, rfl, rfl⟩
  · rw [hplay, hplay']
    exact .inr ⟨line, line', name, rfl, rfl⟩

/-- The raw text behind `END` and inside the literal stays as it is, with
its blanks and the keyword in it. -/
theorem respelling_law_print :
    let source : Text := "x:='in a' ;END Or;print($x)".toList
    let program : Program :=
      ⟨1, [.assignment 1 ⟨1, ['x']⟩ "in a".toList, .blockEnd 1, .print 1 ⟨1, ['x']⟩]⟩
    let before : List Piece :=
      [.token .name ['x'], .token .colon [':'], .token .equal ['='],
        .token .apostrophe ['\x27'], .raw "in a".toList, .token .apostrophe ['\x27']]
    let between : List Piece := [.raw " Or".toList, .token .semicolon [';']]
    let after : List Piece :=
      [.token .leftParen ['('], .token .dollar ['$'], .token .name ['x'], .token .rightParen [')']]
    let pieces' : List Piece :=
      before ++ [.token .blank "\r\n\t".toList, .token .semicolon [';'],
        .token (.keyword .endBlock) "eNd".toList] ++ between ++
        [.token (.keyword .print) "PRINT".toList] ++ after
    let x : Transpiled :=
      ⟨"        x = \"in a\"\n    except Exception as error:\n        logging.error(error)\n".toList,
        ["in a".toList]⟩
    Program.parse source = .ok program ∧
      Program.pieces source =
        before ++ [.token .blank [' '], .token .semicolon [';'],
          .token (.keyword .endBlock) "END".toList] ++ between ++
          [.token (.keyword .print) "print".toList] ++ after ∧
      Piece.join pieces' = "x:='in a'\r\n\t;eNd Or;PRINT($x)".toList ∧
      (∃ program', Program.parse (Piece.join pieces') = .ok program' ∧
        program'.statements.map Statement.bare = program.statements.map Statement.bare) ∧
      transpile source = .ok x ∧ transpile (Piece.join pieces') = .ok x := by
  intro source program before between after pieces' x
  have hparse : Program.parse source = .ok program := eq_ok_of_toOption (by decide +kernel)
  have hx : transpile source = .ok x := eq_ok_of_toOption (by decide +kernel)
  have hpieces : Program.pieces source =
      before ++ [.token .blank [' '], .token .semicolon [';'],
        .token (.keyword .endBlock) "END".toList] ++ between ++
        [.token (.keyword .print) "print".toList] ++ after := by decide +kernel
  have hrespelt : Piece.Respelt (Program.pieces source) pieces' := by
    rw [hpieces]
    exact .cons (.same _) <| .cons (.same _) <| .cons (.same _) <| .cons (.same _) <|
      .cons (.same _) <| .cons (.same _) <| .cons (.layout (by decide) (by decide)) <|
      .cons (.same _) <| .cons (.keyword (by decide)) <| .cons (.same _) <| .cons (.same _) <|
      .cons (.keyword (by decide)) <| .cons (.same _) <| .cons (.same _) <| .cons (.same _) <|
      .cons (.same _) .nil
  obtain ⟨-, hread, ⟨y, hy, hy'⟩ | ⟨line, line', name, herror, -⟩⟩ := respelling_law hparse hrespelt
  · rw [hx] at hy
    cases hy
    exact ⟨hparse, hpieces, by decide +kernel, hread, hx, hy'⟩
  · rw [hx] at herror
    cases herror

end StoredProc
