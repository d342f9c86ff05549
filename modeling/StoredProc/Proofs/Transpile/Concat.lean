import StoredProc.Proofs.Program.Reading
import StoredProc.Proofs.Transpile.Play

/-!
Scripts with a space between them. The space is enough to part them, and
nothing of the one is read as a part of the other: the whole is read as
the statements of the first and then those of the second, on the lines
they have behind the first. If both can be transpiled, the whole comes to
what the one comes to and then the other, since values that the first
leaves behind can only stand for names that the second has not assigned,
and such names it does not print.
-/

namespace StoredProc

open Text Statement Grammar

namespace Program

/-- The lines of the first script are counted the same with the second
behind it. -/
theorem lineAt_append_space (a b : Text) :
    (fun place => lineAt (1 + lineBreaks (a ++ ' ' :: b)) (place ++ ' ' :: b)) =
      lineAt (1 + lineBreaks a) := by
  have hcount : ∀ t : Text, lineBreaks (t ++ ' ' :: b) = lineBreaks t + lineBreaks b := by
    intro t
    rw [lineBreaks_append_of_stops (stops_cons.mpr rfl), lineBreaks_cons_of_not_isBreak rfl]
  funext place
  simp only [lineAt, hcount]
  omega

/-- In the second script each place is as many lines further down as the
first has breaks. -/
theorem lineAt_behind_space (a : Text) {b before place : Text} (hb : b = before ++ place)
    (hseam : Seam before place) :
    lineAt (1 + lineBreaks (a ++ ' ' :: b)) place =
      lineAt (1 + lineBreaks b) place + lineBreaks a := by
  rw [lineBreaks_append_of_stops (stops_cons.mpr rfl), lineBreaks_cons_of_not_isBreak rfl, hb,
    lineBreaks_append_of_seam hseam, lineAt, lineAt]
  omega

/-- Two scripts with a space between them are read as one. -/
theorem parse_append_space {a b : Text} {p q : Program} (ha : parse a = .ok p)
    (hb : parse b = .ok q) :
    ∃ r, parse (a ++ ' ' :: b) = .ok r ∧
      withoutBlanks r.statements = withoutBlanks p.statements ++
        (withoutBlanks q.statements).map (mapLine (· + lineBreaks a)) := by
  obtain ⟨-, hp⟩ := parse_eq_ok_iff.mp ha
  obtain ⟨-, hq⟩ := parse_eq_ok_iff.mp hb
  -- The second script, on the lines of the whole and without the layout it begins with.
  have hq' := hq.relabel (f := (· + lineBreaks a))
    (fun before place => lineAt_behind_space a) rfl (seam_nil b)
  obtain ⟨after, statements, hgap, hscript, hsame⟩ := hq'.dropBlanks
  rw [← lineAt_append_space a b] at hp
  obtain ⟨r, hr, hsame'⟩ := hp.append (hgap.cons rfl) hscript
  refine ⟨⟨1, r⟩, parse_eq_ok_iff.mpr ⟨rfl, hr⟩, ?_⟩
  rw [hsame', hsame, withoutBlanks_map_mapLine]

end Program

/-- Two scripts with a space between them are read as the statements of
the one and then of the other, and come to what the two come to. -/
theorem concat_law {a b : Text} {p q : Program} (ha : Program.parse a = .ok p)
    (hb : Program.parse b = .ok q) :
    (∃ r, Program.parse (a ++ ' ' :: b) = .ok r ∧
      withoutBlanks r.statements = withoutBlanks p.statements ++
        (withoutBlanks q.statements).map (mapLine (· + lineBreaks a))) ∧
    ∀ x y, transpile a = .ok x → transpile b = .ok y →
      transpile (a ++ ' ' :: b) = .ok ⟨x.code ++ y.code, x.printed ++ y.printed⟩ := by
  obtain ⟨r, hr, hsame⟩ := Program.parse_append_space ha hb
  refine ⟨⟨r, hr, hsame⟩, ?_⟩
  intro x y hx hy
  obtain ⟨hcodeA, mid, hplayA⟩ := play_of_transpile ha hx
  obtain ⟨hcodeB, last, hplayB⟩ := play_of_transpile hb hy
  have hcode : r.statements.flatMap (Statement.code .standard) = x.code ++ y.code := by
    rw [← flatMap_code_withoutBlanks, hsame, List.flatMap_append, flatMap_code_mapLine,
      flatMap_code_withoutBlanks, flatMap_code_withoutBlanks, hcodeA, hcodeB]
  -- The second play goes on where the first has ended, which knows more than a fresh session.
  rw [← Session.play_withoutBlanks] at hplayA hplayB
  obtain ⟨last', hplayB', -⟩ := (Session.extends_fresh mid).play (· + lineBreaks a) hplayB
  have hplay := Session.play_append hplayA hplayB'
  rw [← hsame, Session.play_withoutBlanks] at hplay
  rw [transpile_of_parse hr, hplay, hcode]
  rfl

theorem eq_ok_of_toOption {ε α : Type} {result : Except ε α} {a : α}
    (h : result.toOption = some a) : result = .ok a := by
  cases result with
  | ok b => exact congrArg Except.ok (Option.some.inj h)
  | error e => cases h

/-- The first script ends with layout that its last statement takes, and
the second begins with more of it, in which a line break of the first is
not completed. Both assign and print the same name. -/
theorem concat_law_print :
    let a : Text := "x:='1';PRINT($x)\r".toList
    let b : Text := "\n$x=\"2\" print($x)".toList
    let p : Program := ⟨1, [.assignment 1 ⟨1, ['x']⟩ ['1'], .print 1 ⟨1, ['x']⟩]⟩
    let q : Program := ⟨1, [.blank 1, .assignment 2 ⟨2, ['x']⟩ ['2'], .print 2 ⟨2, ['x']⟩]⟩
    let x : Transpiled := ⟨"        x = \"1\"\n".toList, [['1']]⟩
    let y : Transpiled := ⟨"        x = \"2\"\n".toList, [['2']]⟩
    Program.parse a = .ok p ∧ Program.parse b = .ok q ∧ transpile a = .ok x ∧
      transpile b = .ok y ∧
      (∃ r, Program.parse (a ++ ' ' :: b) = .ok r ∧
        withoutBlanks r.statements = [.assignment 1 ⟨1, ['x']⟩ ['1'], .print 1 ⟨1, ['x']⟩,
          .assignment 3 ⟨3, ['x']⟩ ['2'], .print 3 ⟨3, ['x']⟩]) ∧
      transpile (a ++ ' ' :: b) =
        .ok ⟨"        x = \"1\"\n        x = \"2\"\n".toList, [['1'], ['2']]⟩ := by
  intro a b p q x y
  have ha : Program.parse a = .ok p := eq_ok_of_toOption (by decide +kernel)
  have hb : Program.parse b = .ok q := eq_ok_of_toOption (by decide +kernel)
  have hx : transpile a = .ok x := eq_ok_of_toOption (by decide +kernel)
  have hy : transpile b = .ok y := eq_ok_of_toOption (by decide +kernel)
  obtain ⟨hread, htranspile⟩ := concat_law ha hb
  exact ⟨ha, hb, hx, hy, hread, htranspile x y hx hy⟩

end StoredProc
