import StoredProc.Proofs.Grammar.Printer
import StoredProc.Proofs.Program.Reading

/-!
Which statements a script can have. Each has to be one that can be
written, and its neighbours have to be able to stand beside it. Two rules
decide the latter. A run of blanks is taken as a whole, so layout follows
neither layout nor a statement that takes the layout behind it; and two
words are parted by something that is no word, so after a statement that
ends with a word there is layout or a sigil.

The rules look back by up to two statements: an assignment behind a word
has a sigil and takes the layout behind it, while one behind anything
else can be written with a semicolon. A printer that remembers the shape
of the statement before makes the same choice, so what it prints is read
back as what was printed.
-/

namespace StoredProc

open Text Grammar

/-! ### Neighbours -/

structure Placed (shapes : List Shape) : Prop where
  blank_blank : ¬ [.blank, .blank] <:+: shapes
  print_blank : ¬ [.print, .blank] <:+: shapes
  opening : ∀ shape, [.opening, shape] <:+: shapes → shape = .blank ∨ shape = .assignment
  opening_assignment_blank : ¬ [.opening, .assignment, .blank] <:+: shapes

/-- Statements that a script can have. -/
structure WellFormed (statements : List Statement) : Prop where
  speakable : ∀ statement ∈ statements, statement.Speakable
  placed : Placed (statements.map Statement.shape)

section

variable {shape : Shape} {shapes shapes' : List Shape}

theorem placed_nil : Placed [] := by
  refine ⟨?_, ?_, ?_, ?_⟩ <;> simp

theorem Placed.of_isInfix (h : Placed shapes) (hpart : shapes' <:+: shapes) : Placed shapes' where
  blank_blank := fun hpair => h.blank_blank (hpair.trans hpart)
  print_blank := fun hpair => h.print_blank (hpair.trans hpart)
  opening := fun next hpair => h.opening next (hpair.trans hpart)
  opening_assignment_blank := fun hthree => h.opening_assignment_blank (hthree.trans hpart)

theorem pair_infix_cons_iff {a b : Shape} :
    [a, b] <:+: shape :: shapes ↔
      (shape = a ∧ shapes.head? = some b) ∨ [a, b] <:+: shapes := by
  rw [List.infix_cons_iff, List.cons_prefix_cons, eq_comm (a := a)]
  cases shapes with
  | nil => simp
  | cons next shapes => simp [eq_comm (a := b)]

/-- A shape in front of others only has to suit those that are next to
it. -/
theorem Placed.cons (h : Placed shapes)
    (hblank : shape = .blank ∨ shape = .print → shapes.head? ≠ some .blank)
    (hopening : shape = .opening → ∀ next ∈ shapes.head?, next = .blank ∨ next = .assignment)
    (hassignment : shape = .opening → ¬ [.assignment, .blank] <+: shapes) :
    Placed (shape :: shapes) where
  blank_blank := by
    rw [pair_infix_cons_iff]
    rintro (⟨hshape, hnext⟩ | hpair)
    · exact hblank (.inl hshape) hnext
    · exact h.blank_blank hpair
  print_blank := by
    rw [pair_infix_cons_iff]
    rintro (⟨hshape, hnext⟩ | hpair)
    · exact hblank (.inr hshape) hnext
    · exact h.print_blank hpair
  opening := by
    intro next
    rw [pair_infix_cons_iff]
    rintro (⟨hshape, hnext⟩ | hpair)
    · exact hopening hshape next hnext
    · exact h.opening next hpair
  opening_assignment_blank := by
    rw [List.infix_cons_iff, List.cons_prefix_cons]
    rintro (⟨hshape, hpair⟩ | hthree)
    · exact hassignment hshape.symm hpair
    · exact h.opening_assignment_blank hthree

end

/-- Lines do not matter. -/
theorem WellFormed.of_map_bare {p q : List Statement} (h : WellFormed p)
    (hbare : p.map Statement.bare = q.map Statement.bare) : WellFormed q := by
  constructor
  · intro statement hmem
    have hmem' : statement.bare ∈ p.map Statement.bare := by
      rw [hbare]
      exact List.mem_map_of_mem hmem
    obtain ⟨statement', hmem', hsame⟩ := List.mem_map.mp hmem'
    have hspeakable := Statement.speakable_bare.mpr (h.speakable statement' hmem')
    rw [hsame] at hspeakable
    exact Statement.speakable_bare.mp hspeakable
  · have hshapes : ∀ l : List Statement,
        l.map Statement.shape = (l.map Statement.bare).map Statement.shape := by
      intro l
      simp
    rw [hshapes q, ← hbare, ← hshapes p]
    exact h.placed

/-! ### Scripts have such statements -/

namespace Grammar

variable {line : Text → Nat} {text rest : Text} {statement : Statement}
  {statements : List Statement}

theorem NameAt.isName {name : Text} (h : NameAt name text rest) : IsName name :=
  ⟨h.1.isWord, h.2⟩

theorem ParamAt.isName {param : Param} (h : ParamAt line text param rest) :
    IsName param.var.name := by
  cases h with
  | spell hname => exact hname.isName

theorem ParamsAt.isName {params : List Param} (h : ParamsAt line text params rest) :
    params ≠ [] ∧ ∀ param ∈ params, IsName param.var.name := by
  induction h with
  | last hparam => exact ⟨List.cons_ne_nil _ _, List.forall_mem_singleton.mpr hparam.isName⟩
  | more hparam h₁ h₂ hparams ih =>
      exact ⟨List.cons_ne_nil _ _, List.forall_mem_cons.mpr ⟨hparam.isName, ih.2⟩⟩

theorem StringAt.lacks_quote {literal : Text} (h : StringAt literal text rest) :
    '"' ∉ literal ∨ '\x27' ∉ literal := by
  cases h with
  | double h => exact .inl h
  | single h => exact .inr h

theorem StatementAt.speakable (h : StatementAt line text statement rest) :
    statement.Speakable := by
  cases h with
  | sigilAssignment h | colonAssignment h =>
      cases h with
      | spell hname h₁ h₂ hliteral =>
          exact ⟨List.forall_mem_singleton.mpr hname.isName, hliteral.lacks_quote⟩
  | declaration h =>
      cases h with
      | spell hname => exact ⟨List.forall_mem_singleton.mpr hname.isName, trivial⟩
  | procedure h =>
      cases h with
      | spell hcreate h₁ hor h₂ hreplace h₃ hprocedure h₄ hname h₅ h₆ hparams =>
          obtain ⟨hne, hnames⟩ := hparams.isName
          refine ⟨List.forall_mem_cons.mpr ⟨hname.isName, ?_⟩, hne⟩
          exact List.forall_mem_map.mpr hnames
  | execute h =>
      cases h with
      | spell hexecute h₁ himmediate h₂ hname =>
          exact ⟨List.forall_mem_singleton.mpr hname.isName, trivial⟩
  | print h =>
      cases h with
      | spell hprint h₁ h₂ hname =>
          exact ⟨List.forall_mem_singleton.mpr hname.isName, trivial⟩
  | blockStart h | blockEnd h | blank h =>
      cases h
      exact ⟨fun name hname => absurd hname List.not_mem_nil, trivial⟩

theorem WordAt.not_stops {word : Text} (h : WordAt word text rest) : ¬ Stops isWordPart text := by
  obtain ⟨c, tail, rfl, hc⟩ := h.isWord.exists_cons
  rw [h.text_eq, List.cons_append, stops_cons, isWordPart_of_isWordStart hc]
  exact Bool.noConfusion

theorem KeywordAt.not_stops {k : Keyword} (h : KeywordAt k text rest) :
    ¬ Stops isWordPart text := by
  obtain ⟨word, hword, -⟩ := h
  exact hword.not_stops

theorem BlanksAt.not_stops (h : BlanksAt text rest) : ¬ Stops isBlank text := by
  obtain ⟨run, rfl, hne, hlayout, -⟩ := h
  obtain ⟨c, run, rfl⟩ := List.exists_cons_of_ne_nil hne
  rw [List.cons_append, stops_cons, hlayout c List.mem_cons_self]
  exact Bool.noConfusion

/-- A statement is in one of its forms, and ends as that form does.
Behind a word it is layout or an assignment with a sigil. -/
theorem StatementAt.admits (h : StatementAt line text statement rest) :
    ∃ sigil, statement.shape.Admits sigil rest ∧
      (Stops isWordPart text →
        statement.shape = .blank ∨ statement.shape = .assignment ∧ sigil = true) := by
  cases h with
  | sigilAssignment h =>
      cases h with
      | spell hname h₁ h₂ hliteral h₃ =>
          exact ⟨true, fun _ => h₃.stops, fun _ => .inr ⟨rfl, rfl⟩⟩
  | colonAssignment h =>
      cases h with
      | spell hname =>
          exact ⟨false, fun hsigil => Bool.noConfusion hsigil,
            fun htext => absurd htext hname.1.not_stops⟩
  | declaration h =>
      cases h with
      | spell hname => exact ⟨false, trivial, fun htext => absurd htext hname.1.not_stops⟩
  | procedure h =>
      cases h with
      | spell hcreate h₁ hor h₂ hreplace h₃ hprocedure h₄ hname h₅ h₆ hparams h₇ h₈ his =>
          obtain ⟨word, hword, -⟩ := his
          exact ⟨false, hword.stops, fun htext => absurd htext hcreate.not_stops⟩
  | blockStart h =>
      cases h with
      | spell hbegin =>
          have hnot := hbegin.not_stops
          obtain ⟨word, hword, -⟩ := hbegin
          exact ⟨false, hword.stops, fun htext => absurd htext hnot⟩
  | execute h =>
      cases h with
      | spell hexecute => exact ⟨false, trivial, fun htext => absurd htext hexecute.not_stops⟩
  | blockEnd h =>
      cases h with
      | spell hend => exact ⟨false, trivial, fun htext => absurd htext hend.not_stops⟩
  | blank h =>
      cases h with
      | spell h =>
          obtain ⟨run, -, -, -, hrest⟩ := h
          exact ⟨false, hrest, fun _ => .inl rfl⟩
  | print h =>
      cases h with
      | spell hprint h₁ h₂ hname h₃ h₄ =>
          exact ⟨false, h₄.stops, fun htext => absurd htext hprint.not_stops⟩

/-- A script begins with a blank if its first statement is layout. -/
theorem Script.stops_isBlank_iff (h : Script line text statements) :
    Stops isBlank text ↔ (statements.map Statement.shape).head? ≠ some .blank := by
  cases h with
  | nil => simp
  | cons h hrest =>
      rw [List.map_cons, List.head?_cons, Ne, Option.some.injEq, Statement.shape_eq_blank_iff]
      rcases h.blank_or_stops with ⟨hblank, htext⟩ | ⟨hblank, htext⟩
      · simp [hblank, htext.not_stops]
      · simp [hblank, htext]

/-- A script that can stand behind a word begins with layout or with an
assignment that takes the layout behind it. -/
theorem Script.behind_word (h : Script line text statements) (htext : Stops isWordPart text) :
    (∀ next ∈ (statements.map Statement.shape).head?, next = .blank ∨ next = .assignment) ∧
      ¬ [.assignment, .blank] <+: statements.map Statement.shape := by
  cases h with
  | nil => simp
  | cons h hrest =>
      obtain ⟨sigil, hadmits, hbehind⟩ := h.admits
      rw [List.map_cons, List.cons_prefix_cons]
      rcases hbehind htext with hblank | ⟨hassignment, rfl⟩
      · rw [hblank]
        simp
      · rw [hassignment] at hadmits ⊢
        have hhead := hrest.stops_isBlank_iff.mp (hadmits rfl)
        refine ⟨by simp, ?_⟩
        rintro ⟨-, more, hmore⟩
        exact hhead (by rw [← hmore]; rfl)

theorem Script.placed (h : Script line text statements) :
    Placed (statements.map Statement.shape) := by
  induction h with
  | nil => exact placed_nil
  | @cons _ _ statement _ h hrest ih =>
      obtain ⟨sigil, hadmits, -⟩ := h.admits
      rw [List.map_cons]
      refine ih.cons ?_ ?_ ?_
      · rintro (hshape | hshape) <;>
        · rw [hshape] at hadmits
          exact hrest.stops_isBlank_iff.mp hadmits
      · intro hshape
        rw [hshape] at hadmits
        exact (hrest.behind_word hadmits).1
      · intro hshape
        rw [hshape] at hadmits
        exact (hrest.behind_word hadmits).2

theorem Script.wellFormed (h : Script line text statements) : WellFormed statements := by
  refine ⟨?_, h.placed⟩
  induction h with
  | nil => exact fun _ hmem => absurd hmem List.not_mem_nil
  | cons h hrest ih => exact List.forall_mem_cons.mpr ⟨h.speakable, ih⟩

/-! ### Such statements are printed and read back -/

/-- What is printed behind a word does not go on with it. -/
theorem stops_isWordPart_renderAfter
    (h : ∀ next ∈ (statements.map Statement.shape).head?, next = .blank ∨ next = .assignment) :
    Stops isWordPart (renderAfter (some .opening) statements) := by
  cases statements with
  | nil => exact stops_nil
  | cons statement statements =>
      have hshape := h statement.shape rfl
      rw [renderAfter]
      cases statement with
      | blank line => exact stops_cons.mpr rfl
      | assignment line var literal => exact stops_cons.mpr rfl
      | _ => simp [Statement.shape] at hshape

/-- Statements behind a statement of some shape, or behind none, are read
back from where they are printed. -/
theorem script_renderAfter (previous : Option Shape)
    (hspeakable : ∀ statement ∈ statements, statement.Speakable)
    (hplaced : Placed (previous.toList ++ statements.map Statement.shape)) :
    Script (fun _ => 0) (renderAfter previous statements) (statements.map Statement.bare) := by
  induction statements generalizing previous with
  | nil => exact .nil
  | cons statement statements ih =>
      obtain ⟨hstatement, hstatements⟩ := List.forall_mem_cons.mp hspeakable
      have hhere : Placed (statement.shape :: statements.map Statement.shape) :=
        hplaced.of_isInfix (List.suffix_append _ _).isInfix
      have hrest := ih (some statement.shape) hstatements hhere
      have hshapes : (statements.map Statement.bare).map Statement.shape =
          statements.map Statement.shape := by
        simp
      have hstops := hrest.stops_isBlank_iff
      rw [hshapes] at hstops
      refine .cons (statementAt_render hstatement ?_) hrest
      cases hshape : statement.shape with
      | assignment =>
          intro hsigil
          obtain rfl : previous = some .opening := of_decide_eq_true hsigil
          rw [← hshape, hstops]
          intro hnext
          obtain ⟨more, hmore⟩ := List.head?_eq_some_iff.mp hnext
          refine hplaced.opening_assignment_blank ⟨[], more, ?_⟩
          rw [List.map_cons, hshape, hmore]
          rfl
      | print =>
          rw [hshape] at hhere hstops
          refine hstops.mpr fun hnext => hhere.print_blank ?_
          exact pair_infix_cons_iff.mpr (.inl ⟨rfl, hnext⟩)
      | opening =>
          rw [hshape] at hhere
          refine stops_isWordPart_renderAfter fun next hnext => hhere.opening next ?_
          exact pair_infix_cons_iff.mpr (.inl ⟨rfl, hnext⟩)
      | blank =>
          rw [hshape] at hhere hstops
          refine hstops.mpr fun hnext => hhere.blank_blank ?_
          exact pair_infix_cons_iff.mpr (.inl ⟨rfl, hnext⟩)
      | other => trivial

end Grammar

namespace Program

theorem wellFormed_of_parse {source : Text} {program : Program} (h : parse source = .ok program) :
    WellFormed program.statements :=
  (parse_eq_ok_iff.mp h).2.wellFormed

theorem parse_render {p : List Statement} (h : WellFormed p) :
    ∃ program, parse (render p) = .ok program ∧
      program.statements.map Statement.bare = p.map Statement.bare := by
  have hscript : Script (fun _ => 0) (render p) (p.map Statement.bare) :=
    script_renderAfter none h.speakable h.placed
  obtain ⟨statements, hscript', hsame⟩ :=
    hscript.withLine (lineAt (1 + lineBreaks (render p)))
  rw [hscript.map_bare] at hsame
  exact ⟨⟨1, statements⟩, parse_eq_ok_iff.mpr ⟨rfl, hscript'⟩, hsame⟩

/-- The statements that are read from some script, lines aside, are those
that can be written and can stand beside each other, and each of them is
read from what is printed for it. -/
theorem image_exact (p : List Statement) :
    ((∃ source program, parse source = .ok program ∧
        program.statements.map Statement.bare = p.map Statement.bare) ↔ WellFormed p) ∧
    ((∃ program, parse (render p) = .ok program ∧
        program.statements.map Statement.bare = p.map Statement.bare) ↔ WellFormed p) := by
  have himage : ∀ {source program}, parse source = .ok program →
      program.statements.map Statement.bare = p.map Statement.bare → WellFormed p :=
    fun hparse hsame => (wellFormed_of_parse hparse).of_map_bare hsame
  constructor
  · constructor
    · rintro ⟨source, program, hparse, hsame⟩
      exact himage hparse hsame
    · intro h
      exact ⟨render p, parse_render h⟩
  · constructor
    · rintro ⟨program, hparse, hsame⟩
      exact himage hparse hsame
    · exact parse_render

-- The assignment stands behind a word in the first list, and behind layout in the second.
example : render [.blockStart 0, .assignment 0 ⟨0, ['x']⟩ ['1'], .print 0 ⟨0, ['x']⟩] =
    "BEGIN$x=\"1\"PRINT($x)".toList := by decide

example : render [.blockStart 0, .blank 0, .assignment 0 ⟨0, ['x']⟩ ['"'], .blank 0] =
    "BEGIN x:='\"'; ".toList := by decide

end Program

end StoredProc
