import StoredProc.Proofs.Grammar
import StoredProc.Proofs.Text.Lines

/-!
Lines in the grammar. A rule takes its lines from the places where its
parts begin, and every such place is an end of the text the rule is
about. So to exchange one way of numbering lines for another it is enough
that the two agree on the places of a script, up to the function that
carries the one to the other.

What is known of such a place is that no break lies across it: a part of
a statement begins with no blank, and layout between two statements has
no layout in front of it.
-/

namespace StoredProc

/-! ### Statements with other lines -/

def Variable.mapLine (f : Nat → Nat) (var : Variable) : Variable := { var with line := f var.line }

def Param.mapLine (f : Nat → Nat) (param : Param) : Param :=
  { param with line := f param.line, var := param.var.mapLine f }

def Header.mapLine (f : Nat → Nat) (header : Header) : Header where
  line := f header.line
  name := header.name.mapLine f
  params := header.params.map (Param.mapLine f)

def Statement.mapLine (f : Nat → Nat) : Statement → Statement
  | assignment line var literal => assignment (f line) (var.mapLine f) literal
  | print line var => print (f line) (var.mapLine f)
  | procedure header => procedure (header.mapLine f)
  | declaration line var type => declaration (f line) (var.mapLine f) type
  | blockStart line => blockStart (f line)
  | execute line sql => execute (f line) (sql.mapLine f)
  | blockEnd line => blockEnd (f line)
  | blank line => blank (f line)

@[simp] theorem Param.mapLine_id : Param.mapLine id = id := rfl

@[simp] theorem Statement.mapLine_id : Statement.mapLine id = id := by
  funext statement
  cases statement with
  | procedure header => simp [mapLine, Header.mapLine, Variable.mapLine]
  | _ => rfl

namespace Grammar

open Text

variable {line line' : Text → Nat} {f : Nat → Nat} {text rest : Text} {statement : Statement}
  {statements : List Statement}

/-! ### The places of a rule -/

theorem WordAt.suffix {word : Text} (h : WordAt word text rest) : rest <:+ text :=
  ⟨word, h.text_eq.symm⟩

theorem KeywordAt.suffix {k : Keyword} (h : KeywordAt k text rest) : rest <:+ text := by
  obtain ⟨word, hword, -⟩ := h
  exact hword.suffix

theorem NameAt.suffix {name : Text} (h : NameAt name text rest) : rest <:+ text := h.1.suffix

theorem BlanksAt.suffix (h : BlanksAt text rest) : rest <:+ text := by
  obtain ⟨run, htext, -⟩ := h
  exact ⟨run, htext.symm⟩

theorem GapAt.suffix (h : GapAt text rest) : rest <:+ text := by
  obtain ⟨run, htext, -⟩ := h
  exact ⟨run, htext.symm⟩

theorem StringAt.suffix {literal : Text} (h : StringAt literal text rest) : rest <:+ text := by
  cases h with
  | double h => exact ⟨'"' :: literal ++ ['"'], by simp⟩
  | single h => exact ⟨'\x27' :: literal ++ ['\x27'], by simp⟩

theorem ParamAt.suffix {param : Param} (h : ParamAt line text param rest) : rest <:+ text := by
  cases h with
  | spell hname h₁ htype h₂ hdirection =>
      exact hdirection.suffix.trans <| h₂.suffix.trans <| htype.suffix.trans <|
        h₁.suffix.trans hname.suffix

theorem ParamsAt.suffix {params : List Param} (h : ParamsAt line text params rest) :
    rest <:+ text := by
  induction h with
  | last hparam => exact hparam.suffix
  | more hparam h₁ h₂ hparams ih =>
      exact ih.trans <| h₂.suffix.trans <| (List.suffix_cons _ _).trans <|
        h₁.suffix.trans hparam.suffix

theorem WordAt.stops_isBlank {word : Text} (h : WordAt word text rest) : Stops isBlank text := by
  rw [h.text_eq]
  exact h.isWord.stops_isBlank rest

theorem KeywordAt.stops_isBlank {k : Keyword} (h : KeywordAt k text rest) :
    Stops isBlank text := by
  obtain ⟨word, hword, -⟩ := h
  exact hword.stops_isBlank

/-! ### Other lines of the same places -/

/-- At every place of the text where a part of a statement can begin, the
line is the one that `f` makes of the line before. -/
def Relabels (f : Nat → Nat) (line line' : Text → Nat) (text : Text) : Prop :=
  ∀ place, place <:+ text → Stops isBlank place → line' place = f (line place)

theorem Relabels.of_suffix (h : Relabels f line line' text) (hrest : rest <:+ text) :
    Relabels f line line' rest :=
  fun place hplace => h place (hplace.trans hrest)

theorem Relabels.name {name : Text} (h : Relabels f line line' text)
    (hname : NameAt name text rest) : line' text = f (line text) :=
  h text (List.suffix_refl text) hname.1.stops_isBlank

theorem Relabels.sigil (h : Relabels f line line' text) (hrest : '$' :: rest <:+ text) :
    line' ('$' :: rest) = f (line ('$' :: rest)) :=
  h _ hrest (stops_cons.mpr rfl)

theorem ParamAt.relabel {param : Param} (h : ParamAt line text param rest)
    (hline : Relabels f line line' text) : ParamAt line' text (param.mapLine f) rest := by
  cases h with
  | spell hname h₁ htype h₂ hdirection =>
      have hparam : ParamAt line' text _ rest := .spell hname h₁ htype h₂ hdirection
      rwa [hline.name hname] at hparam

theorem ParamsAt.relabel {params : List Param} (h : ParamsAt line text params rest)
    (hline : Relabels f line line' text) :
    ParamsAt line' text (params.map (Param.mapLine f)) rest := by
  induction h with
  | last hparam => exact .last (hparam.relabel hline)
  | more hparam h₁ h₂ hparams ih =>
      refine .more (hparam.relabel hline) h₁ h₂ (ih (hline.of_suffix ?_))
      exact h₂.suffix.trans <| (List.suffix_cons _ _).trans <| h₁.suffix.trans hparam.suffix

theorem ProcedureAt.relabel (h : ProcedureAt line text statement rest)
    (hhere : line' text = f (line text)) (hline : Relabels f line line' text) :
    ProcedureAt line' text (statement.mapLine f) rest := by
  cases h with
  | spell hcreate h₁ hor h₂ hreplace h₃ hprocedure h₄ hname h₅ h₆ hparams h₇ h₈ his =>
      have hlineName := hline.of_suffix <| h₄.suffix.trans <| hprocedure.suffix.trans <|
        h₃.suffix.trans <| hreplace.suffix.trans <| h₂.suffix.trans <| hor.suffix.trans <|
          h₁.suffix.trans hcreate.suffix
      have hlineParams := hlineName.of_suffix <| h₆.suffix.trans <| (List.suffix_cons _ _).trans <|
        h₅.suffix.trans hname.suffix
      have hheader := ProcedureAt.spell hcreate h₁ hor h₂ hreplace h₃ hprocedure h₄ hname h₅ h₆
        (hparams.relabel hlineParams) h₇ h₈ his
      rwa [hhere, hlineName.name hname] at hheader

/-- A statement takes its own line from where it begins, and all other
lines from places inside it. -/
theorem StatementAt.relabel (h : StatementAt line text statement rest)
    (hhere : line' text = f (line text)) (hline : Relabels f line line' text) :
    StatementAt line' text (statement.mapLine f) rest := by
  cases h with
  | sigilAssignment h =>
      cases h with
      | spell hname h₁ h₂ hliteral h₃ =>
          have hnew : SigilAssignmentAt line' _ _ rest := .spell hname h₁ h₂ hliteral h₃
          rw [hhere] at hnew
          exact .sigilAssignment hnew
  | declaration h =>
      cases h with
      | spell hname h₁ htype h₂ =>
          have hnew : DeclarationAt line' _ _ rest := .spell hname h₁ htype h₂
          rw [hhere] at hnew
          exact .declaration hnew
  | colonAssignment h =>
      cases h with
      | spell hname h₁ h₂ hliteral h₃ =>
          have hnew : ColonAssignmentAt line' _ _ rest := .spell hname h₁ h₂ hliteral h₃
          rw [hhere] at hnew
          exact .colonAssignment hnew
  | procedure h => exact .procedure (h.relabel hhere hline)
  | blockStart h =>
      cases h with
      | spell hbegin =>
          have hnew : BlockStartAt line' _ _ rest := .spell hbegin
          rw [hhere] at hnew
          exact .blockStart hnew
  | execute h =>
      cases h with
      | spell hexecute h₁ himmediate h₂ hname h₃ =>
          have hlineName := hline.of_suffix <| h₂.suffix.trans <| himmediate.suffix.trans <|
            h₁.suffix.trans hexecute.suffix
          have hnew : ExecuteAt line' _ _ rest := .spell hexecute h₁ himmediate h₂ hname h₃
          rw [hhere, hlineName.name hname] at hnew
          exact .execute hnew
  | blockEnd h =>
      cases h with
      | spell hend hskipped =>
          have hnew : BlockEndAt line' _ _ rest := .spell hend hskipped
          rw [hhere] at hnew
          exact .blockEnd hnew
  | blank h =>
      cases h with
      | spell h =>
          have hnew : BlankAt line' _ _ rest := .spell h
          rw [hhere] at hnew
          exact .blank hnew
  | print h =>
      cases h with
      | spell hprint h₁ h₂ hname h₃ h₄ =>
          have hsigil := hline.sigil <| h₂.suffix.trans <| (List.suffix_cons _ _).trans <|
            h₁.suffix.trans hprint.suffix
          have hnew : PrintAt line' _ _ rest := .spell hprint h₁ h₂ hname h₃ h₄
          rw [hhere, hsigil] at hnew
          exact .print hnew

/-! ### Where statements meet -/

/-- What a rule takes is not empty, and no break goes on from it into the
rest. -/
def Parts (text rest : Text) : Prop := ∃ taken, taken ≠ [] ∧ text = taken ++ rest ∧ Seam taken rest

/-- A rule that ends with a character other than a break. -/
theorem parts_of_suffix (last : Text) (hlast : last ++ rest <:+ text) (hne : last ≠ [])
    (hbreak : ∀ c ∈ last.getLast?, isBreak c = false) : Parts text rest := by
  obtain ⟨front, htext⟩ := hlast
  refine ⟨front ++ last, by simp [hne], by rw [← htext, List.append_assoc], ?_⟩
  exact Seam.prepend (.inr hbreak) hne front

theorem parts_of_semicolon (h : ';' :: rest <:+ text) : Parts text rest :=
  parts_of_suffix [';'] h (by simp) (by simp [isBreak])

theorem KeywordAt.parts {k : Keyword} {front : Text} (h : KeywordAt k text rest)
    (hfront : text <:+ front) : Parts front rest := by
  obtain ⟨word, hword, -⟩ := h
  rw [hword.text_eq] at hfront
  refine parts_of_suffix word hfront hword.isWord.ne_nil fun c hc => ?_
  exact isBreak_eq_false_of_isBlank_eq_false <|
    isBlank_eq_false_of_isWordPart (hword.isWord.forall_isWordPart c (List.mem_of_getLast? hc))

/-- A rule that takes the layout behind it. -/
theorem parts_of_stops (front : Text) {mid : Text} (htext : text = front ++ mid) (hne : front ≠ [])
    (hrest : rest <:+ mid) (hstops : Stops isBlank rest) : Parts text rest := by
  obtain ⟨taken, rfl⟩ := hrest
  refine ⟨front ++ taken, by simp [hne], by rw [htext, List.append_assoc], ?_⟩
  exact seam_of_stops_isBlank hstops

theorem StatementAt.parts (h : StatementAt line text statement rest) : Parts text rest := by
  cases h with
  | sigilAssignment h =>
      cases h with
      | spell hname h₁ h₂ hliteral h₃ =>
          refine parts_of_stops ['$'] rfl (by simp) ?_ h₃.stops
          exact h₃.suffix.trans <| hliteral.suffix.trans <| h₂.suffix.trans <|
            (List.suffix_cons _ _).trans <| h₁.suffix.trans hname.suffix
  | declaration h =>
      cases h with
      | spell hname h₁ htype h₂ =>
          exact parts_of_semicolon <| h₂.suffix.trans <| htype.suffix.trans <|
            h₁.suffix.trans hname.suffix
  | colonAssignment h =>
      cases h with
      | spell hname h₁ h₂ hliteral h₃ =>
          exact parts_of_semicolon <| h₃.suffix.trans <| hliteral.suffix.trans <|
            h₂.suffix.trans <| (List.suffix_cons _ _).trans <| (List.suffix_cons _ _).trans <|
              h₁.suffix.trans hname.suffix
  | procedure h =>
      cases h with
      | spell hcreate h₁ hor h₂ hreplace h₃ hprocedure h₄ hname h₅ h₆ hparams h₇ h₈ his =>
          exact his.parts <| h₈.suffix.trans <| (List.suffix_cons _ _).trans <| h₇.suffix.trans <|
            hparams.suffix.trans <| h₆.suffix.trans <| (List.suffix_cons _ _).trans <|
              h₅.suffix.trans <| hname.suffix.trans <| h₄.suffix.trans <| hprocedure.suffix.trans <|
                h₃.suffix.trans <| hreplace.suffix.trans <| h₂.suffix.trans <| hor.suffix.trans <|
                  h₁.suffix.trans hcreate.suffix
  | blockStart h =>
      cases h with
      | spell hbegin => exact hbegin.parts (List.suffix_refl _)
  | execute h =>
      cases h with
      | spell hexecute h₁ himmediate h₂ hname h₃ =>
          exact parts_of_semicolon <| h₃.suffix.trans <| hname.suffix.trans <| h₂.suffix.trans <|
            himmediate.suffix.trans <| h₁.suffix.trans hexecute.suffix
  | blockEnd h =>
      cases h with
      | spell hend hskipped =>
          exact parts_of_semicolon <| (List.suffix_append _ _).trans hend.suffix
  | blank h =>
      cases h with
      | spell h =>
          obtain ⟨run, htext, hne, -, hrest⟩ := h
          exact parts_of_stops run htext hne (List.suffix_refl _) hrest
  | print h =>
      cases h with
      | spell hprint h₁ h₂ hname h₃ h₄ =>
          obtain ⟨word, hword, -⟩ := hprint
          refine parts_of_stops word hword.text_eq hword.isWord.ne_nil ?_ h₄.stops
          exact h₄.suffix.trans <| (List.suffix_cons _ _).trans <| h₃.suffix.trans <|
            hname.suffix.trans <| (List.suffix_cons _ _).trans <| h₂.suffix.trans <|
              (List.suffix_cons _ _).trans h₁.suffix

/-! ### Scripts -/

/-- The lines of a script can be exchanged if they are right at every
place of it that no break lies across. -/
theorem Script.relabel {source before : Text} (h : Script line text statements)
    (hline : ∀ before place, source = before ++ place → Seam before place →
      line' place = f (line place))
    (hsource : source = before ++ text) (hseam : Seam before text) :
    Script line' text (statements.map (Statement.mapLine f)) := by
  induction h generalizing before with
  | nil => exact .nil
  | @cons text _ _ _ h hrest ih =>
      have hinside : Relabels f line line' text := by
        rintro place ⟨front, rfl⟩ hplace
        refine hline (before ++ front) place ?_ (seam_of_stops_isBlank hplace)
        rw [hsource, List.append_assoc]
      refine .cons (h.relabel (hline before _ hsource hseam) hinside) ?_
      -- The next statement begins where this one has parted from the rest.
      obtain ⟨taken, hne, rfl, hparts⟩ := h.parts
      exact ih (by rw [hsource, List.append_assoc]) (hparts.prepend hne before)

theorem StatementAt.line_eq (h : StatementAt line text statement rest) :
    statement.line = line text := by
  cases h with
  | sigilAssignment h | declaration h | colonAssignment h | procedure h | blockStart h | execute h
    | blockEnd h | blank h | print h =>
      cases h
      rfl

/-- Where lines do not decrease towards the end of a text, neither do
those of its statements. -/
theorem Script.pairwise_line (h : Script line text statements)
    (hline : ∀ place place', place' <:+ place → line place ≤ line place') :
    (∀ statement ∈ statements, line text ≤ statement.line) ∧
      (statements.map Statement.line).Pairwise (· ≤ ·) := by
  induction h with
  | nil => exact ⟨fun _ h => absurd h List.not_mem_nil, .nil⟩
  | @cons text rest statement statements h hrest ih =>
      obtain ⟨taken, -, htext, -⟩ := h.parts
      have hle : line text ≤ line rest := hline text rest ⟨taken, htext.symm⟩
      have hmore : ∀ later ∈ statements, line text ≤ later.line :=
        fun later hlater => Nat.le_trans hle (ih.1 later hlater)
      constructor
      · intro later hlater
        rcases List.mem_cons.mp hlater with rfl | hlater
        · exact Nat.le_of_eq h.line_eq.symm
        · exact hmore later hlater
      · refine List.Pairwise.cons ?_ ih.2
        intro n hn
        obtain ⟨later, hlater, rfl⟩ := List.mem_map.mp hn
        rw [h.line_eq]
        exact hmore later hlater

end Grammar

end StoredProc
