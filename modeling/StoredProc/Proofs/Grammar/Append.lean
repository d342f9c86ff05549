import StoredProc.Proofs.Grammar.Lines

/-!
A script behind a script, with layout between the two. No rule looks
further than the first character of what follows it, so a rule that ends
inside the first script holds in front of more text as well. At the seam
itself there are two cases. A word, a semicolon or a raw text ends where
it did, and the layout becomes a statement; a rule that takes the layout
behind it takes this layout too, and whatever layout the second script
begins with. Either way the two scripts differ from the whole in blank
statements alone.
-/

namespace StoredProc

/-! ### Statements that are not blank -/

def Statement.isLayout : Statement → Bool
  | blank _ => true
  | _ => false

def Statement.withoutBlanks (statements : List Statement) : List Statement :=
  statements.filter (!·.isLayout)

namespace Statement

variable {statement : Statement}

theorem exists_blank_of_isLayout (h : statement.isLayout = true) :
    ∃ line, statement = blank line := by
  cases statement with
  | blank line => exact ⟨line, rfl⟩
  | _ => cases h

theorem withoutBlanks_cons_of_isLayout (h : statement.isLayout = true)
    (statements : List Statement) :
    withoutBlanks (statement :: statements) = withoutBlanks statements := by
  rw [withoutBlanks, List.filter_cons_of_neg (by rw [h]; decide), ← withoutBlanks]

theorem withoutBlanks_cons_of_not_isLayout (h : ¬ statement.isLayout = true)
    (statements : List Statement) :
    withoutBlanks (statement :: statements) = statement :: withoutBlanks statements := by
  rw [withoutBlanks, List.filter_cons_of_pos (by simpa using h), ← withoutBlanks]

theorem withoutBlanks_cons_append (statement : Statement) (p q : List Statement)
    {r : List Statement} (h : withoutBlanks r = withoutBlanks p ++ withoutBlanks q) :
    withoutBlanks (statement :: r) = withoutBlanks (statement :: p) ++ withoutBlanks q := by
  simp only [withoutBlanks] at h ⊢
  rw [← List.filter_append, List.cons_append, List.filter_cons, List.filter_cons, h,
    List.filter_append]

theorem isLayout_mapLine (f : Nat → Nat) (statement : Statement) :
    (statement.mapLine f).isLayout = statement.isLayout := by
  cases statement <;> rfl

theorem withoutBlanks_map_mapLine (f : Nat → Nat) (statements : List Statement) :
    withoutBlanks (statements.map (mapLine f)) = (withoutBlanks statements).map (mapLine f) := by
  rw [withoutBlanks, List.filter_map]
  congr 2
  funext statement
  exact congrArg _ (isLayout_mapLine f statement)

end Statement

namespace Grammar

open Text Statement

variable {line : Text → Nat} {text rest tail after : Text} {statement : Statement}

/-! ### Parts of a statement in front of more text -/

theorem WordAt.ne_nil {word : Text} (h : WordAt word text rest) : text ≠ [] := by
  rw [h.text_eq]
  exact List.append_ne_nil_of_left_ne_nil h.isWord.ne_nil rest

theorem KeywordAt.ne_nil {k : Keyword} (h : KeywordAt k text rest) : text ≠ [] := by
  obtain ⟨word, hword, -⟩ := h
  exact hword.ne_nil

theorem NameAt.ne_nil {name : Text} (h : NameAt name text rest) : text ≠ [] := h.1.ne_nil

theorem StringAt.ne_nil {literal : Text} (h : StringAt literal text rest) : text ≠ [] := by
  cases h <;> exact List.cons_ne_nil _ _

theorem ParamsAt.ne_nil {params : List Param} (h : ParamsAt line text params rest) :
    text ≠ [] := by
  cases h with
  | last hparam | more hparam =>
      cases hparam with
      | spell hname => exact hname.ne_nil

theorem WordAt.append {word : Text} (h : WordAt word text rest) (htail : Stops isWordPart tail) :
    WordAt word (text ++ tail) (rest ++ tail) where
  text_eq := by rw [h.text_eq, List.append_assoc]
  isWord := h.isWord
  stops := h.stops.append htail

theorem KeywordAt.append {k : Keyword} (h : KeywordAt k text rest)
    (htail : Stops isWordPart tail) : KeywordAt k (text ++ tail) (rest ++ tail) := by
  obtain ⟨word, hword, hspelling⟩ := h
  exact ⟨word, hword.append htail, hspelling⟩

theorem NameAt.append {name : Text} (h : NameAt name text rest) (htail : Stops isWordPart tail) :
    NameAt name (text ++ tail) (rest ++ tail) :=
  ⟨h.1.append htail, h.2⟩

theorem StringAt.append {literal : Text} (h : StringAt literal text rest) (tail : Text) :
    StringAt literal (text ++ tail) (rest ++ tail) := by
  cases h with
  | double h =>
      rw [List.append_assoc, List.cons_append]
      exact .double h
  | single h =>
      rw [List.append_assoc, List.cons_append]
      exact .single h

theorem BlanksAt.append (h : BlanksAt text rest) (hne : rest ≠ []) (tail : Text) :
    BlanksAt (text ++ tail) (rest ++ tail) := by
  obtain ⟨run, rfl, hrun, hlayout, hrest⟩ := h
  exact ⟨run, List.append_assoc .., hrun, hlayout, stops_append_of_ne_nil hrest hne⟩

theorem GapAt.append (h : GapAt text rest) (hne : rest ≠ []) (tail : Text) :
    GapAt (text ++ tail) (rest ++ tail) := by
  obtain ⟨run, rfl, hlayout, hrest⟩ := h
  exact ⟨run, List.append_assoc .., hlayout, stops_append_of_ne_nil hrest hne⟩

/-! Layout at the end of a text goes on with the layout behind it. -/

theorem BlanksAt.extend (h : BlanksAt text []) (htail : BlanksAt tail after) :
    BlanksAt (text ++ tail) after := by
  obtain ⟨run, rfl, hrun, hlayout, -⟩ := h
  obtain ⟨run', rfl, -, hlayout', hafter⟩ := htail
  refine ⟨run ++ run', by simp, by simp [hrun], ?_, hafter⟩
  exact List.forall_mem_append.mpr ⟨hlayout, hlayout'⟩

theorem GapAt.extend (h : GapAt text []) (htail : BlanksAt tail after) :
    GapAt (text ++ tail) after := by
  obtain ⟨run, rfl, hlayout, -⟩ := h
  obtain ⟨run', rfl, -, hlayout', hafter⟩ := htail
  exact ⟨run ++ run', by simp, List.forall_mem_append.mpr ⟨hlayout, hlayout'⟩, hafter⟩

theorem BlanksAt.stops_isWordPart (h : BlanksAt text rest) : Stops isWordPart text := by
  obtain ⟨run, rfl, hne, hlayout, -⟩ := h
  refine stops_append_of_ne_nil (stops_of_forall fun c hc => ?_) hne
  exact isWordPart_eq_false_of_isBlank (hlayout c hc)

theorem ParamAt.append {param : Param} (h : ParamAt (fun t => line (t ++ tail)) text param rest)
    (htail : Stops isWordPart tail) : ParamAt line (text ++ tail) param (rest ++ tail) := by
  cases h with
  | spell hname h₁ htype h₂ hdirection =>
      exact .spell (hname.append htail) (h₁.append htype.ne_nil tail) (htype.append htail)
        (h₂.append hdirection.ne_nil tail) (hdirection.append htail)

theorem ParamsAt.append {params : List Param}
    (h : ParamsAt (fun t => line (t ++ tail)) text params rest)
    (htail : Stops isWordPart tail) : ParamsAt line (text ++ tail) params (rest ++ tail) := by
  induction h with
  | last hparam => exact .last (hparam.append htail)
  | more hparam h₁ h₂ hparams ih =>
      exact .more (hparam.append htail) (h₁.append (List.cons_ne_nil _ _) tail)
        (h₂.append hparams.ne_nil tail) ih

/-! ### Statements in front of more text -/

theorem ProcedureAt.append (h : ProcedureAt (fun t => line (t ++ tail)) text statement rest)
    (htail : Stops isWordPart tail) : ProcedureAt line (text ++ tail) statement (rest ++ tail) := by
  cases h with
  | spell hcreate h₁ hor h₂ hreplace h₃ hprocedure h₄ hname h₅ h₆ hparams h₇ h₈ his =>
      exact .spell (hcreate.append htail) (h₁.append hor.ne_nil tail)
        (hor.append htail) (h₂.append hreplace.ne_nil tail)
        (hreplace.append htail) (h₃.append hprocedure.ne_nil tail)
        (hprocedure.append htail) (h₄.append hname.ne_nil tail)
        (hname.append htail) (h₅.append (List.cons_ne_nil _ _) tail)
        (h₆.append hparams.ne_nil tail) (hparams.append htail)
        (h₇.append (List.cons_ne_nil _ _) tail) (h₈.append his.ne_nil tail) (his.append htail)

/-- A statement is followed by the layout behind it, or it ends at the
seam and takes that layout as its own. -/
theorem StatementAt.append (h : StatementAt (fun t => line (t ++ tail)) text statement rest)
    (htail : BlanksAt tail after) :
    StatementAt line (text ++ tail) statement (rest ++ tail) ∨
      rest = [] ∧ StatementAt line (text ++ tail) statement after := by
  have hstops := htail.stops_isWordPart
  cases h with
  | sigilAssignment h =>
      cases h with
      | spell hname h₁ h₂ hliteral h₃ =>
          have hname := hname.append hstops
          have h₁ := h₁.append (List.cons_ne_nil _ _) tail
          have h₂ := h₂.append hliteral.ne_nil tail
          have hliteral := hliteral.append tail
          by_cases hrest : rest = []
          · subst hrest
            exact .inr ⟨rfl, .sigilAssignment (.spell hname h₁ h₂ hliteral (h₃.extend htail))⟩
          · exact .inl (.sigilAssignment (.spell hname h₁ h₂ hliteral (h₃.append hrest tail)))
  | declaration h =>
      cases h with
      | spell hname h₁ htype h₂ =>
          exact .inl <| .declaration <| .spell (hname.append hstops) (h₁.append htype.ne_nil tail)
            (htype.append hstops) (h₂.append (List.cons_ne_nil _ _) tail)
  | colonAssignment h =>
      cases h with
      | spell hname h₁ h₂ hliteral h₃ =>
          exact .inl <| .colonAssignment <| .spell (hname.append hstops)
            (h₁.append (List.cons_ne_nil _ _) tail) (h₂.append hliteral.ne_nil tail)
            (hliteral.append tail) (h₃.append (List.cons_ne_nil _ _) tail)
  | procedure h => exact .inl (.procedure (h.append hstops))
  | blockStart h =>
      cases h with
      | spell hbegin => exact .inl (.blockStart (.spell (hbegin.append hstops)))
  | execute h =>
      cases h with
      | spell hexecute h₁ himmediate h₂ hname h₃ =>
          exact .inl <| .execute <| .spell (hexecute.append hstops)
            (h₁.append himmediate.ne_nil tail) (himmediate.append hstops)
            (h₂.append hname.ne_nil tail) (hname.append hstops)
            (h₃.append (List.cons_ne_nil _ _) tail)
  | blockEnd h =>
      cases h with
      | spell hend hskipped =>
          have hend := hend.append hstops
          rw [List.append_assoc, List.cons_append] at hend
          exact .inl (.blockEnd (.spell hend hskipped))
  | blank h =>
      cases h with
      | spell h =>
          by_cases hrest : rest = []
          · subst hrest
            exact .inr ⟨rfl, .blank (.spell (h.extend htail))⟩
          · exact .inl (.blank (.spell (h.append hrest tail)))
  | print h =>
      cases h with
      | spell hprint h₁ h₂ hname h₃ h₄ =>
          have hprint := hprint.append hstops
          have h₁ := h₁.append (List.cons_ne_nil _ _) tail
          have h₂ := h₂.append (List.cons_ne_nil _ _) tail
          have hname := hname.append hstops
          have h₃ := h₃.append (List.cons_ne_nil _ _) tail
          by_cases hrest : rest = []
          · subst hrest
            exact .inr ⟨rfl, .print (.spell hprint h₁ h₂ hname h₃ (h₄.extend htail))⟩
          · exact .inl (.print (.spell hprint h₁ h₂ hname h₃ (h₄.append hrest tail)))

/-! ### Scripts -/

/-- A statement other than layout does not begin with a blank. -/
theorem StatementAt.blank_or_stops (h : StatementAt line text statement rest) :
    (statement.isLayout = true ∧ BlanksAt text rest) ∨
      (statement.isLayout = false ∧ Stops isBlank text) := by
  cases h with
  | blank h =>
      cases h with
      | spell h => exact .inl ⟨rfl, h⟩
  | sigilAssignment h =>
      cases h with
      | spell => exact .inr ⟨rfl, stops_cons.mpr rfl⟩
  | declaration h | colonAssignment h =>
      cases h with
      | spell hname => exact .inr ⟨rfl, hname.1.stops_isBlank⟩
  | procedure h | blockStart h | execute h | blockEnd h | print h =>
      cases h with
      | spell hword => exact .inr ⟨rfl, hword.stops_isBlank⟩

/-- The layout that a script begins with can be left out. -/
theorem Script.dropBlanks {statements : List Statement} (h : Script line text statements) :
    ∃ rest statements', GapAt text rest ∧ Script line rest statements' ∧
      withoutBlanks statements' = withoutBlanks statements := by
  cases h with
  | nil => exact ⟨[], [], gapAt_self stops_nil, .nil, rfl⟩
  | @cons _ rest st sts h hrest =>
      rcases h.blank_or_stops with ⟨hblank, run, htext, -, hlayout, hstops⟩ | ⟨-, htext⟩
      · exact ⟨rest, sts, ⟨run, htext, hlayout, hstops⟩, hrest,
          (withoutBlanks_cons_of_isLayout hblank sts).symm⟩
      · exact ⟨text, st :: sts, gapAt_self htext, .cons h hrest, rfl⟩

theorem Script.eq_nil {statements : List Statement} (h : Script line [] statements) :
    statements = [] := by
  cases h with
  | nil => rfl
  | cons h hrest =>
      obtain ⟨taken, hne, htext, -⟩ := h.parts
      exact absurd (List.append_eq_nil_iff.mp htext.symm).1 hne

/-- Two scripts with layout between them are a script of their
statements, blank ones aside. -/
theorem Script.append {p q : List Statement} (h : Script (fun t => line (t ++ tail)) text p)
    (htail : BlanksAt tail after) (hafter : Script line after q) :
    ∃ r, Script line (text ++ tail) r ∧ withoutBlanks r = withoutBlanks p ++ withoutBlanks q := by
  induction h with
  | nil =>
      exact ⟨_, .cons (.blank (.spell htail)) hafter, withoutBlanks_cons_of_isLayout rfl q⟩
  | @cons text rest statement statements h hrest ih =>
      rcases h.append htail with hmore | ⟨rfl, hend⟩
      · obtain ⟨r, hr, hsame⟩ := ih
        exact ⟨statement :: r, .cons hmore hr, withoutBlanks_cons_append statement _ q hsame⟩
      -- Nothing of the first script is left behind its last statement.
      · obtain rfl := hrest.eq_nil
        exact ⟨statement :: q, .cons hend hafter, withoutBlanks_cons_append statement [] q rfl⟩

end Grammar

end StoredProc
