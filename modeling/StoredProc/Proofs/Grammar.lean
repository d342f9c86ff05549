import StoredProc.Proofs.Text.Runs
import StoredProc.Statement
import StoredProc.Token

/-!
The grammar of scripts, written down as relations between texts: a
relation holds of a text, of what its beginning stands for, and of the
rest of the text. Words and layout are as long as they can be, so that a
word is never followed by a further letter, digit or underscore and
layout is never followed by a blank. Keywords are in any letter case.

Each statement knows the line it begins on, and each name in it the line
of its own. Which line that is, the grammar leaves open: `line` gives it
from the text that begins there. With the constant function it is the
grammar of statements whose lines are left aside.
-/

namespace StoredProc

/-! ### Statements without their lines -/

def Variable.bare (var : Variable) : Variable := { var with line := 0 }

def Param.bare (param : Param) : Param := { param with line := 0, var := param.var.bare }

def Header.bare (header : Header) : Header where
  line := 0
  name := header.name.bare
  params := header.params.map Param.bare

/-- A statement with its lines left aside. -/
def Statement.bare : Statement → Statement
  | assignment _ var literal => assignment 0 var.bare literal
  | print _ var => print 0 var.bare
  | procedure header => procedure header.bare
  | declaration _ var type => declaration 0 var.bare type
  | blockStart _ => blockStart 0
  | execute _ sql => execute 0 sql.bare
  | blockEnd _ => blockEnd 0
  | blank _ => blank 0

def ValueType.keyword : ValueType → Keyword
  | integer => .integer
  | char => .char

def Direction.keyword : Direction → Keyword
  | input => .input
  | output => .output

namespace Grammar

open Text

/-! ### Words, layout and literals -/

/-- A word that goes as far as it can. -/
structure WordAt (word text rest : Text) : Prop where
  text_eq : text = word ++ rest
  isWord : IsWord word
  stops : Stops isWordPart rest

/-- A word that spells the keyword, in any letter case. -/
def KeywordAt (k : Keyword) (text rest : Text) : Prop :=
  ∃ word, WordAt word text rest ∧ word.toUpper = k.spelling

/-- A word that spells no keyword. -/
def NameAt (name text rest : Text) : Prop :=
  WordAt name text rest ∧ ∀ k : Keyword, name.toUpper ≠ k.spelling

def BlanksAt (text rest : Text) : Prop :=
  ∃ run, text = run ++ rest ∧ run ≠ [] ∧ IsLayout run ∧ Stops isBlank rest

/-- Layout that may be left out. -/
def GapAt (text rest : Text) : Prop :=
  ∃ run, text = run ++ rest ∧ IsLayout run ∧ Stops isBlank rest

theorem GapAt.stops {text rest : Text} (h : GapAt text rest) : Stops isBlank rest := by
  obtain ⟨run, -, -, hrest⟩ := h
  exact hrest

theorem gapAt_self {text : Text} (h : Stops isBlank text) : GapAt text text :=
  ⟨[], rfl, fun _ hc => absurd hc List.not_mem_nil, h⟩

/-- A blank in front of layout that may be left out. -/
theorem GapAt.cons {text rest : Text} {c : Char} (h : GapAt text rest) (hc : isBlank c = true) :
    BlanksAt (c :: text) rest := by
  obtain ⟨run, rfl, hlayout, hrest⟩ := h
  exact ⟨c :: run, rfl, List.cons_ne_nil c run, List.forall_mem_cons.mpr ⟨hc, hlayout⟩, hrest⟩

/-- Any text between two double quotes or between two apostrophes, as
long as it does not hold the same quote itself. -/
inductive StringAt (literal : Text) : Text → Text → Prop
  | double {rest : Text} (h : '"' ∉ literal) : StringAt literal ('"' :: literal ++ '"' :: rest) rest
  | single {rest : Text} (h : '\x27' ∉ literal) :
      StringAt literal ('\x27' :: literal ++ '\x27' :: rest) rest

/-! ### Statements -/

section

variable (line : Text → Nat)

/-- `name type direction`. -/
inductive ParamAt : Text → Param → Text → Prop
  | spell {text t₁ t₂ t₃ t₄ rest name : Text} {type : ValueType} {direction : Direction}
      (hname : NameAt name text t₁) (h₁ : BlanksAt t₁ t₂) (htype : KeywordAt type.keyword t₂ t₃)
      (h₂ : BlanksAt t₃ t₄) (hdirection : KeywordAt direction.keyword t₄ rest) :
      ParamAt text ⟨line text, ⟨line text, name⟩, type, direction⟩ rest

/-- One or more parameters with commas between them. -/
inductive ParamsAt : Text → List Param → Text → Prop
  | last {text rest : Text} {param : Param} (hparam : ParamAt line text param rest) :
      ParamsAt text [param] rest
  | more {text t₁ t₂ t₃ rest : Text} {param : Param} {params : List Param}
      (hparam : ParamAt line text param t₁) (h₁ : GapAt t₁ (',' :: t₂)) (h₂ : GapAt t₂ t₃)
      (hparams : ParamsAt t₃ params rest) : ParamsAt text (param :: params) rest

/-- `$name = literal`, with the layout after it. -/
inductive SigilAssignmentAt : Text → Statement → Text → Prop
  | spell {t₁ t₂ t₃ t₄ t₅ rest name literal : Text} (hname : NameAt name t₁ t₂)
      (h₁ : GapAt t₂ ('=' :: t₃)) (h₂ : GapAt t₃ t₄) (hliteral : StringAt literal t₄ t₅)
      (h₃ : GapAt t₅ rest) :
      SigilAssignmentAt ('$' :: t₁)
        (.assignment (line ('$' :: t₁)) ⟨line ('$' :: t₁), name⟩ literal) rest

/-- `name type;`. -/
inductive DeclarationAt : Text → Statement → Text → Prop
  | spell {text t₁ t₂ t₃ rest name : Text} {type : ValueType} (hname : NameAt name text t₁)
      (h₁ : BlanksAt t₁ t₂) (htype : KeywordAt type.keyword t₂ t₃) (h₂ : GapAt t₃ (';' :: rest)) :
      DeclarationAt text (.declaration (line text) ⟨line text, name⟩ type) rest

/-- `name := literal;`. -/
inductive ColonAssignmentAt : Text → Statement → Text → Prop
  | spell {text t₁ t₂ t₃ t₄ rest name literal : Text} (hname : NameAt name text t₁)
      (h₁ : GapAt t₁ (':' :: '=' :: t₂)) (h₂ : GapAt t₂ t₃) (hliteral : StringAt literal t₃ t₄)
      (h₃ : GapAt t₄ (';' :: rest)) :
      ColonAssignmentAt text (.assignment (line text) ⟨line text, name⟩ literal) rest

/-- `CREATE OR REPLACE PROCEDURE name (params) IS`. -/
inductive ProcedureAt : Text → Statement → Text → Prop
  | spell {text t₁ t₂ t₃ t₄ t₅ t₆ t₇ t₈ t₉ t₁₀ t₁₁ t₁₂ t₁₃ t₁₄ rest name : Text}
      {params : List Param}
      (hcreate : KeywordAt .create text t₁) (h₁ : BlanksAt t₁ t₂)
      (hor : KeywordAt .or t₂ t₃) (h₂ : BlanksAt t₃ t₄)
      (hreplace : KeywordAt .replace t₄ t₅) (h₃ : BlanksAt t₅ t₆)
      (hprocedure : KeywordAt .procedure t₆ t₇) (h₄ : BlanksAt t₇ t₈)
      (hname : NameAt name t₈ t₉) (h₅ : GapAt t₉ ('(' :: t₁₀))
      (h₆ : GapAt t₁₀ t₁₁) (hparams : ParamsAt line t₁₁ params t₁₂) (h₇ : GapAt t₁₂ (')' :: t₁₃))
      (h₈ : GapAt t₁₃ t₁₄) (his : KeywordAt .is t₁₄ rest) :
      ProcedureAt text (.procedure ⟨line text, ⟨line t₈, name⟩, params⟩) rest

inductive BlockStartAt : Text → Statement → Text → Prop
  | spell {text rest : Text} (hbegin : KeywordAt .beginBlock text rest) :
      BlockStartAt text (.blockStart (line text)) rest

/-- `EXECUTE IMMEDIATE name;`. -/
inductive ExecuteAt : Text → Statement → Text → Prop
  | spell {text t₁ t₂ t₃ t₄ t₅ rest name : Text} (hexecute : KeywordAt .execute text t₁)
      (h₁ : BlanksAt t₁ t₂) (himmediate : KeywordAt .immediate t₂ t₃) (h₂ : BlanksAt t₃ t₄)
      (hname : NameAt name t₄ t₅) (h₃ : GapAt t₅ (';' :: rest)) :
      ExecuteAt text (.execute (line text) ⟨line t₄, name⟩) rest

/-- `END`, and any text up to the next semicolon. -/
inductive BlockEndAt : Text → Statement → Text → Prop
  | spell {text skipped rest : Text} (hend : KeywordAt .endBlock text (skipped ++ ';' :: rest))
      (h : ';' ∉ skipped) : BlockEndAt text (.blockEnd (line text)) rest

inductive BlankAt : Text → Statement → Text → Prop
  | spell {text rest : Text} (h : BlanksAt text rest) : BlankAt text (.blank (line text)) rest

/-- `PRINT($name)`, with the layout after it. -/
inductive PrintAt : Text → Statement → Text → Prop
  | spell {text t₁ t₂ t₃ t₄ t₅ rest name : Text} (hprint : KeywordAt .print text t₁)
      (h₁ : GapAt t₁ ('(' :: t₂)) (h₂ : GapAt t₂ ('$' :: t₃)) (hname : NameAt name t₃ t₄)
      (h₃ : GapAt t₄ (')' :: t₅)) (h₄ : GapAt t₅ rest) :
      PrintAt text (.print (line text) ⟨line ('$' :: t₃), name⟩) rest

inductive StatementAt (text : Text) (statement : Statement) (rest : Text) : Prop
  | sigilAssignment (h : SigilAssignmentAt line text statement rest)
  | declaration (h : DeclarationAt line text statement rest)
  | colonAssignment (h : ColonAssignmentAt line text statement rest)
  | procedure (h : ProcedureAt line text statement rest)
  | blockStart (h : BlockStartAt line text statement rest)
  | execute (h : ExecuteAt line text statement rest)
  | blockEnd (h : BlockEndAt line text statement rest)
  | blank (h : BlankAt line text statement rest)
  | print (h : PrintAt line text statement rest)

/-- A script: statements one after another from its first character to
its last. -/
inductive Script : Text → List Statement → Prop
  | nil : Script [] []
  | cons {text rest : Text} {statement : Statement} {statements : List Statement}
      (h : StatementAt line text statement rest) (hrest : Script rest statements) :
      Script text (statement :: statements)

end

/-! ### Other lines

The rules use `line` only to fill in lines, so a text that is in a rule
with one function is in it with any other. -/

section

variable {line : Text → Nat} {text rest : Text} {statement : Statement}
  {statements : List Statement}

theorem ParamAt.withLine (line' : Text → Nat) {param : Param} (h : ParamAt line text param rest) :
    ∃ param', ParamAt line' text param' rest ∧ param'.bare = param.bare := by
  cases h with
  | spell hname h₁ htype h₂ hdirection => exact ⟨_, .spell hname h₁ htype h₂ hdirection, rfl⟩

theorem ParamsAt.withLine (line' : Text → Nat) {params : List Param}
    (h : ParamsAt line text params rest) :
    ∃ params', ParamsAt line' text params' rest ∧
      params'.map Param.bare = params.map Param.bare := by
  induction h with
  | last hparam =>
      obtain ⟨param', hparam', hbare⟩ := hparam.withLine line'
      refine ⟨[param'], .last hparam', ?_⟩
      rw [List.map_singleton, List.map_singleton, hbare]
  | more hparam h₁ h₂ hparams ih =>
      obtain ⟨param', hparam', hbare⟩ := hparam.withLine line'
      obtain ⟨params', hparams', hbares⟩ := ih
      refine ⟨param' :: params', .more hparam' h₁ h₂ hparams', ?_⟩
      rw [List.map_cons, List.map_cons, hbare, hbares]

theorem ProcedureAt.withLine (line' : Text → Nat) (h : ProcedureAt line text statement rest) :
    ∃ statement', ProcedureAt line' text statement' rest ∧ statement'.bare = statement.bare := by
  cases h with
  | spell hcreate h₁ hor h₂ hreplace h₃ hprocedure h₄ hname h₅ h₆ hparams h₇ h₈ his =>
      obtain ⟨params', hparams', hbares⟩ := hparams.withLine line'
      refine ⟨_, .spell hcreate h₁ hor h₂ hreplace h₃ hprocedure h₄ hname h₅ h₆ hparams' h₇ h₈ his,
        ?_⟩
      rw [Statement.bare, Statement.bare, Header.bare, Header.bare, hbares]
      rfl

theorem StatementAt.withLine (line' : Text → Nat) (h : StatementAt line text statement rest) :
    ∃ statement', StatementAt line' text statement' rest ∧ statement'.bare = statement.bare := by
  cases h with
  | sigilAssignment h =>
      cases h with
      | spell hname h₁ h₂ hliteral h₃ =>
          exact ⟨_, .sigilAssignment (.spell hname h₁ h₂ hliteral h₃), rfl⟩
  | declaration h =>
      cases h with
      | spell hname h₁ htype h₂ => exact ⟨_, .declaration (.spell hname h₁ htype h₂), rfl⟩
  | colonAssignment h =>
      cases h with
      | spell hname h₁ h₂ hliteral h₃ =>
          exact ⟨_, .colonAssignment (.spell hname h₁ h₂ hliteral h₃), rfl⟩
  | procedure h =>
      obtain ⟨statement', h', hbare⟩ := h.withLine line'
      exact ⟨statement', .procedure h', hbare⟩
  | blockStart h =>
      cases h with
      | spell hbegin => exact ⟨_, .blockStart (.spell hbegin), rfl⟩
  | execute h =>
      cases h with
      | spell hexecute h₁ himmediate h₂ hname h₃ =>
          exact ⟨_, .execute (.spell hexecute h₁ himmediate h₂ hname h₃), rfl⟩
  | blockEnd h =>
      cases h with
      | spell hend hskipped => exact ⟨_, .blockEnd (.spell hend hskipped), rfl⟩
  | blank h =>
      cases h with
      | spell h => exact ⟨_, .blank (.spell h), rfl⟩
  | print h =>
      cases h with
      | spell hprint h₁ h₂ hname h₃ h₄ =>
          exact ⟨_, .print (.spell hprint h₁ h₂ hname h₃ h₄), rfl⟩

theorem Script.withLine (line' : Text → Nat) (h : Script line text statements) :
    ∃ statements', Script line' text statements' ∧
      statements'.map Statement.bare = statements.map Statement.bare := by
  induction h with
  | nil => exact ⟨[], .nil, rfl⟩
  | cons h hrest ih =>
      obtain ⟨statement', h', hbare⟩ := h.withLine line'
      obtain ⟨statements', hrest', hbares⟩ := ih
      refine ⟨statement' :: statements', .cons h' hrest', ?_⟩
      rw [List.map_cons, List.map_cons, hbare, hbares]

/-! With all lines zero, the lines of a statement are already left
aside. -/

theorem ParamsAt.map_bare {params : List Param} (h : ParamsAt (fun _ => 0) text params rest) :
    params.map Param.bare = params := by
  induction h with
  | last hparam =>
      cases hparam
      rfl
  | more hparam h₁ h₂ hparams ih =>
      cases hparam
      rw [List.map_cons, ih]
      rfl

theorem StatementAt.bare_eq (h : StatementAt (fun _ => 0) text statement rest) :
    statement.bare = statement := by
  cases h with
  | procedure h =>
      cases h with
      | spell hcreate h₁ hor h₂ hreplace h₃ hprocedure h₄ hname h₅ h₆ hparams =>
          rw [Statement.bare, Header.bare, hparams.map_bare]
          rfl
  | sigilAssignment h | declaration h | colonAssignment h | blockStart h | execute h | blockEnd h
    | blank h | print h =>
      cases h
      rfl

theorem Script.map_bare (h : Script (fun _ => 0) text statements) :
    statements.map Statement.bare = statements := by
  induction h with
  | nil => rfl
  | cons h hrest ih => rw [List.map_cons, h.bare_eq, ih]

end

end Grammar

end StoredProc
