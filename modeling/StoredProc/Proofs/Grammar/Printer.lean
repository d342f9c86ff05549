import StoredProc.Proofs.Grammar.Append
import StoredProc.Proofs.Python.Decode

/-!
A printer for statements, and what it can print. Words are parted by one
space and nothing else is, keywords are in upper case, and a literal
stands between double quotes unless it holds one.

A piece is printed in front of the text that follows it, and which text
that may be is all that one statement has to know of the next. It
depends on the shape of the statement: layout and a printed value take
all blanks behind them, a statement that ends with a word is followed by
no further letter, and an assignment has two forms, of which only the one
that begins with a sigil can follow a word and takes blanks with it.
-/

namespace StoredProc

open Text

/-! ### Shapes -/

/-- What matters about a statement to its neighbours. -/
inductive Shape where
  | assignment
  | print
  /-- A procedure or the body of one begins: the last word is a keyword. -/
  | opening
  | blank
  | other
  deriving DecidableEq, Repr

namespace Statement

def shape : Statement → Shape
  | assignment _ _ _ => .assignment
  | print _ _ => .print
  | procedure _ => .opening
  | blockStart _ => .opening
  | blank _ => .blank
  | declaration _ _ _ => .other
  | execute _ _ => .other
  | blockEnd _ => .other

@[simp] theorem shape_bare (statement : Statement) : statement.bare.shape = statement.shape := by
  cases statement <;> rfl

theorem shape_eq_blank_iff {statement : Statement} :
    statement.shape = .blank ↔ statement.isLayout = true := by
  cases statement <;> simp [shape, isLayout]

end Statement

/-- The texts in front of which a statement can end. An assignment is
asked for its form. -/
def Shape.Admits (sigil : Bool) (rest : Text) : Shape → Prop
  | assignment => sigil = true → Stops isBlank rest
  | print => Stops isBlank rest
  | opening => Stops isWordPart rest
  | blank => Stops isBlank rest
  | other => True

/-! ### Statements that can be written -/

/-- A word that is no keyword in any letter case. -/
def IsName (name : Text) : Prop := IsWord name ∧ ∀ k : Keyword, name.toUpper ≠ k.spelling

/-- A literal is written in quotes, so it does not hold both kinds. A
procedure has parameters. -/
def Statement.HasParts : Statement → Prop
  | assignment _ _ literal => '"' ∉ literal ∨ '\x27' ∉ literal
  | procedure header => header.params ≠ []
  | _ => True

structure Statement.Speakable (statement : Statement) : Prop where
  names : ∀ name ∈ statement.names, IsName name
  parts : statement.HasParts

namespace Statement

@[simp] theorem names_bare (statement : Statement) : statement.bare.names = statement.names := by
  cases statement with
  | procedure header =>
      rw [bare, names, names, Header.bare, List.map_map]
      rfl
  | _ => rfl

theorem hasParts_bare {statement : Statement} :
    statement.bare.HasParts ↔ statement.HasParts := by
  cases statement with
  | procedure header => simp [bare, HasParts, Header.bare]
  | _ => exact Iff.rfl

theorem speakable_bare {statement : Statement} :
    statement.bare.Speakable ↔ statement.Speakable := by
  constructor
  · rintro ⟨hnames, hparts⟩
    exact ⟨by rwa [names_bare] at hnames, hasParts_bare.mp hparts⟩
  · rintro ⟨hnames, hparts⟩
    exact ⟨by rwa [names_bare], hasParts_bare.mpr hparts⟩

end Statement

/-! ### The printer -/

def renderLiteral (literal rest : Text) : Text :=
  if '"' ∈ literal then '\x27' :: literal ++ '\x27' :: rest else '"' :: literal ++ '"' :: rest

def Param.render (param : Param) (rest : Text) : Text :=
  param.var.name ++ ' ' :: (param.type.keyword.spelling ++ ' ' ::
    (param.direction.keyword.spelling ++ rest))

def Param.renderAll : List Param → Text → Text
  | [], rest => rest
  | [param], rest => param.render rest
  | param :: params, rest => param.render (',' :: renderAll params rest)

def Header.render (header : Header) (rest : Text) : Text :=
  Keyword.create.spelling ++ ' ' :: (Keyword.or.spelling ++ ' ' ::
    (Keyword.replace.spelling ++ ' ' :: (Keyword.procedure.spelling ++ ' ' ::
      (header.name.name ++ '(' :: Param.renderAll header.params
        (')' :: (Keyword.is.spelling ++ rest))))))

def Statement.render (sigil : Bool) (statement : Statement) (rest : Text) : Text :=
  match statement with
  | assignment _ var literal =>
      if sigil then '$' :: (var.name ++ '=' :: renderLiteral literal rest)
      else var.name ++ ':' :: '=' :: renderLiteral literal (';' :: rest)
  | print _ var => Keyword.print.spelling ++ '(' :: '$' :: (var.name ++ ')' :: rest)
  | procedure header => header.render rest
  | declaration _ var type => var.name ++ ' ' :: (type.keyword.spelling ++ ';' :: rest)
  | blockStart _ => Keyword.beginBlock.spelling ++ rest
  | execute _ sql =>
      Keyword.execute.spelling ++ ' ' :: (Keyword.immediate.spelling ++ ' ' ::
        (sql.name ++ ';' :: rest))
  | blockEnd _ => Keyword.endBlock.spelling ++ ';' :: rest
  | blank _ => ' ' :: rest

/-- Statements in order. An assignment has a sigil where a word is in
front of it. -/
def renderAfter (previous : Option Shape) : List Statement → Text
  | [] => []
  | statement :: statements =>
      statement.render (previous = some .opening) (renderAfter (some statement.shape) statements)

def render (statements : List Statement) : Text := renderAfter none statements

namespace Grammar

variable {text rest : Text}

/-! ### What is printed is in the grammar -/

theorem isWord_spelling (k : Keyword) : IsWord k.spelling := by
  cases k <;> decide

theorem keywordAt_spelling (k : Keyword) (hrest : Stops isWordPart rest) :
    KeywordAt k (k.spelling ++ rest) rest := by
  refine ⟨k.spelling, ⟨rfl, isWord_spelling k, hrest⟩, ?_⟩
  cases k <;> decide

/-! A character in front of which a piece ends is given with the piece,
and what comes after it does not matter. -/

theorem keywordAt_cons (k : Keyword) {c : Char} (hc : isWordPart c = false) (rest : Text) :
    KeywordAt k (k.spelling ++ c :: rest) (c :: rest) :=
  keywordAt_spelling k (stops_cons.mpr hc)

theorem nameAt_cons {name : Text} (hname : IsName name) {c : Char} (hc : isWordPart c = false)
    (rest : Text) : NameAt name (name ++ c :: rest) (c :: rest) :=
  ⟨⟨rfl, hname.1, stops_cons.mpr hc⟩, hname.2⟩

theorem gapAt_cons {c : Char} (hc : isBlank c = false) (rest : Text) :
    GapAt (c :: rest) (c :: rest) :=
  gapAt_self (stops_cons.mpr hc)

theorem blanksAt_word {word : Text} (hword : IsWord word) (rest : Text) :
    BlanksAt (' ' :: (word ++ rest)) (word ++ rest) :=
  (gapAt_self (hword.stops_isBlank rest)).cons rfl

theorem blanksAt_keyword (k : Keyword) (rest : Text) :
    BlanksAt (' ' :: (k.spelling ++ rest)) (k.spelling ++ rest) :=
  blanksAt_word (isWord_spelling k) rest

theorem stringAt_renderLiteral {literal : Text} (h : '"' ∉ literal ∨ '\x27' ∉ literal)
    (rest : Text) : StringAt literal (renderLiteral literal rest) rest := by
  unfold renderLiteral
  split
  · next hquote => exact .single (h.resolve_left fun hnot => hnot hquote)
  · next hquote => exact .double hquote

theorem stops_isBlank_renderLiteral (literal rest : Text) :
    Stops isBlank (renderLiteral literal rest) := by
  unfold renderLiteral
  split <;> exact stops_cons.mpr rfl

theorem paramAt_render {param : Param} (hname : IsName param.var.name)
    (hrest : Stops isWordPart rest) :
    ParamAt (fun _ => 0) (param.render rest) param.bare rest :=
  .spell (nameAt_cons hname rfl _) (blanksAt_keyword param.type.keyword _)
    (keywordAt_cons _ rfl _) (blanksAt_keyword param.direction.keyword _)
    (keywordAt_spelling _ hrest)

theorem ParamsAt.stops_isBlank {line : Text → Nat} {params : List Param}
    (h : ParamsAt line text params rest) : Stops isBlank text := by
  cases h with
  | last hparam | more hparam =>
      cases hparam with
      | spell hname => exact hname.1.stops_isBlank

theorem paramsAt_renderAll {params : List Param} (hne : params ≠ [])
    (hnames : ∀ param ∈ params, IsName param.var.name) (hrest : Stops isWordPart rest) :
    ParamsAt (fun _ => 0) (Param.renderAll params rest) (params.map Param.bare) rest := by
  fun_induction Param.renderAll params rest with
  | case1 => exact absurd rfl hne
  | case2 param rest => exact .last (paramAt_render (hnames param List.mem_cons_self) hrest)
  | case3 param params rest hmore ih =>
      have hparam := paramAt_render (hnames param List.mem_cons_self)
        (stops_cons.mpr rfl : Stops isWordPart (',' :: Param.renderAll params rest))
      have hparams := ih hmore (fun p hp => hnames p (List.mem_cons_of_mem param hp)) hrest
      exact .more hparam (gapAt_cons rfl _) (gapAt_self hparams.stops_isBlank) hparams

theorem procedureAt_render {header : Header} (h : (Statement.procedure header).Speakable)
    (hrest : Stops isWordPart rest) :
    ProcedureAt (fun _ => 0) (header.render rest) (.procedure header.bare) rest := by
  have hname : IsName header.name.name := h.names _ List.mem_cons_self
  have hnames : ∀ param ∈ header.params, IsName param.var.name := fun param hparam =>
    h.names _ (List.mem_cons_of_mem _ (List.mem_map_of_mem hparam))
  have hparams := paramsAt_renderAll h.parts hnames
    (stops_cons.mpr rfl : Stops isWordPart (')' :: (Keyword.is.spelling ++ rest)))
  exact .spell (keywordAt_cons .create rfl _) (blanksAt_keyword .or _)
    (keywordAt_cons .or rfl _) (blanksAt_keyword .replace _)
    (keywordAt_cons .replace rfl _) (blanksAt_keyword .procedure _)
    (keywordAt_cons .procedure rfl _) (blanksAt_word hname.1 _)
    (nameAt_cons hname rfl _) (gapAt_cons rfl _)
    (gapAt_self hparams.stops_isBlank) hparams (gapAt_cons rfl _)
    (gapAt_self ((isWord_spelling .is).stops_isBlank _)) (keywordAt_spelling .is hrest)

/-- A statement that can be written is read where it is printed, if it
can end there. -/
theorem statementAt_render {statement : Statement} (h : statement.Speakable) {sigil : Bool}
    (hrest : statement.shape.Admits sigil rest) :
    StatementAt (fun _ => 0) (statement.render sigil rest) statement.bare rest := by
  cases statement with
  | assignment line var literal =>
      have hname : IsName var.name := h.names _ List.mem_cons_self
      have hliteral := stringAt_renderLiteral h.parts
      have hgap := fun rest => gapAt_self (stops_isBlank_renderLiteral literal rest)
      cases sigil with
      | true =>
          exact .sigilAssignment <| .spell (nameAt_cons hname rfl _) (gapAt_cons rfl _) (hgap _)
            (hliteral _) (gapAt_self (hrest rfl))
      | false =>
          exact .colonAssignment <| .spell (nameAt_cons hname rfl _) (gapAt_cons rfl _) (hgap _)
            (hliteral _) (gapAt_cons rfl _)
  | print line var =>
      have hname : IsName var.name := h.names _ List.mem_cons_self
      exact .print <| .spell (keywordAt_cons .print rfl _) (gapAt_cons rfl _) (gapAt_cons rfl _)
        (nameAt_cons hname rfl _) (gapAt_cons rfl _) (gapAt_self hrest)
  | procedure header => exact .procedure (procedureAt_render h hrest)
  | declaration line var type =>
      have hname : IsName var.name := h.names _ List.mem_cons_self
      exact .declaration <| .spell (nameAt_cons hname rfl _) (blanksAt_keyword type.keyword _)
        (keywordAt_cons _ rfl _) (gapAt_cons rfl _)
  | blockStart line => exact .blockStart (.spell (keywordAt_spelling .beginBlock hrest))
  | execute line sql =>
      have hname : IsName sql.name := h.names _ List.mem_cons_self
      exact .execute <| .spell (keywordAt_cons .execute rfl _) (blanksAt_keyword .immediate _)
        (keywordAt_cons .immediate rfl _) (blanksAt_word hname.1 _) (nameAt_cons hname rfl _)
        (gapAt_cons rfl _)
  | blockEnd line =>
      have hend : KeywordAt .endBlock (Keyword.endBlock.spelling ++ ';' :: rest)
          ([] ++ ';' :: rest) := keywordAt_cons .endBlock rfl rest
      exact .blockEnd (.spell hend List.not_mem_nil)
  | blank line => exact .blank (.spell ((gapAt_self hrest).cons rfl))

end Grammar

end StoredProc
