import StoredProc.Proofs.Statement.Reading

/-!
The forms of a statement, each by its rule of the grammar. A form is the
composition of its parts, so its proof lists the parts in order and then
passes between the composition and the rule, once in each direction. The
token that a form begins with tells it from the others.
-/

namespace StoredProc

open Text Grammar Scan

namespace Grammar

variable {text mid rest : Text}

/-- Layout is skipped once. A second time there is none left. -/
theorem GapAt.eq_of_gapAt (h : GapAt text mid) (h' : GapAt mid rest) : mid = rest := by
  obtain ⟨run, rfl, hrun, -⟩ := h'
  cases run with
  | nil => rfl
  | cons c run =>
      have hstop := h.stops
      rw [List.cons_append, stops_cons, hrun c List.mem_cons_self] at hstop
      cases hstop

theorem stops_isBlank_of_mark {c : Char} {kind : Kind} (hc : Kind.ofPunctuation? c = some kind)
    (rest : Text) : Stops isBlank (c :: rest) :=
  stops_cons.mpr (Kind.isBlank_isWordPart_of_ofPunctuation? hc).1

theorem NameAt.next {name : Text} (h : NameAt name text rest) : Next text .name := by
  obtain ⟨⟨htext, hword, hrest⟩, hk⟩ := h
  exact ⟨name, rest, htext, Cut.name_iff.mpr ⟨hword, hk, hrest⟩⟩

end Grammar

theorem next_mark {c : Char} {kind : Kind} (hc : Kind.ofPunctuation? c = some kind)
    (rest : Text) : Next (c :: rest) kind :=
  ⟨[c], rest, rfl, .punctuation hc⟩

namespace Statement.Parse

variable {last : Nat} {after : Text → Prop}

theorem reads_spaced {kind : Kind} {R : Text → Token → Text → Prop}
    (h : Reads last Opens after (expect kind) R) :
    Reads last Opens after (expectSpaced kind) fun text token rest =>
      ∃ mid, GapAt text mid ∧ R mid token rest := by
  refine (reads_gap.bind fun _ => h).congr ?_ ?_
  · rintro text token rest ⟨-, mid, hgap, hR⟩
    exact ⟨mid, hgap, hR⟩
  · rintro text token rest ⟨mid, hgap, hR⟩ -
    exact ⟨(), mid, hgap, hR⟩

theorem reads_sigilVariable :
    Reads last Opens after sigilVariable fun text var rest =>
      ∃ name tail, text = '$' :: tail ∧ NameAt name tail rest ∧ var = ⟨lineAt last text, name⟩ := by
  refine ((reads_mark '$' rfl).bind fun _ => reads_name.bind fun _ => reads_pure _).congr ?_ ?_
  · rintro text var rest ⟨_, tail, ⟨htext, rfl⟩, _, _, ⟨name, hname, rfl⟩, rfl, rfl⟩
    exact ⟨name, tail, htext, hname, rfl⟩
  · rintro text var rest ⟨name, tail, htext, hname, rfl⟩ -
    exact ⟨_, tail, ⟨htext, rfl⟩, _, rest, ⟨name, hname, rfl⟩, rfl, rfl⟩

/-! ### Parameters -/

theorem reads_param :
    Reads last Opens after param fun text param rest =>
      ∃ mid, GapAt text mid ∧ ParamAt (lineAt last) mid param rest := by
  refine ((reads_spaced reads_name).bind fun _ => reads_gap.bind fun _ =>
    reads_valueType.bind fun _ => reads_gap.bind fun _ =>
      reads_direction.bind fun _ => reads_pure _).congr ?_ ?_
  · rintro text _ rest ⟨_, t₁, ⟨mid, hgap, name, hname, rfl⟩, -, t₂, h₁, type, t₃, htype, -, t₄, h₂,
      direction, _, hdirection, rfl, rfl⟩
    obtain ⟨typeWord, htypeWord, -⟩ := id htype
    obtain ⟨directionWord, hdirectionWord, -⟩ := id hdirection
    exact ⟨mid, hgap, .spell hname (h₁.blanksAt hname.1 htypeWord) htype
      (h₂.blanksAt htypeWord hdirectionWord) hdirection⟩
  · rintro text _ rest ⟨mid, hgap, hname, h₁, htype, h₂, hdirection⟩ -
    exact ⟨_, _, ⟨mid, hgap, _, hname, rfl⟩, (), _, h₁.gapAt, _, _, htype, (), _, h₂.gapAt, _, _,
      hdirection, rfl, rfl⟩

/-- What follows a parameter: a comma and another one, or neither. The
layout before the end of the list is taken with the list. -/
def NextParamAt (line : Text → Nat) (text : Text) : Option Param → Text → Prop
  | some param, rest =>
      ∃ t₁ t₂, GapAt text (',' :: t₁) ∧ GapAt t₁ t₂ ∧ ParamAt line t₂ param rest
  | none, rest => GapAt text rest ∧ ¬ Next rest .comma

theorem reads_nextParam :
    Reads last Opens Opens nextParam (NextParamAt (lineAt last)) := by
  refine (reads_gap.bind fun _ => reads_peekKind.bind (S := fun kind text found rest =>
    if kind = .comma then ∃ param t₁ t₂, found = some param ∧ text = ',' :: t₁ ∧ GapAt t₁ t₂ ∧
      ParamAt (lineAt last) t₂ param rest
    else found = none ∧ rest = text) fun kind => ?_).congr ?_ ?_
  · split
    · refine ((reads_mark ',' rfl).bind fun _ => reads_param.bind fun _ =>
        reads_pure _).congr ?_ ?_
      · rintro text _ rest ⟨_, t₁, ⟨htext, rfl⟩, param, _, ⟨t₂, hgap, hparam⟩, rfl, rfl⟩
        exact ⟨param, t₁, t₂, rfl, htext, hgap, hparam⟩
      · rintro text _ rest ⟨param, t₁, t₂, rfl, htext, hgap, hparam⟩ -
        exact ⟨_, t₁, ⟨htext, rfl⟩, param, rest, ⟨t₂, hgap, hparam⟩, rfl, rfl⟩
    · exact reads_pure none
  · rintro text found rest ⟨-, mid, hgap, kind, _, ⟨rfl, hnext⟩, h⟩
    split at h
    · obtain ⟨param, t₁, t₂, rfl, rfl, hgap', hparam⟩ := h
      exact ⟨t₁, t₂, hgap, hgap', hparam⟩
    · next hkind =>
        obtain ⟨rfl, rfl⟩ := h
        exact ⟨hgap, fun hcomma => hkind (hnext.unique hcomma)⟩
  · intro text found rest h hrest
    cases found with
    | some param =>
        obtain ⟨t₁, t₂, hgap, hgap', hparam⟩ := h
        refine ⟨(), ',' :: t₁, hgap, .comma, ',' :: t₁, ⟨rfl, next_mark rfl t₁⟩, ?_⟩
        rw [if_pos rfl]
        exact ⟨param, t₁, t₂, rfl, rfl, hgap', hparam⟩
    | none =>
        obtain ⟨hgap, hcomma⟩ := h
        obtain ⟨kind, hnext⟩ := hrest.lexes
        have hkind : kind ≠ .comma := by
          rintro rfl
          exact hcomma hnext
        refine ⟨(), rest, hgap, kind, rest, ⟨rfl, hnext⟩, ?_⟩
        rw [if_neg hkind]
        exact ⟨rfl, rfl⟩

/-- A parameter and the ones that follow it are a list by the rule. -/
theorem paramsAt_of_repeats {line : Text → Nat} {text mid rest : Text} {param : Param}
    {params : List Param} (hparam : ParamAt line text param mid)
    (h : Repeats (NextParamAt line) mid params rest) :
    ∃ stop, ParamsAt line text (param :: params) stop ∧ GapAt stop rest ∧ ¬ Next rest .comma := by
  induction h generalizing text param with
  | done h => exact ⟨_, .last hparam, h⟩
  | more h hmore ih =>
      obtain ⟨t₁, t₂, hgap, hgap', hnext⟩ := h
      obtain ⟨stop, hparams, hrest⟩ := ih hnext
      exact ⟨stop, .more hparam hgap hgap' hparams, hrest⟩

theorem repeats_of_paramsAt {line : Text → Nat} {text stop rest : Text} {params : List Param}
    (h : ParamsAt line text params stop) (hgap : GapAt stop rest) (hcomma : ¬ Next rest .comma) :
    ∃ first others mid, params = first :: others ∧ ParamAt line text first mid ∧
      Repeats (NextParamAt line) mid others rest := by
  induction h with
  | last hparam => exact ⟨_, [], _, rfl, hparam, .done ⟨hgap, hcomma⟩⟩
  | more hparam h₁ h₂ hmore ih =>
      obtain ⟨first, others, mid, rfl, hfirst, hothers⟩ := ih hgap
      exact ⟨_, first :: others, _, rfl, hparam, .more ⟨_, _, h₁, h₂, hfirst⟩ hothers⟩

theorem reads_params :
    Reads last Opens Opens params fun text params rest =>
      ∃ t₁ t₂, GapAt text t₁ ∧ ParamsAt (lineAt last) t₁ params t₂ ∧ GapAt t₂ rest ∧
        ¬ Next rest .comma := by
  refine (reads_param.bind fun _ =>
    (reads_many advancing_nextParam reads_nextParam).bind fun _ => reads_pure _).congr ?_ ?_
  · rintro text _ rest ⟨first, mid, ⟨t₁, hgap, hfirst⟩, others, _, hothers, rfl, rfl⟩
    obtain ⟨t₂, hparams, hrest⟩ := paramsAt_of_repeats hfirst hothers
    exact ⟨t₁, t₂, hgap, hparams, hrest⟩
  · rintro text _ rest ⟨t₁, t₂, hgap, hparams, hrest, hcomma⟩ -
    obtain ⟨first, others, mid, rfl, hfirst, hothers⟩ := repeats_of_paramsAt hparams hrest hcomma
    exact ⟨first, mid, ⟨t₁, hgap, hfirst⟩, others, rest, hothers, rfl, rfl⟩

/-! ### Assignments and declarations -/

theorem reads_sigilAssignment :
    Reads last Opens Opens sigilAssignment (SigilAssignmentAt (lineAt last)) := by
  refine (reads_sigilVariable.bind fun _ => (reads_spaced (reads_mark '=' rfl)).bind fun _ =>
    reads_gapLexes.bind fun _ => reads_literal.bind fun _ => reads_gap.bind fun _ =>
      reads_pure _).congr ?_ ?_
  · rintro text _ rest ⟨_, t₂, ⟨name, t₁, rfl, hname, rfl⟩, _, t₃, ⟨_, h₁, rfl, -⟩, -, t₄, h₂,
      literal, t₅, hliteral, -, _, h₃, rfl, rfl⟩
    exact .spell hname h₁ h₂ hliteral h₃
  · rintro text _ rest ⟨hname, h₁, h₂, hliteral, h₃⟩ -
    exact ⟨_, _, ⟨_, _, rfl, hname, rfl⟩, _, _, ⟨_, h₁, rfl, rfl⟩, (), _, h₂, _, _, hliteral, (), _,
      h₃, rfl, rfl⟩

/-- `type;`, after the name it declares. -/
def DeclaresAt (name : Token) (text : Text) (statement : Statement) (rest : Text) : Prop :=
  ∃ type mid, KeywordAt type.keyword text mid ∧ GapAt mid (';' :: rest) ∧
    statement = .declaration name.line (plainVariable name) type

/-- `:= literal;`, after the name it assigns to. -/
def AssignsAt (name : Token) (text : Text) (statement : Statement) (rest : Text) : Prop :=
  ∃ literal t₁ t₂ t₃, text = ':' :: '=' :: t₁ ∧ GapAt t₁ t₂ ∧ StringAt literal t₂ t₃ ∧
    GapAt t₃ (';' :: rest) ∧ statement = .assignment name.line (plainVariable name) literal

theorem reads_declarationOf (name : Token) :
    Reads last Opens after (declarationOf name) (DeclaresAt name) := by
  refine (reads_valueType.bind fun _ => (reads_spaced (reads_mark ';' rfl)).bind fun _ =>
    reads_pure _).congr ?_ ?_
  · rintro text _ rest ⟨type, mid, htype, _, _, ⟨_, hgap, rfl, -⟩, rfl, rfl⟩
    exact ⟨type, mid, htype, hgap, rfl⟩
  · rintro text _ rest ⟨type, mid, htype, hgap, rfl⟩ -
    exact ⟨type, mid, htype, _, _, ⟨_, hgap, rfl, rfl⟩, rfl, rfl⟩

theorem reads_assignmentTo (name : Token) :
    Reads last Opens after (assignmentTo name) (AssignsAt name) := by
  refine ((reads_mark ':' rfl).bind fun _ => (reads_mark '=' rfl).bind fun _ =>
    reads_gapLexes.bind fun _ => reads_literal.bind fun _ =>
      (reads_spaced (reads_mark ';' rfl)).bind fun _ => reads_pure _).congr ?_ ?_
  · rintro text _ rest ⟨_, _, ⟨rfl, -⟩, _, t₁, ⟨rfl, -⟩, -, t₂, h₁, literal, t₃, hliteral, _, _,
      ⟨_, h₂, rfl, -⟩, rfl, rfl⟩
    exact ⟨literal, t₁, t₂, t₃, rfl, h₁, hliteral, h₂, rfl⟩
  · rintro text _ rest ⟨literal, t₁, t₂, t₃, rfl, h₁, hliteral, h₂, rfl⟩ -
    exact ⟨_, _, ⟨rfl, rfl⟩, _, t₁, ⟨rfl, rfl⟩, (), t₂, h₁, literal, t₃, hliteral, _, _,
      ⟨_, h₂, rfl, rfl⟩, rfl, rfl⟩

/-- What may follow a name at the beginning of a statement, by the token
it begins with. -/
def NamedOf (name : Token) (text : Text) (statement : Statement) (rest : Text) : Kind → Prop
  | .keyword .integer | .keyword .char => DeclaresAt name text statement rest
  | .colon => AssignsAt name text statement rest
  | _ => False

theorem NamedOf.cases {name : Token} {text : Text} {statement : Statement} {rest : Text}
    {kind : Kind} (h : NamedOf name text statement rest kind) :
    DeclaresAt name text statement rest ∨ AssignsAt name text statement rest := by
  unfold NamedOf at h
  split at h
  · exact .inl h
  · exact .inl h
  · exact .inr h
  · exact h.elim

theorem DeclaresAt.namedOf {name : Token} {text : Text} {statement : Statement} {rest : Text}
    (h : DeclaresAt name text statement rest) :
    ∃ kind, Next text kind ∧ NamedOf name text statement rest kind := by
  obtain ⟨type, mid, htype, hrest⟩ := h
  refine ⟨.keyword type.keyword, htype.next, ?_⟩
  cases type with
  | integer => exact ⟨.integer, mid, htype, hrest⟩
  | char => exact ⟨.char, mid, htype, hrest⟩

theorem AssignsAt.namedOf {name : Token} {text : Text} {statement : Statement} {rest : Text}
    (h : AssignsAt name text statement rest) :
    ∃ kind, Next text kind ∧ NamedOf name text statement rest kind := by
  obtain ⟨literal, t₁, t₂, t₃, rfl, hrest⟩ := h
  exact ⟨.colon, next_mark rfl _, literal, t₁, t₂, t₃, rfl, hrest⟩

theorem reads_declarationOrAssignment :
    Reads last Opens after declarationOrAssignment fun text statement rest =>
      DeclarationAt (lineAt last) text statement rest ∨
        ColonAssignmentAt (lineAt last) text statement rest := by
  refine (reads_name.bind fun name => reads_gap.bind fun _ => reads_peekKind.bind
    (S := fun kind text statement rest => NamedOf name text statement rest kind)
    fun kind => ?_).congr ?_ ?_
  · cases kind with
    | keyword k =>
        cases k with
        | integer => exact reads_declarationOf name
        | char => exact reads_declarationOf name
        | _ => exact reads_unexpected _
    | colon => exact reads_assignmentTo name
    | _ => exact reads_unexpected _
  · rintro text statement rest ⟨_, t₁, ⟨name, hname, rfl⟩, -, t₂, hgap, kind, _, ⟨rfl, -⟩, h⟩
    rcases h.cases with
      ⟨type, t₃, htype, h₂, rfl⟩ | ⟨literal, t₃, t₄, t₅, rfl, h₂, hliteral, h₃, rfl⟩
    · obtain ⟨word, hword, -⟩ := id htype
      exact .inl (.spell hname (hgap.blanksAt hname.1 hword) htype h₂)
    · exact .inr (.spell hname hgap h₂ hliteral h₃)
  · rintro text statement rest (⟨hname, h₁, htype, h₂⟩ | ⟨hname, h₁, h₂, hliteral, h₃⟩) -
    · obtain ⟨kind, hnext, h⟩ := DeclaresAt.namedOf ⟨_, _, htype, h₂, rfl⟩
      exact ⟨_, _, ⟨_, hname, rfl⟩, (), _, h₁.gapAt, kind, _, ⟨rfl, hnext⟩, h⟩
    · obtain ⟨kind, hnext, h⟩ := AssignsAt.namedOf ⟨_, _, _, _, rfl, h₂, hliteral, h₃, rfl⟩
      exact ⟨_, _, ⟨_, hname, rfl⟩, (), _, h₁, kind, _, ⟨rfl, hnext⟩, h⟩

/-! ### Procedures and their bodies -/

theorem reads_procedureHeader :
    Reads last Opens after procedureHeader (ProcedureAt (lineAt last)) := by
  refine ((reads_keyword .create).bind fun _ => (reads_spaced (reads_keyword .or)).bind fun _ =>
    (reads_spaced (reads_keyword .replace)).bind fun _ =>
      (reads_spaced (reads_keyword .procedure)).bind fun _ =>
        (reads_spaced reads_name).bind fun _ => (reads_spaced (reads_mark '(' rfl)).bind fun _ =>
          reads_params.bind fun _ => (reads_spaced (reads_mark ')' rfl)).bind fun _ =>
            (reads_spaced (reads_keyword .is)).bind fun _ => reads_pure _).congr ?_ ?_
  · rintro text statement rest ⟨_, t₁, hcreate, _, t₃, hor, _, t₅, hreplace, _, t₇, hprocedure, _,
      t₉, hname, _, t₁₀, hopen, params, t₁₂, hparams, _, t₁₃, hclose, _, _, his, hstatement, hrest⟩
    obtain ⟨create, hcreate, hcreate', rfl⟩ := hcreate
    obtain ⟨t₂, h₁, or, hor, hor', -⟩ := hor
    obtain ⟨t₄, h₂, replace, hreplace, hreplace', -⟩ := hreplace
    obtain ⟨t₆, h₃, procedure, hprocedure, hprocedure', -⟩ := hprocedure
    obtain ⟨t₈, h₄, name, hname, rfl⟩ := hname
    obtain ⟨_, h₅, rfl, -⟩ := hopen
    obtain ⟨t₁₁, stop, h₆, hparams, h₇, -⟩ := hparams
    obtain ⟨_, h₇', rfl, -⟩ := hclose
    obtain ⟨t₁₄, h₈, is, his, his', -⟩ := his
    -- The list has taken the layout before the parenthesis already.
    obtain rfl := h₇.eq_of_gapAt h₇'
    rw [hstatement, hrest]
    exact .spell ⟨create, hcreate, hcreate'⟩ (h₁.blanksAt hcreate hor) ⟨or, hor, hor'⟩
      (h₂.blanksAt hor hreplace) ⟨replace, hreplace, hreplace'⟩ (h₃.blanksAt hreplace hprocedure)
      ⟨procedure, hprocedure, hprocedure'⟩ (h₄.blanksAt hprocedure hname.1) hname h₅ h₆ hparams h₇
      h₈ ⟨is, his, his'⟩
  · rintro text _ rest ⟨⟨create, hcreate, hcreate'⟩, h₁, ⟨or, hor, hor'⟩, h₂,
      ⟨replace, hreplace, hreplace'⟩, h₃, ⟨procedure, hprocedure, hprocedure'⟩, h₄, hname, h₅, h₆,
      hparams, h₇, h₈, ⟨is, his, his'⟩⟩ -
    have hcomma {tail : Text} : ¬ Next (')' :: tail) .comma := by
      intro h
      cases h.unique (next_mark rfl tail)
    exact ⟨_, _, ⟨create, hcreate, hcreate', rfl⟩, _, _, ⟨_, h₁.gapAt, or, hor, hor', rfl⟩, _, _,
      ⟨_, h₂.gapAt, replace, hreplace, hreplace', rfl⟩, _, _,
      ⟨_, h₃.gapAt, procedure, hprocedure, hprocedure', rfl⟩, _, _, ⟨_, h₄.gapAt, _, hname, rfl⟩, _,
      _, ⟨_, h₅, rfl, rfl⟩, _, _, ⟨_, _, h₆, hparams, h₇, hcomma⟩, _, _,
      ⟨_, gapAt_self (stops_isBlank_of_mark rfl _), rfl, rfl⟩, _, _, ⟨_, h₈, is, his, his', rfl⟩,
      rfl, rfl⟩

theorem reads_begin : Reads last Opens after begin (BlockStartAt (lineAt last)) := by
  refine ((reads_keyword .beginBlock).bind fun _ => reads_pure _).congr ?_ ?_
  · rintro text _ rest ⟨_, _, ⟨word, hword, hk, rfl⟩, rfl, rfl⟩
    exact .spell ⟨word, hword, hk⟩
  · rintro text _ rest ⟨word, hword, hk⟩ -
    exact ⟨_, _, ⟨word, hword, hk, rfl⟩, rfl, rfl⟩

theorem reads_executeImmediate :
    Reads last Opens after executeImmediate (ExecuteAt (lineAt last)) := by
  refine ((reads_keyword .execute).bind fun _ =>
    (reads_spaced (reads_keyword .immediate)).bind fun _ => (reads_spaced reads_name).bind fun _ =>
      (reads_spaced (reads_mark ';' rfl)).bind fun _ => reads_pure _).congr ?_ ?_
  · rintro text _ rest ⟨_, t₁, ⟨execute, hexecute, hexecute', rfl⟩, _, t₃,
      ⟨t₂, h₁, immediate, himmediate, himmediate', -⟩, _, t₅, ⟨t₄, h₂, name, hname, rfl⟩, _, _,
      ⟨_, h₃, rfl, -⟩, rfl, rfl⟩
    exact .spell ⟨execute, hexecute, hexecute'⟩ (h₁.blanksAt hexecute himmediate)
      ⟨immediate, himmediate, himmediate'⟩ (h₂.blanksAt himmediate hname.1) hname h₃
  · rintro text _ rest ⟨⟨execute, hexecute, hexecute'⟩, h₁, ⟨immediate, himmediate, himmediate'⟩,
      h₂, hname, h₃⟩ -
    exact ⟨_, _, ⟨execute, hexecute, hexecute', rfl⟩, _, _,
      ⟨_, h₁.gapAt, immediate, himmediate, himmediate', rfl⟩, _, _, ⟨_, h₂.gapAt, _, hname, rfl⟩, _,
      _, ⟨_, h₃, rfl, rfl⟩, rfl, rfl⟩

theorem ending_eq :
    ending =
      (do
        let found ← expectRaw (.keyword .endBlock) ';'
        let _ ← expect .semicolon
        return .blockEnd found.1.line) := by
  simp only [ending, expectRaw, bind_assoc, pure_bind]

theorem reads_ending : Reads last Opens after ending (BlockEndAt (lineAt last)) := by
  have hopens : ∀ text, Next text (.keyword .endBlock) → Opens text := fun _ h => ⟨_, h, rfl⟩
  rw [ending_eq]
  refine ((reads_expectRaw rfl hopens).bind fun _ => (reads_mark ';' rfl).bind fun _ =>
    reads_pure _).congr ?_ ?_
  · rintro text _ rest ⟨⟨⟨line, kind, word⟩, skipped⟩, _,
      ⟨tail, ⟨htext, hcut, rfl⟩, hkind, hskipped, rfl⟩, _, _, ⟨htail, -⟩, rfl, rfl⟩
    cases hkind
    obtain ⟨-, rfl⟩ := List.cons.inj htail
    obtain ⟨hword, hk, hrest⟩ := Cut.keyword_iff.mp hcut
    exact .spell ⟨word, ⟨htext, hword, hrest⟩, hk⟩ hskipped
  · rintro text _ rest ⟨⟨word, ⟨htext, hword, hrest⟩, hk⟩, hskipped⟩ -
    exact ⟨(⟨_, .keyword .endBlock, word⟩, _), _,
      ⟨rest, ⟨htext, Cut.keyword_iff.mpr ⟨hword, hk, hrest⟩, rfl⟩, rfl, hskipped, rfl⟩, _, _,
      ⟨rfl, rfl⟩, rfl, rfl⟩

/-! ### Layout and printing -/

theorem reads_blanks : Reads last Opens after blanks (BlankAt (lineAt last)) := by
  refine ((reads_blank fun _ h => ⟨_, h, rfl⟩).bind fun _ => reads_pure _).congr ?_ ?_
  · rintro text _ rest ⟨_, _, ⟨run, htext, hne, hrun, hrest, rfl⟩, rfl, rfl⟩
    exact .spell ⟨run, htext, hne, hrun, hrest⟩
  · rintro text _ rest ⟨run, htext, hne, hrun, hrest⟩ -
    exact ⟨_, _, ⟨run, htext, hne, hrun, hrest, rfl⟩, rfl, rfl⟩

theorem reads_printing : Reads last Opens Opens printing (PrintAt (lineAt last)) := by
  refine ((reads_keyword .print).bind fun _ => (reads_spaced (reads_mark '(' rfl)).bind fun _ =>
    reads_gap.bind fun _ => reads_sigilVariable.bind fun _ =>
      (reads_spaced (reads_mark ')' rfl)).bind fun _ => reads_gap.bind fun _ =>
        reads_pure _).congr ?_ ?_
  · rintro text _ rest ⟨_, t₁, ⟨word, hword, hk, rfl⟩, _, t₂, ⟨_, h₁, rfl, -⟩, -, _, h₂, _, t₄,
      ⟨name, t₃, rfl, hname, rfl⟩, _, t₅, ⟨_, h₃, rfl, -⟩, -, _, h₄, rfl, rfl⟩
    exact .spell ⟨word, hword, hk⟩ h₁ h₂ hname h₃ h₄
  · rintro text _ rest ⟨⟨word, hword, hk⟩, h₁, h₂, hname, h₃, h₄⟩ -
    exact ⟨_, _, ⟨word, hword, hk, rfl⟩, _, _, ⟨_, h₁, rfl, rfl⟩, (), _, h₂, _, _,
      ⟨_, _, rfl, hname, rfl⟩, _, _, ⟨_, h₃, rfl, rfl⟩, (), _, h₄, rfl, rfl⟩

end Statement.Parse

/-! ### Statements -/

namespace Statement

open Parse

/-- What the grammar has of statements, by the token that a statement
begins with. -/
def FormOf (line : Text → Nat) (text : Text) (statement : Statement) (rest : Text) : Kind → Prop
  | .dollar => SigilAssignmentAt line text statement rest
  | .name => DeclarationAt line text statement rest ∨ ColonAssignmentAt line text statement rest
  | .keyword .create => ProcedureAt line text statement rest
  | .keyword .beginBlock => BlockStartAt line text statement rest
  | .keyword .execute => ExecuteAt line text statement rest
  | .keyword .endBlock => BlockEndAt line text statement rest
  | .keyword .print => PrintAt line text statement rest
  | .blank => BlankAt line text statement rest
  | _ => False

theorem FormOf.statementAt {line : Text → Nat} {text rest : Text} {statement : Statement}
    {kind : Kind} (h : FormOf line text statement rest kind) :
    StatementAt line text statement rest := by
  unfold FormOf at h
  split at h
  · exact .sigilAssignment h
  · exact h.elim .declaration .colonAssignment
  · exact .procedure h
  · exact .blockStart h
  · exact .execute h
  · exact .blockEnd h
  · exact .print h
  · exact .blank h
  · exact h.elim

/-- No two forms begin with the same token, but for the two that begin
with a name. -/
theorem formOf_of_statementAt {line : Text → Nat} {text rest : Text} {statement : Statement}
    (h : StatementAt line text statement rest) :
    ∃ kind, Next text kind ∧ FormOf line text statement rest kind := by
  cases h with
  | sigilAssignment h =>
      refine ⟨.dollar, ?_, h⟩
      cases h
      exact next_mark rfl _
  | declaration h =>
      refine ⟨.name, ?_, .inl h⟩
      cases h with
      | spell hname => exact hname.next
  | colonAssignment h =>
      refine ⟨.name, ?_, .inr h⟩
      cases h with
      | spell hname => exact hname.next
  | procedure h =>
      refine ⟨.keyword .create, ?_, h⟩
      cases h with
      | spell hcreate => exact hcreate.next
  | blockStart h =>
      refine ⟨.keyword .beginBlock, ?_, h⟩
      cases h with
      | spell hbegin => exact hbegin.next
  | execute h =>
      refine ⟨.keyword .execute, ?_, h⟩
      cases h with
      | spell hexecute => exact hexecute.next
  | blockEnd h =>
      refine ⟨.keyword .endBlock, ?_, h⟩
      cases h with
      | spell hend => exact hend.next
  | blank h =>
      refine ⟨.blank, ?_, h⟩
      cases h with
      | spell h => exact next_blank_iff.mpr ⟨rest, h⟩
  | print h =>
      refine ⟨.keyword .print, ?_, h⟩
      cases h with
      | spell hprint => exact hprint.next

theorem reads_parse {last : Nat} : Reads last Opens Opens parse (StatementAt (lineAt last)) := by
  refine (reads_peekKind.bind (S := fun kind text statement rest =>
    FormOf (lineAt last) text statement rest kind) fun kind => ?_).congr ?_ ?_
  · cases kind with
    | dollar => exact reads_sigilAssignment
    | name => exact reads_declarationOrAssignment
    | keyword k =>
        cases k with
        | create => exact reads_procedureHeader
        | beginBlock => exact reads_begin
        | execute => exact reads_executeImmediate
        | endBlock => exact reads_ending
        | print => exact reads_printing
        | _ => exact reads_unexpected _
    | blank => exact reads_blanks
    | _ => exact reads_unexpected _
  · rintro text statement rest ⟨kind, _, ⟨rfl, -⟩, h⟩
    exact h.statementAt
  · rintro text statement rest h -
    obtain ⟨kind, hnext, h⟩ := formOf_of_statementAt h
    exact ⟨kind, text, ⟨rfl, hnext⟩, h⟩

end Statement

end StoredProc
