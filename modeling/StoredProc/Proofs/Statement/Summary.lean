import StoredProc.Proofs.Program.Image
import StoredProc.Proofs.Text.Quoted

/-!
What a summary shows. A summary begins with the word for its form, and
goes on with names, each of which ends where something stands that is no
part of a word. A list of parameters goes on behind a comma and ends
before a parenthesis, and a literal is read back from between its quotes.
So the parts of a statement are cut off its summary one after another,
and two statements with the same summary have the same parts.
-/

namespace StoredProc

open Text

/-! ### Words in front of something else -/

theorem Text.IsWord.append_inj {a b x y : Text} (ha : IsWord a) (hb : IsWord b)
    (hx : Stops isWordPart x) (hy : Stops isWordPart y) (h : a ++ x = b ++ y) :
    a = b ∧ x = y := by
  have htake := congrArg (List.takeWhile isWordPart) h
  have hdrop := congrArg (List.dropWhile isWordPart) h
  rw [takeWhile_append_of_stops ha.forall_isWordPart hx,
    takeWhile_append_of_stops hb.forall_isWordPart hy] at htake
  rw [dropWhile_append_of_stops ha.forall_isWordPart hx,
    dropWhile_append_of_stops hb.forall_isWordPart hy] at hdrop
  exact ⟨htake, hdrop⟩

theorem Text.stops_space (rest : Text) : Stops isWordPart (' ' :: rest) :=
  stops_cons.mpr (by decide)

theorem ValueType.isWord_spelling (type : ValueType) : IsWord type.spelling := by
  cases type <;> decide

theorem ValueType.spelling_inj {a b : ValueType} (h : a.spelling = b.spelling) : a = b := by
  cases a <;> cases b <;> first | rfl | exact absurd h (by decide)

theorem Direction.isWord_spelling (direction : Direction) : IsWord direction.spelling := by
  cases direction <;> decide

theorem Direction.spelling_inj {a b : Direction} (h : a.spelling = b.spelling) : a = b := by
  cases a <;> cases b <;> first | rfl | exact absurd h (by decide)

theorem Variable.bare_eq_iff {v w : Variable} : v.bare = w.bare ↔ v.name = w.name := by
  cases v
  cases w
  simp [bare]

/-! ### Parameters -/

theorem Param.summary_append_inj {p q : Param} {x y : Text} (hp : IsWord p.var.name)
    (hq : IsWord q.var.name) (hx : Stops isWordPart x) (hy : Stops isWordPart y)
    (h : p.summary ++ x = q.summary ++ y) : p.bare = q.bare ∧ x = y := by
  simp only [summary, List.append_assoc, List.cons_append] at h
  obtain ⟨hname, h⟩ := hp.append_inj hq (stops_space _) (stops_space _) h
  obtain ⟨htype, h⟩ := p.type.isWord_spelling.append_inj q.type.isWord_spelling (stops_space _)
    (stops_space _) (List.cons.inj h).2
  obtain ⟨hdirection, hrest⟩ := p.direction.isWord_spelling.append_inj
    q.direction.isWord_spelling hx hy (List.cons.inj h).2
  refine ⟨?_, hrest⟩
  rw [bare, bare, Variable.bare_eq_iff.mpr hname, ValueType.spelling_inj htype,
    Direction.spelling_inj hdirection]

/-- What stands behind a parameter: the others, each behind a comma, and
the parenthesis that ends the list. -/
def Param.closing : List Param → Text
  | [] => [')']
  | param :: params => ',' :: ' ' :: (param.summary ++ closing params)

theorem Param.stops_closing (params : List Param) : Stops isWordPart (closing params) := by
  cases params <;> exact stops_cons.mpr (by decide)

theorem Param.join_summary_cons (param : Param) (params : List Param) :
    join ", ".toList ((param :: params).map summary) ++ [')'] =
      param.summary ++ closing params := by
  induction params generalizing param with
  | nil => rfl
  | cons next params ih =>
      have hjoin : join ", ".toList ((param :: next :: params).map summary) =
          param.summary ++ ',' :: ' ' :: join ", ".toList ((next :: params).map summary) := by
        rw [List.map_cons, List.map_cons, join, ← List.map_cons, List.append_assoc]
        · rfl
        · exact List.cons_ne_nil _ _
      rw [hjoin, List.append_assoc, List.cons_append, List.cons_append, ih, closing]

theorem Param.closing_inj {ps qs : List Param} (hps : ∀ p ∈ ps, IsWord p.var.name)
    (hqs : ∀ q ∈ qs, IsWord q.var.name) (h : closing ps = closing qs) :
    ps.map bare = qs.map bare := by
  induction ps generalizing qs with
  | nil =>
      cases qs with
      | nil => rfl
      | cons q qs => cases h
  | cons p ps ih =>
      cases qs with
      | nil => cases h
      | cons q qs =>
          simp only [closing, List.cons.injEq, true_and] at h
          obtain ⟨hfirst, hothers⟩ := summary_append_inj (hps p List.mem_cons_self)
            (hqs q List.mem_cons_self) (stops_closing ps) (stops_closing qs) h
          rw [List.map_cons, List.map_cons, hfirst,
            ih (fun r hr => hps r (List.mem_cons_of_mem p hr))
              (fun r hr => hqs r (List.mem_cons_of_mem q hr)) hothers]

/-- The parenthesis that closes an empty list is no beginning of a
parameter. -/
theorem Param.summary_append_ne {param : Param} (h : IsWord param.var.name) (rest tail : Text) :
    param.summary ++ rest ≠ ')' :: tail := by
  obtain ⟨c, name, hname, hc⟩ := h.exists_cons
  rw [summary, hname]
  rintro ⟨⟩
  cases hc

theorem Param.join_summary_inj {ps qs : List Param} (hps : ∀ p ∈ ps, IsWord p.var.name)
    (hqs : ∀ q ∈ qs, IsWord q.var.name)
    (h : join ", ".toList (ps.map summary) ++ [')'] =
      join ", ".toList (qs.map summary) ++ [')']) : ps.map bare = qs.map bare := by
  cases ps with
  | nil =>
      cases qs with
      | nil => rfl
      | cons q qs =>
          rw [join_summary_cons] at h
          exact absurd h.symm (summary_append_ne (hqs q List.mem_cons_self) _ _)
  | cons p ps =>
      rw [join_summary_cons] at h
      cases qs with
      | nil => exact absurd h (summary_append_ne (hps p List.mem_cons_self) _ _)
      | cons q qs =>
          rw [join_summary_cons] at h
          obtain ⟨hfirst, hothers⟩ := summary_append_inj (hps p List.mem_cons_self)
            (hqs q List.mem_cons_self) (stops_closing ps) (stops_closing qs) h
          rw [List.map_cons, List.map_cons, hfirst,
            closing_inj (fun r hr => hps r (List.mem_cons_of_mem p hr))
              (fun r hr => hqs r (List.mem_cons_of_mem q hr)) hothers]

/-! ### Forms -/

inductive Form where
  | assignment
  | print
  | procedure
  | declaration
  | blockStart
  | execute
  | blockEnd
  | blank
  deriving DecidableEq, Repr

namespace Form

def all : List Form :=
  [assignment, print, procedure, declaration, blockStart, execute, blockEnd, blank]

def word : Form → Text
  | assignment => "Assignment".toList
  | print => "Print".toList
  | procedure => "Procedure".toList
  | declaration => "Declare".toList
  | blockStart => "Begin".toList
  | execute => "Execute".toList
  | blockEnd => "End".toList
  | blank => "Ignored".toList

theorem isWord_word (form : Form) : IsWord form.word := by
  cases form <;> decide

/-- A form is found under its own word. -/
theorem find?_word (form : Form) : all.find? (·.word = form.word) = some form := by
  cases form <;> decide

theorem word_inj {a b : Form} (h : a.word = b.word) : a = b := by
  have hfound := find?_word a
  rw [h, find?_word b] at hfound
  exact (Option.some.inj hfound).symm

end Form

/-! ### Statements -/

namespace Statement

def form : Statement → Form
  | assignment _ _ _ => .assignment
  | print _ _ => .print
  | procedure _ => .procedure
  | declaration _ _ _ => .declaration
  | blockStart _ => .blockStart
  | execute _ _ => .execute
  | blockEnd _ => .blockEnd
  | blank _ => .blank

def detail : Statement → Text
  | assignment _ var literal => ' ' :: (var.name ++ ' ' :: '=' :: ' ' :: Quoted.ofText literal)
  | print _ var => ' ' :: var.name
  | procedure header =>
      ' ' :: (header.name.name ++
        '(' :: (join ", ".toList (header.params.map Param.summary) ++ [')']))
  | declaration _ var type => ' ' :: (var.name ++ ' ' :: type.spelling)
  | blockStart _ => []
  | execute _ sql => ' ' :: sql.name
  | blockEnd _ => []
  | blank _ => []

theorem summary_eq (statement : Statement) :
    statement.summary = statement.form.word ++ statement.detail := by
  cases statement with
  | assignment line var literal =>
      show "Assignment ".toList ++ var.name ++ " = ".toList ++ Quoted.ofText literal =
        "Assignment".toList ++ ' ' :: (var.name ++ ' ' :: '=' :: ' ' :: Quoted.ofText literal)
      simp
  | procedure header =>
      show "Procedure ".toList ++ header.name.name ++ '(' ::
          join ", ".toList (header.params.map Param.summary) ++ [')'] =
        "Procedure".toList ++ ' ' :: (header.name.name ++
          '(' :: (join ", ".toList (header.params.map Param.summary) ++ [')']))
      simp
  | declaration line var type =>
      show "Declare ".toList ++ var.name ++ ' ' :: type.spelling =
        "Declare".toList ++ ' ' :: (var.name ++ ' ' :: type.spelling)
      simp
  | _ => rfl

theorem stops_detail (statement : Statement) : Stops isWordPart statement.detail := by
  cases statement with
  | blockStart line | blockEnd line | blank line => exact stops_nil
  | _ => exact stops_space _

/-- Lines are not shown. -/
theorem summary_bare (statement : Statement) : statement.bare.summary = statement.summary := by
  cases statement with
  | procedure header =>
      have hparams : header.bare.params.map Param.summary = header.params.map Param.summary := by
        rw [Header.bare, List.map_map]
        rfl
      show "Procedure ".toList ++ header.name.name ++ '(' ::
          join ", ".toList (header.bare.params.map Param.summary) ++ [')'] = _
      rw [hparams]
      rfl
  | _ => rfl

/-- Statements of one form have the same parts if they show the same. -/
theorem bare_eq_of_detail {a b : Statement} (ha : ∀ name ∈ a.names, IsWord name)
    (hb : ∀ name ∈ b.names, IsWord name) (hform : a.form = b.form)
    (hdetail : a.detail = b.detail) : a.bare = b.bare := by
  cases a with
  | assignment line var literal =>
      cases b with
      | assignment line' var' literal' =>
          obtain ⟨hname, hquoted⟩ := (ha _ List.mem_cons_self).append_inj
            (hb _ List.mem_cons_self) (stops_space _) (stops_space _) (List.cons.inj hdetail).2
          simp only [List.cons.injEq, true_and] at hquoted
          have hliteral : literal = literal' :=
            (Quoted.ofText_append_inj (congrArg (· ++ []) hquoted)).1
          rw [bare, bare, Variable.bare_eq_iff.mpr hname, hliteral]
      | _ => cases hform
  | print line var =>
      cases b with
      | print line' var' => rw [bare, bare, Variable.bare_eq_iff.mpr (List.cons.inj hdetail).2]
      | _ => cases hform
  | procedure header =>
      cases b with
      | procedure header' =>
          have hparen : ∀ rest, Stops isWordPart ('(' :: rest) := fun rest =>
            stops_cons.mpr (by decide)
          obtain ⟨hname, hparams⟩ := (ha _ List.mem_cons_self).append_inj
            (hb _ List.mem_cons_self) (hparen _) (hparen _) (List.cons.inj hdetail).2
          have hword : ∀ param ∈ header.params, IsWord param.var.name := fun param hparam =>
            ha _ (List.mem_cons_of_mem _ (List.mem_map_of_mem hparam))
          have hword' : ∀ param ∈ header'.params, IsWord param.var.name := fun param hparam =>
            hb _ (List.mem_cons_of_mem _ (List.mem_map_of_mem hparam))
          rw [bare, bare, Header.bare, Header.bare, Variable.bare_eq_iff.mpr hname,
            Param.join_summary_inj hword hword' (List.cons.inj hparams).2]
      | _ => cases hform
  | declaration line var type =>
      cases b with
      | declaration line' var' type' =>
          obtain ⟨hname, htype⟩ := (ha _ List.mem_cons_self).append_inj
            (hb _ List.mem_cons_self) (stops_space _) (stops_space _) (List.cons.inj hdetail).2
          rw [bare, bare, Variable.bare_eq_iff.mpr hname,
            ValueType.spelling_inj (List.cons.inj htype).2]
      | _ => cases hform
  | execute line sql =>
      cases b with
      | execute line' sql' => rw [bare, bare, Variable.bare_eq_iff.mpr (List.cons.inj hdetail).2]
      | _ => cases hform
  | blockStart line =>
      cases b with
      | blockStart line' => rfl
      | _ => cases hform
  | blockEnd line =>
      cases b with
      | blockEnd line' => rfl
      | _ => cases hform
  | blank line =>
      cases b with
      | blank line' => rfl
      | _ => cases hform

/-- Two statements whose names are words have the same summary exactly if
they are the same with their lines left aside. The names that are read
from a script are words. -/
theorem summary_eq_iff_bare_eq :
    (∀ a b : Statement, (∀ name ∈ a.names, IsWord name) → (∀ name ∈ b.names, IsWord name) →
      (a.summary = b.summary ↔ a.bare = b.bare)) ∧
    ∀ (source : Text) (program : Program), Program.parse source = .ok program →
      ∀ statement ∈ program.statements, ∀ name ∈ statement.names, IsWord name := by
  refine ⟨fun a b ha hb => ⟨fun h => ?_, fun h => ?_⟩, ?_⟩
  · rw [summary_eq a, summary_eq b] at h
    obtain ⟨hword, hdetail⟩ := a.form.isWord_word.append_inj b.form.isWord_word a.stops_detail
      b.stops_detail h
    exact bare_eq_of_detail ha hb (Form.word_inj hword) hdetail
  · rw [← summary_bare a, h, summary_bare]
  · intro source program hparse statement hstatement name hname
    exact (((Program.wellFormed_of_parse hparse).speakable statement hstatement).names name hname).1

/-- A literal that spells an escape is not the character that is
escaped. -/
theorem summary_ne_of_spelled_escape :
    let spelled := assignment 1 ⟨1, ['x']⟩ "\\u\x7b301\x7d".toList
    let escaped := assignment 2 ⟨2, ['x']⟩ ['\u0301']
    (∀ name ∈ spelled.names, IsWord name) ∧ (∀ name ∈ escaped.names, IsWord name) ∧
      spelled.summary ≠ escaped.summary := by
  intro spelled escaped
  have hspelled : ∀ name ∈ spelled.names, IsWord name := by decide
  have hescaped : ∀ name ∈ escaped.names, IsWord name := by decide
  refine ⟨hspelled, hescaped, fun h => ?_⟩
  exact absurd ((summary_eq_iff_bare_eq.1 spelled escaped hspelled hescaped).mp h) (by decide)

end Statement

end StoredProc
