import StoredProc.Proofs.Text.Runs
import StoredProc.Statement.Python

/-!
Reading generated code back. A line of code is a margin, a word and what
follows the word, and what follows tells the kinds of lines apart: a
word may be any name, also one that Python reserves, and the margin may
be empty. So every line is read in one way, and the code of statements
gives back what each of them stands for.
-/

namespace StoredProc

open Text

namespace Python

inductive Item where
  /-- A function and the names of its parameters. -/
  | function (name : Text) (params : List Text)
  /-- The body of a function begins. -/
  | tryBlock
  /-- A string is assigned to a name. -/
  | assignment (name literal : Text)
  /-- What a name holds is executed. -/
  | execute (name : Text)
  /-- The body ends with the handler of its errors. -/
  | handler
  deriving DecidableEq, Repr

/-! ### Reading strings -/

/-- The character that stands for itself or for another one after a
backslash. -/
def unescape? : Char → Option Char
  | '\\' => some '\\'
  | '"' => some '"'
  | 'n' => some '\n'
  | 'r' => some '\r'
  | 't' => some '\t'
  | _ => none

/-- A string after its opening quote, and the text after its closing
quote. A string does not go over the end of a line. -/
def unquote : Text → Option (Text × Text)
  | [] => none
  | '"' :: rest => some ([], rest)
  | '\\' :: c :: rest =>
      (unescape? c).bind fun d => (unquote rest).map fun found => (d :: found.1, found.2)
  | c :: rest =>
      if c = '\\' ∨ isBreak c = true then none
      else (unquote rest).map fun found => (c :: found.1, found.2)

theorem unquote_escape (c : Char) (rest : Text) :
    unquote (escape c ++ rest) =
      (unquote rest).map fun found => (c :: found.1, found.2) := by
  unfold escape
  split
  · next h => subst h; rfl
  split
  · next h => subst h; rfl
  split
  · next h => subst h; rfl
  split
  · next h => subst h; rfl
  split
  · next h => subst h; rfl
  · next hslash hquote hfeed hreturn htab =>
      have hplain : ¬ (c = '\\' ∨ isBreak c = true) := by simp [isBreak, hslash, hfeed, hreturn]
      rw [List.cons_append, List.nil_append, unquote, if_neg hplain]
      · exact hquote
      · intro d rest' h
        exact absurd h hslash

/-- A quoted text is read back, and reading ends at its closing quote. -/
theorem unquote_flatMap_escape (text rest : Text) :
    unquote (text.flatMap escape ++ '"' :: rest) = some (text, rest) := by
  induction text with
  | nil => rfl
  | cons c text ih =>
      rw [List.flatMap_cons, List.append_assoc, unquote_escape, ih]
      rfl

theorem all_not_isBreak_escape (c : Char) : (escape c).all (!isBreak ·) = true := by
  unfold escape
  split
  · rfl
  split
  · rfl
  split
  · rfl
  split
  · rfl
  split
  · rfl
  · next hslash hquote hfeed hreturn htab => simp [isBreak, hfeed, hreturn]

/-- A quoted text is on one line. -/
theorem isBreak_eq_false_of_mem_quote {text : Text} {c : Char} (h : c ∈ quote text) :
    isBreak c = false := by
  rw [quote, List.cons_append, List.mem_cons, List.mem_append, List.mem_flatMap,
    List.mem_singleton] at h
  rcases h with rfl | ⟨d, -, hd⟩ | rfl
  · rfl
  · exact (Bool.not_eq_true' _).mp (List.all_eq_true.mp (all_not_isBreak_escape d) c hd)
  · rfl

/-! ### Reading words and lists -/

def after? (expected text : Text) : Option Text :=
  if expected.isPrefixOf text then some (text.drop expected.length) else none

@[simp] theorem after?_append (expected rest : Text) :
    after? expected (expected ++ rest) = some rest := by
  have h : expected.isPrefixOf (expected ++ rest) = true :=
    List.isPrefixOf_iff_prefix.mpr (List.prefix_append expected rest)
  rw [after?, if_pos h, List.drop_left]

def word? (text : Text) : Option (Text × Text) :=
  if IsWord (text.takeWhile isWordPart) then
    some (text.takeWhile isWordPart, text.dropWhile isWordPart)
  else none

theorem word?_append {word rest : Text} (hword : IsWord word) (hrest : Stops isWordPart rest) :
    word? (word ++ rest) = some (word, rest) := by
  rw [word?, takeWhile_append_of_stops hword.forall_isWordPart hrest,
    dropWhile_append_of_stops hword.forall_isWordPart hrest, if_pos hword]

def listed (text : Text) : List Text :=
  if text.isEmpty then [] else (split ',' text).map (List.dropWhile (· == ' '))

theorem split_of_not_mem {separator : Char} {piece : Text} (h : separator ∉ piece) :
    split separator piece = [piece] := by
  induction piece with
  | nil => rfl
  | cons c piece ih =>
      have hc : c ≠ separator := fun heq => h (heq ▸ List.mem_cons_self)
      rw [split, if_neg hc, ih fun hmem => h (List.mem_cons_of_mem c hmem)]

theorem split_append {separator : Char} {piece : Text} (h : separator ∉ piece) (rest : Text) :
    split separator (piece ++ separator :: rest) = piece :: split separator rest := by
  induction piece with
  | nil => rw [List.nil_append, split, if_pos rfl]
  | cons c piece ih =>
      have hc : c ≠ separator := fun heq => h (heq ▸ List.mem_cons_self)
      rw [List.cons_append, split, if_neg hc, ih fun hmem => h (List.mem_cons_of_mem c hmem)]

theorem split_ne_nil (separator : Char) (text : Text) : split separator text ≠ [] := by
  cases text with
  | nil => simp [split]
  | cons c text =>
      rw [split]
      split
      · exact List.cons_ne_nil _ _
      · split
        · exact List.cons_ne_nil _ _
        · exact List.cons_ne_nil _ _

theorem stops_space_of_isWord {word : Text} (hword : IsWord word) (rest : Text) :
    Stops (· == ' ') (word ++ rest) := by
  obtain ⟨c, tail, rfl, hc⟩ := hword.exists_cons
  rw [List.cons_append, stops_cons, beq_eq_false_iff_ne]
  rintro rfl
  cases hc

theorem dropWhile_space_of_isWord {word : Text} (hword : IsWord word) :
    word.dropWhile (· == ' ') = word := by
  obtain ⟨c, tail, rfl, -⟩ := hword.exists_cons
  have hstop := stops_space_of_isWord hword []
  rw [List.append_nil, stops_cons] at hstop
  rw [List.dropWhile_cons_of_neg (by rw [hstop]; decide)]

/-- A space after a separator belongs to no piece. -/
theorem map_dropWhile_split_space (text : Text) :
    (split ',' (' ' :: text)).map (List.dropWhile (· == ' ')) =
      (split ',' text).map (List.dropWhile (· == ' ')) := by
  rw [split, if_neg (by decide)]
  obtain ⟨piece, pieces, h⟩ := List.exists_cons_of_ne_nil (split_ne_nil ',' text)
  rw [h]
  rfl

theorem map_dropWhile_split_join {word : Text} {words : List Text}
    (hwords : ∀ w ∈ word :: words, IsWord w) :
    (split ',' (join ", ".toList (word :: words))).map (List.dropWhile (· == ' ')) =
      word :: words := by
  induction words generalizing word with
  | nil =>
      have hword : IsWord word := hwords word List.mem_cons_self
      rw [join, split_of_not_mem (hword.not_mem rfl), List.map_singleton,
        dropWhile_space_of_isWord hword]
  | cons word' words ih =>
      have hword : IsWord word := hwords word List.mem_cons_self
      have hjoin : join ", ".toList (word :: word' :: words) =
          word ++ ',' :: ' ' :: join ", ".toList (word' :: words) := by
        rw [join, List.append_assoc]
        · rfl
        · exact List.cons_ne_nil _ _
      rw [hjoin, split_append (hword.not_mem rfl), List.map_cons,
        dropWhile_space_of_isWord hword, map_dropWhile_split_space,
        ih fun w hw => hwords w (List.mem_cons_of_mem word hw)]

theorem listed_join {words : List Text} (hwords : ∀ word ∈ words, IsWord word) :
    listed (join ", ".toList words) = words := by
  cases words with
  | nil => rfl
  | cons word words =>
      have hne : (join ", ".toList (word :: words)).isEmpty = false := by
        obtain ⟨c, tail, rfl, -⟩ := (hwords word List.mem_cons_self).exists_cons
        cases words with
        | nil => rfl
        | cons word' words => rfl
      rw [listed, hne, map_dropWhile_split_join hwords]
      rfl

theorem forall_mem_join {words : List Text} (hwords : ∀ word ∈ words, IsWord word) :
    ∀ c ∈ join ", ".toList words, (c != ')') = true := by
  induction words with
  | nil => intro c hc; cases hc
  | cons word words ih =>
      have hword : ∀ c ∈ word, (c != ')') = true := by
        intro c hc
        rw [bne_iff_ne]
        rintro rfl
        exact (hwords word List.mem_cons_self).not_mem rfl hc
      cases words with
      | nil => exact hword
      | cons word' words =>
          intro c hc
          rw [join, List.mem_append, List.mem_append] at hc
          · rcases hc with (hc | hc) | hc
            · exact hword c hc
            · have hcomma : ", ".toList.all (· != ')') = true := rfl
              exact List.all_eq_true.mp hcomma c hc
            · exact ih (fun w hw => hwords w (List.mem_cons_of_mem word hw)) c hc
          · exact List.cons_ne_nil _ _

/-! ### Reading lines -/

/-- A line after its margin and its first word. Only the line of the
handler has another line with it. -/
def tail? (settings : Settings) (margin head : Text) : Text → Option (Item × Text)
  | ':' :: rest =>
      if margin = settings.indent 1 ∧ head = "try".toList then do
        let rest ← after? "\n".toList rest
        return (.tryBlock, rest)
      else none
  | '.' :: rest =>
      if margin = settings.indent 2 ∧ head = settings.connection then do
        let rest ← after? "execute(".toList rest
        let (name, rest) ← word? rest
        let rest ← after? ")\n".toList rest
        return (.execute name, rest)
      else none
  | ' ' :: '=' :: rest =>
      if margin = settings.indent 2 then do
        let rest ← after? " \"".toList rest
        let (literal, rest) ← unquote rest
        let rest ← after? "\n".toList rest
        return (.assignment head literal, rest)
      else none
  | ' ' :: rest =>
      if margin = settings.indent 0 ∧ head = "def".toList then do
        let (name, rest) ← word? rest
        let rest ← after? "(".toList rest
        let params := listed (rest.takeWhile (· != ')'))
        let rest ← after? "):\n".toList (rest.dropWhile (· != ')'))
        return (.function name params, rest)
      else if margin = settings.indent 1 ∧ head = "except".toList then do
        let rest ← after? "Exception as error:\n".toList rest
        let rest ← after? (settings.indent 2 ++ settings.logger ++ ".error(error)\n".toList) rest
        return (.handler, rest)
      else none
  | _ => none

def item? (settings : Settings) (text : Text) : Option (Item × Text) :=
  let body := text.dropWhile (· == ' ')
  tail? settings (text.takeWhile (· == ' ')) (body.takeWhile isWordPart)
    (body.dropWhile isWordPart)

def decode (settings : Settings) (text : Text) : Option (List Item) :=
  if text.isEmpty then some []
  else
    match item? settings text with
    | some (item, rest) =>
        if rest.length < text.length then (decode settings rest).map (item :: ·) else none
    | none => none
termination_by text.length

variable {settings : Settings}

/-- The margin ends where the first word begins, and the word ends where
what follows is no part of it. -/
theorem item?_append (depth : UInt64) {head rest : Text} (hhead : IsWord head)
    (hrest : Stops isWordPart rest) :
    item? settings (settings.indent depth ++ (head ++ rest)) =
      tail? settings (settings.indent depth) head rest := by
  have hmargin : ∀ c ∈ settings.indent depth, (c == ' ') = true := by
    intro c hc
    rw [beq_iff_eq]
    exact List.eq_of_mem_replicate hc
  have hbody : Stops (· == ' ') (head ++ rest) := stops_space_of_isWord hhead rest
  rw [item?, takeWhile_append_of_stops hmargin hbody, dropWhile_append_of_stops hmargin hbody,
    takeWhile_append_of_stops hhead.forall_isWordPart hrest,
    dropWhile_append_of_stops hhead.forall_isWordPart hrest]

end Python

def Statement.item? : Statement → Option Python.Item
  | procedure header => some (.function header.name.name header.inputs)
  | blockStart _ => some .tryBlock
  | assignment _ var literal => some (.assignment var.name literal)
  | execute _ sql => some (.execute sql.name)
  | blockEnd _ => some .handler
  | print _ _ => none
  | declaration _ _ _ => none
  | blank _ => none

def Statement.names : Statement → List Text
  | procedure header => header.name.name :: header.params.map (·.var.name)
  | assignment _ var _ => [var.name]
  | print _ var => [var.name]
  | declaration _ var _ => [var.name]
  | execute _ sql => [sql.name]
  | blockStart _ => []
  | blockEnd _ => []
  | blank _ => []

namespace Python

variable {settings : Settings}

theorem item?_blockStart (line : Nat) (rest : Text) :
    item? settings ((Statement.blockStart line).code settings ++ rest) =
      some (.tryBlock, rest) := by
  have hcode : (Statement.blockStart line).code settings ++ rest =
      settings.indent 1 ++ ("try".toList ++ (':' :: ("\n".toList ++ rest))) := by
    change settings.indent 1 ++ "try:\n".toList ++ rest = _
    rw [List.append_assoc]
    rfl
  rw [hcode, item?_append 1 (by decide) (stops_cons.mpr rfl), tail?, if_pos ⟨rfl, rfl⟩,
    after?_append]
  rfl

theorem item?_assignment (line : Nat) {var : Variable} (hname : IsWord var.name)
    (literal rest : Text) :
    item? settings ((Statement.assignment line var literal).code settings ++ rest) =
      some (.assignment var.name literal, rest) := by
  have hcode : (Statement.assignment line var literal).code settings ++ rest =
      settings.indent 2 ++ (var.name ++ (' ' :: '=' :: (" \"".toList ++
        (literal.flatMap escape ++ '"' :: ("\n".toList ++ rest))))) := by
    change settings.indent 2 ++ var.name ++ " = ".toList ++ quote literal ++ "\n".toList ++ rest = _
    rw [quote]
    simp only [List.append_assoc]
    rfl
  rw [hcode, item?_append 2 hname (stops_cons.mpr rfl), tail?, if_pos rfl]
  simp only [after?_append, unquote_flatMap_escape, Option.bind_eq_bind, Option.bind_some]
  rfl

theorem item?_execute (hconnection : IsWord settings.connection) (line : Nat) {sql : Variable}
    (hname : IsWord sql.name) (rest : Text) :
    item? settings ((Statement.execute line sql).code settings ++ rest) =
      some (.execute sql.name, rest) := by
  have hcode : (Statement.execute line sql).code settings ++ rest =
      settings.indent 2 ++ (settings.connection ++ ('.' :: ("execute(".toList ++
        (sql.name ++ (")\n".toList ++ rest))))) := by
    change settings.indent 2 ++ settings.connection ++ ".execute(".toList ++ sql.name ++
      ")\n".toList ++ rest = _
    simp only [List.append_assoc]
    rfl
  have hword : word? (sql.name ++ (")\n".toList ++ rest)) = some (sql.name, ")\n".toList ++ rest) :=
    word?_append hname (stops_cons.mpr rfl)
  rw [hcode, item?_append 2 hconnection (stops_cons.mpr rfl), tail?, if_pos ⟨rfl, rfl⟩]
  simp only [after?_append, hword, Option.bind_eq_bind, Option.bind_some]
  rfl

theorem item?_procedure {header : Header} (hname : IsWord header.name.name)
    (hinputs : ∀ name ∈ header.inputs, IsWord name) (rest : Text) :
    item? settings ((Statement.procedure header).code settings ++ rest) =
      some (.function header.name.name header.inputs, rest) := by
  have hcode : (Statement.procedure header).code settings ++ rest =
      settings.indent 0 ++ ("def".toList ++ (' ' :: (header.name.name ++ ("(".toList ++
        (join ", ".toList header.inputs ++ ("):\n".toList ++ rest)))))) := by
    change "def ".toList ++ header.name.name ++ ("(".toList ++ join ", ".toList header.inputs) ++
      "):\n".toList ++ rest = _
    simp only [List.append_assoc]
    rfl
  have hword (tail : Text) :
      word? (header.name.name ++ ("(".toList ++ tail)) =
        some (header.name.name, "(".toList ++ tail) :=
    word?_append hname (stops_cons.mpr rfl)
  have hinside := forall_mem_join hinputs
  have hclose : Stops (· != ')') ("):\n".toList ++ rest) := stops_cons.mpr rfl
  have htake := takeWhile_append_of_stops hinside hclose
  have hdrop := dropWhile_append_of_stops hinside hclose
  rw [hcode, item?_append 0 (by decide) (stops_cons.mpr rfl), tail?, if_pos ⟨rfl, rfl⟩]
  · simp only [hword, Option.bind_eq_bind, Option.bind_some]
    rw [after?_append, Option.bind_some, htake, hdrop, listed_join hinputs, after?_append]
    rfl
  · -- After `def` comes a word, so the line is no assignment to a variable of that name.
    obtain ⟨c, tail, hcons, hc⟩ := hname.exists_cons
    intro rest' h
    rw [hcons, List.cons_append] at h
    obtain ⟨rfl, -⟩ := List.cons.inj h
    cases hc

theorem item?_blockEnd (line : Nat) (rest : Text) :
    item? settings ((Statement.blockEnd line).code settings ++ rest) = some (.handler, rest) := by
  have hcode : (Statement.blockEnd line).code settings ++ rest =
      settings.indent 1 ++ ("except".toList ++ (' ' :: ("Exception as error:\n".toList ++
        ((settings.indent 2 ++ settings.logger ++ ".error(error)\n".toList) ++ rest)))) := by
    change settings.indent 1 ++ "except Exception as error:\n".toList ++ settings.indent 2 ++
      settings.logger ++ ".error(error)\n".toList ++ rest = _
    simp only [List.append_assoc]
    rfl
  have hhead : ¬ (settings.indent 1 = settings.indent 0 ∧ "except".toList = "def".toList) :=
    fun h => absurd h.2 (by decide)
  rw [hcode, item?_append 1 (by decide) (stops_cons.mpr rfl), tail?, if_neg hhead,
    if_pos ⟨rfl, rfl⟩]
  · simp only [after?_append, Option.bind_eq_bind, Option.bind_some]
    rfl
  · intro rest' h
    cases h

theorem isWord_of_mem_inputs {header : Header}
    (hnames : ∀ name ∈ (Statement.procedure header).names, IsWord name) :
    ∀ name ∈ header.inputs, IsWord name := by
  intro name hmem
  obtain ⟨param, hparam, rfl⟩ := List.mem_map.mp hmem
  refine hnames _ (List.mem_cons_of_mem _ (List.mem_map_of_mem ?_))
  exact (List.mem_filter.mp hparam).1

/-- The code of a statement is read back as what it stands for, whatever
comes after it. -/
theorem item?_code (hconnection : IsWord settings.connection) {statement : Statement}
    (hnames : ∀ name ∈ statement.names, IsWord name) {item : Item}
    (h : statement.item? = some item) (rest : Text) :
    item? settings (statement.code settings ++ rest) = some (item, rest) := by
  cases statement with
  | procedure header =>
      cases h
      exact item?_procedure (hnames _ List.mem_cons_self) (isWord_of_mem_inputs hnames) rest
  | blockStart line =>
      cases h
      exact item?_blockStart line rest
  | assignment line var literal =>
      cases h
      exact item?_assignment line (hnames _ List.mem_cons_self) literal rest
  | execute line sql =>
      cases h
      exact item?_execute hconnection line (hnames _ List.mem_cons_self) rest
  | blockEnd line =>
      cases h
      exact item?_blockEnd line rest
  | print line var => cases h
  | declaration line var type => cases h
  | blank line => cases h

theorem code_eq_nil {statement : Statement} (h : statement.item? = none) :
    statement.code settings = [] := by
  cases statement with
  | print line var => rfl
  | declaration line var type => rfl
  | blank line => rfl
  | _ => cases h

theorem code_ne_nil (hconnection : IsWord settings.connection) {statement : Statement}
    (hnames : ∀ name ∈ statement.names, IsWord name) {item : Item}
    (h : statement.item? = some item) : statement.code settings ≠ [] := by
  intro hnil
  have hread := item?_code hconnection hnames h []
  rw [hnil] at hread
  cases hread

/-- The code of statements, one after another, is read back in order. -/
theorem decode_flatMap_code (hconnection : IsWord settings.connection) {statements : List Statement}
    (hnames : ∀ statement ∈ statements, ∀ name ∈ statement.names, IsWord name) :
    decode settings (statements.flatMap (Statement.code settings)) =
      some (statements.filterMap Statement.item?) := by
  induction statements with
  | nil =>
      rw [List.flatMap_nil, decode]
      rfl
  | cons statement statements ih =>
      have hrest := ih fun st hst => hnames st (List.mem_cons_of_mem statement hst)
      have hnames := hnames statement List.mem_cons_self
      rw [List.flatMap_cons]
      -- A statement without code is not seen, and any other is the first item of the text.
      cases hitem : statement.item? with
      | none => rw [code_eq_nil hitem, List.nil_append, hrest, List.filterMap_cons_none hitem]
      | some item =>
          have hne : (statement.code settings ++
              statements.flatMap (Statement.code settings)).isEmpty = false := by
            simp [code_ne_nil hconnection hnames hitem]
          have hlt : (statements.flatMap (Statement.code settings)).length <
              (statement.code settings ++ statements.flatMap (Statement.code settings)).length := by
            have hpos : 0 < (statement.code settings).length :=
              List.length_pos_iff.mpr (code_ne_nil hconnection hnames hitem)
            rw [List.length_append]
            omega
          rw [decode, if_neg (by rw [hne]; decide)]
          simp only [item?_code hconnection hnames hitem]
          rw [if_pos hlt, hrest, List.filterMap_cons_some hitem]
          rfl

end Python

end StoredProc
