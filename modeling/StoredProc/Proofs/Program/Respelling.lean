import StoredProc.Proofs.Program.Lockstep
import StoredProc.Proofs.Program.Pieces

/-!
Layout and letter case do not matter. A script that was read falls into
pieces, the tokens and the raw text that were passed, in the order in
which the trace tells of them. If every stretch of layout is exchanged
for another and every keyword is spelled in other letter case, the script
is read as the same statements, on other lines.

The two runs are coupled by the pieces that the first has yet to read. A
token is cut off by looking at one character behind it, so it is enough
that the pieces that follow begin alike. Where the first run reads
something that is not the next piece it is lost; but it reads the pieces
it has read.
-/

namespace StoredProc

open Text Scan

/-! ### Other spellings -/

namespace Piece

/-- The piece is another spelling of the first: other layout, or the same
keyword. -/
inductive Respells : Piece → Piece → Prop
  | layout {text text' : Text} (hne : text' ≠ []) (h : IsLayout text') :
      Respells (token .blank text) (token .blank text')
  | keyword {k : Keyword} {text text' : Text} (h : text'.toUpper = text.toUpper) :
      Respells (token (.keyword k) text) (token (.keyword k) text')
  | same (piece : Piece) : Respells piece piece

inductive Respelt : List Piece → List Piece → Prop
  | nil : Respelt [] []
  | cons {piece piece' : Piece} {pieces pieces' : List Piece} (h : Respells piece piece')
      (hrest : Respelt pieces pieces') : Respelt (piece :: pieces) (piece' :: pieces')

theorem Respells.exists_token {kind : Kind} {text : Text} {piece : Piece}
    (h : Respells (token kind text) piece) : ∃ text', piece = token kind text' := by
  cases h <;> exact ⟨_, rfl⟩

/-- A name has one spelling. -/
theorem Respells.text_eq {kind : Kind} {text text' : Text}
    (h : Respells (token kind text) (token kind text')) (hkind : kind = .name) : text = text' := by
  cases h with
  | layout => cases hkind
  | keyword => cases hkind
  | same => rfl

end Piece

/-! ### What a token sees of the text behind it -/

/-- A word that is a keyword in upper case is a word. -/
theorem Keyword.isWord_of_toUpper {word : Text} {k : Keyword} (h : word.toUpper = k.spelling) :
    IsWord word := by
  have hlower : word.toLower = k.spelling.toLower := by rw [← h, toLower_toUpper]
  have hletters : k.spelling.toLower.all isWordStart = true := by
    cases k <;> decide
  have hstart : ∀ c ∈ word, isWordStart c = true := by
    intro c hc
    apply isWordStart_of_toLower
    apply List.all_eq_true.mp hletters
    rw [← hlower]
    exact List.mem_map_of_mem hc
  cases word with
  | nil =>
      cases k <;> cases h
  | cons c tail =>
      refine ⟨hstart c List.mem_cons_self, ?_⟩
      intro d hd
      exact isWordPart_of_isWordStart (hstart d (List.mem_cons_of_mem c hd))

/-- The texts begin with the same character, or with two of the same
class. -/
inductive Similar : Text → Text → Prop
  | nil : Similar [] []
  | same {c : Char} {rest rest' : Text} : Similar (c :: rest) (c :: rest')
  | blank {c d : Char} {rest rest' : Text} (hc : isBlank c = true) (hd : isBlank d = true) :
      Similar (c :: rest) (d :: rest')
  | word {c d : Char} {rest rest' : Text} (hc : isWordPart c = true) (hd : isWordPart d = true) :
      Similar (c :: rest) (d :: rest')

namespace Similar

variable {rest rest' : Text}

theorem stops {test : Char → Bool} (h : Similar rest rest')
    (hblank : ∀ c, isBlank c = true → test c = test ' ')
    (hword : ∀ c, isWordPart c = true → test c = test '_') (hrest : Stops test rest) :
    Stops test rest' := by
  cases h with
  | nil => exact hrest
  | same => exact stops_cons.mpr (stops_cons.mp hrest)
  | blank hc hd => rw [stops_cons] at hrest ⊢; rw [hblank _ hd, ← hblank _ hc, hrest]
  | word hc hd => rw [stops_cons] at hrest ⊢; rw [hword _ hd, ← hword _ hc, hrest]

/-- Texts that begin alike end the same tokens. -/
theorem stops_goesOn (h : Similar rest rest') {kind : Kind} (hrest : Stops kind.goesOn rest) :
    Stops kind.goesOn rest' := by
  have hquote {d : Char} (hd : isBlank d = false ∧ isWordPart d = false) :
      Stops (· == d) rest → Stops (· == d) rest' := by
    have hne {test : Char → Bool} (htest : test d = false) {c : Char} (hc : test c = true) :
        (c == d) = false := by
      apply beq_false_of_ne
      rintro rfl
      rw [htest] at hc
      cases hc
    refine h.stops (fun c hc => ?_) fun c hc => ?_
    · rw [hne hd.1 hc, hne hd.1 rfl]
    · rw [hne hd.2 hc, hne hd.2 rfl]
  cases kind with
  | keyword | name =>
      exact h.stops (fun _ hc => isWordPart_eq_false_of_isBlank hc) (fun _ hc => hc) hrest
  | blank => exact h.stops (fun _ hc => hc) (fun _ hc => isBlank_eq_false_of_isWordPart hc) hrest
  | quote => exact hquote (by decide) hrest
  | apostrophe => exact hquote (by decide) hrest
  | _ => exact h.stops (fun _ _ => rfl) (fun _ _ => rfl) hrest

/-- A character that belongs to neither class is seen in both texts. -/
theorem cons_of_cons {c : Char} {more : Text} (h : Similar (c :: more) rest')
    (hblank : isBlank c = false) (hpart : isWordPart c = false) : ∃ more', rest' = c :: more' := by
  cases h with
  | same => exact ⟨_, rfl⟩
  | blank hc hd => rw [hblank] at hc; cases hc
  | word hc hd => rw [hpart] at hc; cases hc

theorem eq_nil (h : Similar [] rest') : rest' = [] := by
  cases h
  rfl

end Similar

/-- A token in another spelling is cut off in front of a text that begins
alike. -/
theorem Cut.respell {kind : Kind} {text text' rest rest' : Text} (h : Cut kind text rest)
    (htext : Piece.Respells (.token kind text) (.token kind text')) (hrest : Similar rest rest') :
    Cut kind text' rest' := by
  have hstops := hrest.stops_goesOn h.stops
  cases htext with
  | layout hne hlayout => exact .blank hne hlayout hstops
  | keyword hcase =>
      obtain ⟨-, hk, -⟩ := Cut.keyword_iff.mp h
      have hk' := hcase.trans hk
      exact .keyword (Keyword.isWord_of_toUpper hk') hk' hstops
  | same => exact h.of_stops hstops

/-- Pieces in another spelling begin alike. -/
theorem Piece.Respelt.similar {pieces pieces' : List Piece} (h : Respelt pieces pieces')
    (hspelt : ∀ piece ∈ pieces, piece.Spelt) : Similar (join pieces) (join pieces') := by
  induction h with
  | nil => exact .nil
  | @cons piece piece' pieces pieces' hpiece hrest ih =>
      have hsimilar := ih fun piece hmem => hspelt piece (List.mem_cons_of_mem _ hmem)
      have hfirst := hspelt piece List.mem_cons_self
      rw [join_cons, join_cons]
      cases hpiece with
      | @layout text text' hne hlayout =>
          obtain ⟨_, hcut⟩ := hfirst
          obtain ⟨hne', hlayout', -⟩ := Cut.blank_iff.mp hcut
          obtain ⟨c, tail, rfl⟩ := List.exists_cons_of_ne_nil hne'
          obtain ⟨d, tail', rfl⟩ := List.exists_cons_of_ne_nil hne
          exact .blank (hlayout' c List.mem_cons_self) (hlayout d List.mem_cons_self)
      | @keyword k text text' hcase =>
          obtain ⟨_, hcut⟩ := hfirst
          obtain ⟨hword, hk, -⟩ := Cut.keyword_iff.mp hcut
          obtain ⟨c, tail, rfl, hc⟩ := hword.exists_cons
          obtain ⟨d, tail', rfl, hd⟩ := (Keyword.isWord_of_toUpper (hcase.trans hk)).exists_cons
          exact .word (isWordPart_of_isWordStart hc) (isWordPart_of_isWordStart hd)
      | same =>
          cases piece.text with
          | nil => exact hsimilar
          | cons c tail => exact .same

namespace Scan

variable {source : Text} {all : List Piece} {s s' t t' : Scanner} {token token' : Token}
  {l : Lexeme} {d : Char} {raw more : Text}

/-! ### The coupling -/

/-- Tokens of one kind, which is all that is seen of them unless they are
names. -/
structure Variant (token token' : Token) : Prop where
  kind : token.kind = token'.kind
  name : token.kind = .name → token.text = token'.text
  spelt : token.Spelt
  spelt' : token'.Spelt

/-- What was passed is no longer what the pieces begin with. -/
structure Strayed (source : Text) (all : List Piece) (s : Scanner) : Prop where
  passed : ¬ (retold source s).1 <+: all
  held : ∀ token ∈ s.held, token.Spelt

/-- Of the pieces, the first run has passed some, and the second stands
in front of another spelling of the others. -/
structure Alike (source : Text) (all : List Piece) (s s' : Scanner) : Prop where
  told : Told source s
  ahead : ∃ pieces pieces', (retold source s).1 ++ pieces = all ∧
    Piece.Respelt pieces pieces' ∧ s'.rest = Piece.join pieces'
  held : Option.Rel Variant s.held s'.held

def respelling (source : Text) (all : List Piece) : Coupling where
  rel := Alike source all
  lost := Strayed source all
  token := Variant
  late _ := True
  same _ _ := True

theorem Strayed.of_tell (event : Event) (h : ¬ (retold source s).1 <+: all) :
    ¬ (Piece.tell (retold source s) event).1 <+: all := by
  intro hprefix
  apply h
  refine List.IsPrefix.trans ?_ hprefix
  cases event <;> simp [Piece.tell]

theorem stable_strayed (source : Text) (all : List Piece) : Stable (Strayed source all) where
  pass := by
    intro s l h _
    refine ⟨?_, h.held⟩
    by_cases hend : l.kind = .eof
    · rw [retold_pass_eof hend]
      exact h.passed
    · rw [retold_pass hend]
      exact Strayed.of_tell (.token ⟨s.line, l.kind, l.text⟩) h.passed
  passRaw := by
    intro s d raw more h _ _
    refine ⟨?_, h.held⟩
    rw [retold_passRaw]
    exact Strayed.of_tell (.skippedTo d 0 0) h.passed
  hold := by
    intro s token h hspelt
    refine ⟨h.passed, ?_⟩
    rintro token ⟨⟩
    exact hspelt
  drop := fun h => ⟨h.passed, by rintro token ⟨⟩⟩
  trace := by
    intro s statement h
    refine ⟨?_, h.held⟩
    rw [retold_parsed]
    exact h.passed
  held := Strayed.held

/-- The first run has the pieces before it that the second has in another
spelling. -/
theorem Alike.rest_eq (h : Told source s) (hall : Piece.join all = source) {pieces : List Piece}
    (hpieces : (retold source s).1 ++ pieces = all) : s.rest = Piece.join pieces := by
  have hjoin : Piece.join (retold source s).1 ++ s.rest =
      Piece.join (retold source s).1 ++ Piece.join pieces := by
    rw [h.join, ← Piece.join_append, hpieces, hall]
  exact List.append_cancel_left hjoin

/-- What is passed is the next piece, or else the run is lost. -/
theorem strayed_or_next {done pieces : List Piece} (hpieces : done ++ pieces = all)
    (piece : Piece) : ¬ done ++ [piece] <+: all ∨ ∃ rest, pieces = piece :: rest := by
  by_cases hprefix : done ++ [piece] <+: all
  · right
    rw [← hpieces, List.prefix_append_right_inj] at hprefix
    obtain ⟨rest, hrest⟩ := hprefix
    exact ⟨rest, hrest.symm⟩
  · exact .inl hprefix

theorem spelt_ahead {done pieces : List Piece} (hpieces : done ++ pieces = all)
    (hspelt : ∀ piece ∈ all, piece.Spelt) : ∀ piece ∈ pieces, piece.Spelt := by
  intro piece hpiece
  apply hspelt
  rw [← hpieces]
  exact List.mem_append_right _ hpiece

/-- At the end of the one script the other ends as well. -/
theorem Alike.peek_end {l : Lexeme} (h : Alike source all s s') (hall : Piece.join all = source)
    (hspelt : ∀ piece ∈ all, piece.Spelt) (hheld' : s'.held = none)
    (hfirst : Lexeme.first s.rest = .ok l) (hend : l.kind = .eof) :
    Agree (respelling source all) Variant
      (.ok ⟨s.line, l.kind, l.text⟩ ((s.pass l).hold ⟨s.line, l.kind, l.text⟩)) (peek s') := by
  obtain ⟨pieces, pieces', hpieces, hrespelt, hrest'⟩ := h.ahead
  obtain ⟨htext, hc⟩ := Lexeme.first_eq_ok_iff.mp hfirst
  have hspeltToken : (⟨s.line, l.kind, l.text⟩ : Token).Spelt := ⟨_, hc⟩
  have htold := (stable_told source).hold (h.told.pass hfirst) hspeltToken
  obtain ⟨htext₀, hrest₀⟩ := Cut.eof_iff.mp (hend ▸ hc)
  have hnil : s'.rest = [] := by
    have hsimilar := hrespelt.similar (spelt_ahead hpieces hspelt)
    rw [← Alike.rest_eq h.told hall hpieces, htext, htext₀, hrest₀] at hsimilar
    rw [hrest']
    exact hsimilar.eq_nil
  have hcut' : cut s' = .ok ⟨s'.line, .eof, []⟩ (s'.pass ⟨.eof, [], []⟩) := by
    rw [cut, hnil]
    rfl
  rw [peek_of_cut hheld' hcut']
  have hvariant : Variant ⟨s.line, l.kind, l.text⟩ ⟨s'.line, .eof, []⟩ :=
    ⟨hend, fun hname => absurd (hend.symm.trans hname) (by decide), hspeltToken, ⟨[], .eof⟩⟩
  refine .ok hvariant ⟨htold, ⟨pieces, pieces', ?_, hrespelt, ?_⟩, .some hvariant⟩
  · rw [retold_hold, retold_pass_eof hend, hpieces]
  · rw [← hrest', hnil]
    rfl

/-- In front of a piece of the one script the other has a spelling of
it. -/
theorem Alike.peek_piece {l : Lexeme} (h : Alike source all s s') (hall : Piece.join all = source)
    (hspelt : ∀ piece ∈ all, piece.Spelt) (hheld' : s'.held = none)
    (hfirst : Lexeme.first s.rest = .ok l) (hend : l.kind ≠ .eof) :
    Agree (respelling source all) Variant
      (.ok ⟨s.line, l.kind, l.text⟩ ((s.pass l).hold ⟨s.line, l.kind, l.text⟩)) (peek s') := by
  obtain ⟨pieces, pieces', hpieces, hrespelt, hrest'⟩ := h.ahead
  obtain ⟨htext, hc⟩ := Lexeme.first_eq_ok_iff.mp hfirst
  have hspeltToken : (⟨s.line, l.kind, l.text⟩ : Token).Spelt := ⟨_, hc⟩
  have htold := (stable_told source).hold (h.told.pass hfirst) hspeltToken
  have hretold : retold source (s.pass l) = _ := retold_pass hend
  rcases strayed_or_next hpieces (.token l.kind l.text) with hstray | ⟨others, rfl⟩
  · refine .stray (.ok (b := ⟨s.line, l.kind, l.text⟩) ?_ ⟨?_, htold.held⟩)
    · exact ⟨rfl, fun _ => rfl, hspeltToken, hspeltToken⟩
    · rw [retold_hold, hretold]
      exact hstray
  · have hrest := Alike.rest_eq h.told hall hpieces
    have hahead := spelt_ahead hpieces hspelt
    cases hrespelt with
    | @cons _ piece' _ others' hpiece hothers =>
        obtain ⟨text', rfl⟩ := hpiece.exists_token
        have hbehind : l.rest = Piece.join others := by
          rw [htext, Piece.join_cons] at hrest
          exact List.append_cancel_left hrest
        have hsimilar := hothers.similar fun piece hmem =>
          hahead piece (List.mem_cons_of_mem _ hmem)
        have hc' : Cut l.kind text' (Piece.join others') :=
          hc.respell hpiece (hbehind ▸ hsimilar)
        have hcut' : cut s' = .ok ⟨s'.line, l.kind, text'⟩
            (s'.pass ⟨l.kind, text', Piece.join others'⟩) := by
          rw [cut, hrest', Piece.join_cons, Piece.text, Lexeme.first_of_cut hc']
        have hvariant : Variant ⟨s.line, l.kind, l.text⟩ ⟨s'.line, l.kind, text'⟩ :=
          ⟨rfl, hpiece.text_eq, hspeltToken, ⟨_, hc'⟩⟩
        rw [peek_of_cut hheld' hcut']
        refine .ok hvariant ⟨htold, ⟨others, others', ?_, hothers, rfl⟩, .some hvariant⟩
        rw [retold_hold, hretold, List.append_assoc]
        exact hpieces

theorem Alike.peek (h : Alike source all s s') (hall : Piece.join all = source)
    (hspelt : ∀ piece ∈ all, piece.Spelt) (hheld : s.held = none) (hheld' : s'.held = none) :
    Agree (respelling source all) Variant (peek s) (peek s') := by
  cases hfirst : Lexeme.first s.rest with
  | error c =>
      have hcut : cut s = .error (.unexpectedSymbol s.line c) s := by rw [cut, hfirst]
      rw [peek_of_cut_error hheld hcut]
      exact .stray (.error trivial)
  | ok l =>
      have hcut : cut s = .ok ⟨s.line, l.kind, l.text⟩ (s.pass l) := by rw [cut, hfirst]
      rw [peek_of_cut hheld hcut]
      by_cases hend : l.kind = .eof
      · exact h.peek_end hall hspelt hheld' hfirst hend
      · exact h.peek_piece hall hspelt hheld' hfirst hend

theorem Alike.rawUntil {kind : Kind} (h : Alike source all s s') (hall : Piece.join all = source)
    (hspelt : ∀ piece ∈ all, piece.Spelt) (hopen : kind.closer? = some d) (hheld : s.held = none)
    (hheld' : s'.held = none) :
    Agree (respelling source all) (fun raw raw' => raw = raw') (rawUntil d s) (rawUntil d s') := by
  by_cases hmem : d ∈ s.rest
  · obtain ⟨raw, more, hsplit, hraw⟩ := List.eq_append_cons_of_mem hmem
    obtain ⟨pieces, pieces', hpieces, hrespelt, hrest'⟩ := h.ahead
    have hrest := Alike.rest_eq h.told hall hpieces
    have hretold := h.told.retold_passRaw hsplit hraw
    have htold := (stable_told source).passRaw h.told hsplit hraw
    rw [rawUntil_of_eq hheld hsplit hraw]
    rcases strayed_or_next hpieces (.raw raw) with hstray | ⟨others, rfl⟩
    · refine .stray (.ok (b := raw) rfl ⟨?_, htold.held⟩)
      rw [hretold]
      exact hstray
    · cases hrespelt with
      | @cons _ piece' _ others' hpiece hothers =>
          cases hpiece
          have hbehind : d :: more = Piece.join others := by
            rw [hsplit, Piece.join_cons] at hrest
            exact List.append_cancel_left hrest
          have hsimilar := hothers.similar fun piece hpiece =>
            spelt_ahead hpieces hspelt piece (List.mem_cons_of_mem _ hpiece)
          -- The delimiter is no layout and no letter, so it follows in both.
          obtain ⟨hblank, hpart⟩ := Kind.isBlank_isWordPart_of_closer? hopen
          rw [← hbehind] at hsimilar
          obtain ⟨more', hmore'⟩ := hsimilar.cons_of_cons hblank hpart
          rw [Piece.join_cons, hmore'] at hrest'
          rw [rawUntil_of_eq hheld' hrest' hraw]
          refine .ok rfl ⟨htold, ⟨others, others', ?_, hothers, hmore'.symm⟩, h.held⟩
          rw [hretold, List.append_assoc]
          exact hpieces
  · rw [rawUntil_of_not_mem hheld hmem]
    exact .stray (.error trivial)

theorem lawful_respelling (hall : Piece.join all = source) (hspelt : ∀ piece ∈ all, piece.Spelt) :
    (respelling source all).Lawful where
  lost := (stable_strayed source all).invariant
  refl := fun h => ⟨rfl, fun _ => rfl, h, h⟩
  spelt := fun h => ⟨h.spelt, h.spelt'⟩
  kind := Variant.kind
  name := Variant.name
  mismatch := fun _ _ => trivial
  unexpected := fun _ _ => trivial
  held := Alike.held
  peek := fun h hheld hheld' => h.peek hall hspelt hheld hheld'
  drop := fun h => .inr ⟨(stable_told source).drop h.told, h.ahead, .none⟩
  raw := fun hopen h hheld hheld' => h.rawUntil hall hspelt hopen hheld hheld'
  lostRaw := by
    intro s kind d _ hs hheld
    cases hraw : rawUntil d s with
    | ok raw t => exact .ok (b := raw) rfl ((stable_strayed source all).rawUntil_ok hs hraw)
    | error e t => exact .error trivial
  trace := by
    intro s s' statement statement' h
    refine ⟨(stable_told source).trace statement h.told, ?_, h.held⟩
    rw [retold_parsed]
    exact h.ahead

end Scan

/-! ### Scripts -/

/-- Another spelling of a script is read as the same statements. -/
theorem Program.parse_respelt {source : Text} {program : Program}
    (h : parse source = .ok program) {pieces' : List Piece}
    (hrespelt : Piece.Respelt (pieces source) pieces') :
    ∃ program', parse (Piece.join pieces') = .ok program' ∧
      program'.statements.map Statement.bare = program.statements.map Statement.bare := by
  obtain ⟨s, hread⟩ := read_of_parse h
  have htold := (stable_told source).invariant.read.ok (.ofText source) hread
  have hpieces := pieces_of_read hread
  have hlawful := lawful_respelling (join_pieces h) (hpieces ▸ htold.spelt)
  have hstart : Alike source (pieces source) (.ofText source) (.ofText (Piece.join pieces')) :=
    ⟨.ofText source, ⟨pieces source, pieces', rfl, hrespelt, rfl⟩, .none⟩
  have hagree := hlawful.follows_read.rel hstart
  rw [hread] at hagree
  generalize hread' : read (.ofText (Piece.join pieces')) = r at hagree
  cases hagree with
  | ok hsame ht =>
      refine ⟨_, ?_, hsame.symm⟩
      rw [parse, hread']
  | stray hstray =>
      -- What was passed in the end is what the pieces are.
      cases hstray with
      | ok hsame hlost =>
          exact absurd (hpieces ▸ List.prefix_rfl) hlost.passed

end StoredProc
