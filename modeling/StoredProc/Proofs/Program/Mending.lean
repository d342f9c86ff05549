import StoredProc.Proofs.Program.Final
import StoredProc.Proofs.Scanner.Mending

/-!
An error is reported as early as it can be. What stands in front of the
token or character that it is about is the beginning of a script: every
form can be completed from wherever reading it has failed. The proofs
list the parts of each form once more, and what is put in for a part is a
sample of the tokens that it asks for.

Where layout may stand between two tokens, a space is put in, so that a
word in front of it ends. A statement that is complete is followed by
nothing.
-/

namespace StoredProc

open Text Scan Statement.Parse

namespace Kind

variable {kind mark : Kind} {c : Char}

/-- What is neither layout nor part of a word nor a quote ends every
token. -/
theorem goesOn_eq_false (hend : kind ≠ .eof) (hblank : kind = .blank → isBlank c = false)
    (hpart : isWordPart c = false) (hquote : ofQuote? c = none) : kind.goesOn c = false := by
  have hne {d : Char} (hd : ofQuote? d ≠ none) : (c == d) = false := by
    apply beq_false_of_ne
    rintro rfl
    exact hd hquote
  cases kind with
  | eof => exact absurd rfl hend
  | blank => exact hblank rfl
  | keyword | name => exact hpart
  | quote | apostrophe => exact hne nofun
  | _ => rfl

theorem goesOn_of_isBlank (hkind : kind ≠ .blank) (hend : kind ≠ .eof)
    (hc : isBlank c = true) : kind.goesOn c = false :=
  goesOn_eq_false hend (fun h => absurd h hkind) (isWordPart_eq_false_of_isBlank hc)
    (ofPunctuation?_ofQuote?_eq_none (.inr hc)).2

theorem goesOn_of_mark (hend : kind ≠ .eof) (hc : ofPunctuation? c = some mark) :
    kind.goesOn c = false := by
  obtain ⟨hblank, hpart⟩ := isBlank_isWordPart_of_ofPunctuation? hc
  have hquote : ofQuote? c = none := by
    rcases ofPunctuation?_eq_some_iff.mp hc with
      ⟨rfl, -⟩ | ⟨rfl, -⟩ | ⟨rfl, -⟩ | ⟨rfl, -⟩ | ⟨rfl, -⟩ | ⟨rfl, -⟩ | ⟨rfl, -⟩ <;> rfl
  exact goesOn_eq_false hend (fun _ => hblank) hpart hquote

end Kind

namespace Scan

variable {α γ : Type} {n : Nat} {kind : Kind} {good : Kind → Prop}
  {after before R : Text → Text → Prop} {place text rest : Text}

/-! ### What may come in place of a text -/

/-- Layout may come first, or a text that begins with the same
character. -/
def Spaced (place text : Text) : Prop := Next text .blank ∨ place.head? = text.head?

/-- The script may end, or go on with the same character. -/
def Ends (place text : Text) : Prop := text = [] ∨ (place.head? = text.head? ∧ Lexes text)

theorem stops_of_head?_eq {test : Char → Bool} (h : place.head? = text.head?)
    (hplace : Stops test place) : Stops test text := by
  intro c hc
  exact hplace c (h ▸ hc)

theorem stops_of_next_blank (hkind : kind ≠ .blank) (hend : kind ≠ .eof) (h : Next text .blank) :
    Stops kind.goesOn text := by
  obtain ⟨rest, run, rfl, hne, hrun, -⟩ := next_blank_iff.mp h
  obtain ⟨c, run, rfl⟩ := List.exists_cons_of_ne_nil hne
  exact stops_cons.mpr (Kind.goesOn_of_isBlank hkind hend (hrun c List.mem_cons_self))

theorem stops_of_next_mark {mark : Kind} (hend : kind ≠ .eof) {c : Char}
    (hc : Kind.ofPunctuation? c = some mark) (h : Next text mark) : Stops kind.goesOn text := by
  obtain ⟨token, rest, rfl, hcut⟩ := h
  rw [(Cut.mark_iff hc).mp hcut]
  exact stops_cons.mpr (Kind.goesOn_of_mark hend hc)

theorem respects_mark {c : Char} (hc : Kind.ofPunctuation? c = some kind) : Respects kind R := by
  intro place text _ _
  rw [Kind.goesOn_of_ofPunctuation? hc]
  exact fun _ _ => rfl

theorem respects_spaced (hkind : kind ≠ .blank) (hend : kind ≠ .eof) : Respects kind Spaced := by
  intro place text h hplace
  rcases h with hnext | hhead
  · exact stops_of_next_blank hkind hend hnext
  · exact stops_of_head?_eq hhead hplace

theorem respects_ends : Respects kind Ends := by
  intro place text h hplace
  rcases h with rfl | ⟨hhead, -⟩
  · exact stops_nil
  · exact stops_of_head?_eq hhead hplace

theorem respects_either_blank (hkind : kind ≠ .blank) (hend : kind ≠ .eof) (h : Respects kind R) :
    Respects kind (Either R .blank) := by
  intro place text hR hplace
  rcases hR with hR | ⟨-, hnext⟩
  · exact h hR hplace
  · exact stops_of_next_blank hkind hend hnext

theorem respects_either_mark {mark : Kind} {c : Char} (hc : Kind.ofPunctuation? c = some mark)
    (hend : kind ≠ .eof) (h : Respects kind R) : Respects kind (Either R mark) := by
  intro place text hR hplace
  rcases hR with hR | ⟨-, hnext⟩
  · exact h hR hplace
  · exact stops_of_next_mark hend hc hnext

theorem respects_begins_mark {mark : Kind} {c : Char} (hc : Kind.ofPunctuation? c = some mark)
    (hend : kind ≠ .eof) : Respects kind (Begins (· = mark)) := by
  rintro place text ⟨_, rfl, hnext⟩ -
  exact stops_of_next_mark hend hc hnext

/-! ### Layout -/

theorem skipBlank_bind (k : Scan α) :
    (skipBlank >>= fun _ => k) =
      peekKind >>= fun kind => if kind = .blank then expect .blank >>= fun _ => k else k := by
  rw [skipBlank]
  simp only [bind_assoc]
  congr
  funext kind
  split
  · simp only [bind_assoc, pure_bind]
  · rw [pure_bind]

/-- Layout is optional, and no blank is put in behind it. -/
theorem mends_skipBlank {k : γ → Scan α} (hk : Mends n after before k)
    (hblank : Respects .blank before)
    (hapart : ∀ {place text kind}, before place text → Next place kind → kind ≠ .blank →
      ∃ kind', Next text kind' ∧ kind' ≠ .blank) :
    Mends n after (Either before .blank) fun g => skipBlank >>= fun _ => k g := by
  have hcommits : Commits n (· = .blank) after fun g => expect .blank >>= fun _ => k g :=
    (commits_expect (by decide) hblank).bind (hk.comap Prod.fst)
  simp only [skipBlank_bind]
  exact mends_peekKind_ite (by decide) hcommits hk hapart

/-- In front of a token that is taken, a space is put in. -/
theorem mends_spaced {k : γ → Scan α} (hk : Commits n good after k) (hgood : ¬ good .blank) :
    Mends n after Spaced fun g => skipBlank >>= fun _ => k g := by
  have hblank : Respects .blank (Begins good) := by
    rintro place text ⟨kind, hkind, hnext⟩ -
    apply hnext.stops_isBlank
    rintro rfl
    exact hgood hkind
  have hplain := mends_skipBlank hk.toMends hblank (by
    rintro place text - ⟨kind, hkind, hnext⟩ - -
    refine ⟨kind, hnext, ?_⟩
    rintro rfl
    exact hgood hkind)
  have hfill : Fills after Spaced fun g => skipBlank >>= fun _ => k g := by
    obtain ⟨filling, hfill⟩ := hk.fill
    refine ⟨' ' :: filling, fun text htext => ?_⟩
    obtain ⟨hbegins, hpasses⟩ := hfill text htext
    have hcut : Cut .blank [' '] (filling ++ text) :=
      Kind.cut_sample .blank (hblank (hbegins []) stops_nil)
    have hnext : Next (' ' :: filling ++ text) .blank := ⟨[' '], _, rfl, hcut⟩
    refine ⟨fun place => .inl hnext, ?_⟩
    simp only [skipBlank_bind]
    refine passes_peekKind hnext ?_
    simp only [if_true]
    exact (passes_expect hcut).bind (hpasses.comap Prod.fst)
  refine ⟨?_, hfill, ?_⟩
  · intro g last s a u hs hn hok
    obtain ⟨hu, hle, hrenews⟩ := hplain.ok hs hn hok
    obtain ⟨_, t, hskip, hok⟩ := bind_eq_ok hok
    obtain ⟨⟨run, hrun, -⟩, ht⟩ := reads_gapLexes.sound hs hskip
    have hlt := Nat.lt_of_le_of_lt (steady_skipBlank hskip) hn
    have hshorter := (hk.takes ht hlt hok).2
    have hshort : u.unread.length < s.unread.length := by
      rw [hrun, List.length_append]
      omega
    exact ⟨hu, hle, (hrenews.head hshort).imp fun hplace hpasses => ⟨.inr hplace.2, hpasses⟩⟩
  · intro g last s e t hs hn herror
    rcases (hplain.error hs hn herror).head with hblamed | hrepairs
    · rw [hblamed]
      exact hfill.repairs s.unread
    · exact hrepairs.imp fun hplace hpasses => ⟨.inr hplace.2, hpasses⟩

theorem mends_expectSpaced (hkind : kind ≠ .blank) (hend : kind ≠ .eof)
    (hafter : Respects kind after) : Mends n after Spaced fun _ : γ => expectSpaced kind :=
  mends_spaced (commits_expect hend hafter) hkind.symm

/-- Layout behind a statement that is complete. -/
theorem mends_trailing (value : γ → α) :
    Mends n Ends (Either Ends .blank) fun g =>
      skipBlank >>= fun _ => (pure (value g) : Scan α) := by
  refine mends_skipBlank (mends_pure value) respects_ends ?_
  rintro place text kind (rfl | ⟨hhead, kind', hnext'⟩) hnext hkind
  · exact ⟨.eof, ⟨[], [], rfl, .eof⟩, by decide⟩
  · exact ⟨kind', hnext', hnext'.ne_blank (stops_of_head?_eq hhead (hnext.stops_isBlank hkind))⟩

/-! ### Parts of a form -/

theorem refuses_unexpected (expected : Expectation) :
    Refuses fun _ : γ => (Statement.Parse.unexpected expected : Scan α) := by
  intro g last s hs
  cases hpeek : peek s with
  | error e t => exact ⟨e, t, bind_of_error hpeek, blamed_of_peek_error hpeek⟩
  | ok token t =>
      refine ⟨_, t, bind_of_ok hpeek, ?_⟩
      obtain ⟨-, -, hunread⟩ := takes_of_peek hs hpeek
      rw [← hunread, Scanner.unread_of_some (held_of_peek hpeek)]
      rfl

theorem commits_sigilVariable (hafter : Respects .name after) :
    Commits n (· = .dollar) after fun _ : γ => sigilVariable :=
  (commits_expect (by decide) (respects_mark (c := '$') rfl)).bind <|
    (commits_expect (by decide) hafter).toMends.bind (mends_pure _)

theorem commits_quoted {mark pair : Kind} {d : Char} (hquote : Kind.ofQuote? d = some (mark, pair))
    (hmark : mark.closer? = some d) (hafter : Respects mark after) :
    Commits n (· = mark) after fun _ : γ => quoted mark d := by
  have hclose {text : Text} (h : Next text mark) : ∃ tail, text = d :: tail := by
    obtain ⟨token, rest, rfl, hcut⟩ := h
    rw [((Cut.quote_iff hquote).mp hcut).1]
    exact ⟨rest, rfl⟩
  have hend : mark ≠ .eof := by
    rintro rfl
    cases hmark
  rw [quoted_eq]
  exact (commits_expectRaw hmark hclose).bind <|
    (commits_expect hend hafter).toMends.bind (mends_pure _)

theorem commits_literal (hquote : Respects .quote after)
    (hapostrophe : Respects .apostrophe after) :
    Commits n (·.isQuote = true) after fun _ : γ => literal := by
  have hpair (pair : Kind) (hend : pair ≠ .eof) (hgoes : pair.goesOn = fun _ => false) :
      Commits n (· = pair) after fun _ : γ => (do let _ ← expect pair; return [] : Scan Text) := by
    refine (commits_expect hend ?_).bind (mends_pure _)
    intro place text _ _
    rw [hgoes]
    exact fun _ _ => rfl
  have hbranch := hpair .quotePair (by decide) rfl
  refine commits_peekKind ?_ ⟨.quotePair, branch_of_commits rfl hbranch⟩
  intro kind
  cases kind with
  | quotePair => exact .inl (branch_of_commits rfl hbranch)
  | apostrophePair => exact .inl (branch_of_commits rfl (hpair .apostrophePair (by decide) rfl))
  | quote => exact .inl (branch_of_commits rfl (commits_quoted rfl rfl hquote))
  | apostrophe => exact .inl (branch_of_commits rfl (commits_quoted rfl rfl hapostrophe))
  | _ => exact .inr (refuses_unexpected .literal)

/-- The keywords that stand for a value. A token of their kind spells one
of them, so the second look never fails. -/
theorem commits_choice {test : Kind → Bool} {keyword : α → Keyword} {value : Token → Scan α}
    {expected : Expectation}
    (htest : ∀ kind, test kind = true ↔ ∃ a, kind = .keyword (keyword a))
    (hvalue : ∀ {token a}, token.text.toUpper = (keyword a).spelling → value token = pure a)
    (some : α) (hafter : ∀ k, Respects (.keyword k) after) :
    Commits n (test · = true) after fun _ : γ => (do
      let kind ← peekKind
      if test kind then
        let token ← expect kind
        value token
      else Statement.Parse.unexpected expected : Scan α) := by
  have hbranch (a : α) : Commits n (· = .keyword (keyword a)) after fun _ : γ => (do
      let token ← expect (.keyword (keyword a))
      value token : Scan α) := by
    have hplain : Commits n (· = .keyword (keyword a)) after fun _ : γ => (do
        let _ ← expect (.keyword (keyword a))
        return a : Scan α) :=
      (commits_expect (by nofun) (hafter _)).bind (mends_pure _)
    refine hplain.congr ?_
    intro g last s hs
    cases hexpect : expect (.keyword (keyword a)) s with
    | error e t => rw [bind_of_error hexpect, bind_of_error hexpect]
    | ok token t =>
        obtain ⟨htakes, hkind, -⟩ := takes_of_expect hs hexpect
        have hspelt : token.Spelt := ⟨_, htakes.cut⟩
        rw [bind_of_ok hexpect, bind_of_ok hexpect, hvalue (hspelt.toUpper_eq hkind)]
  have hgood (a : α) : test (.keyword (keyword a)) = true := (htest _).mpr ⟨a, rfl⟩
  have hin (a : α) : Branch n (test · = true) after (fun (_ : γ) kind =>
      if test kind then expect kind >>= value else Statement.Parse.unexpected expected)
      (.keyword (keyword a)) := by
    refine branch_of_commits (hgood a) ?_
    simpa only [hgood a, if_true] using hbranch a
  refine commits_peekKind (fun kind => ?_) ⟨_, hin some⟩
  by_cases hkind : test kind = true
  · obtain ⟨a, rfl⟩ := (htest kind).mp hkind
    exact .inl (hin a)
  · right
    simp only [hkind]
    exact refuses_unexpected expected

theorem commits_valueType (hafter : ∀ k, Respects (.keyword k) after) :
    Commits n (·.isType = true) after fun _ : γ => valueType :=
  commits_choice (fun _ => Kind.isType_iff)
    (fun htext => by rw [ValueType.ofWord?_eq_some htext]) .char hafter

theorem commits_direction (hafter : ∀ k, Respects (.keyword k) after) :
    Commits n (·.isDirection = true) after fun _ : γ => direction :=
  commits_choice (fun _ => Kind.isDirection_iff)
    (fun htext => by rw [Direction.ofWord?_eq_some htext]) .input hafter

theorem respects_keyword_spaced (k : Keyword) : Respects (.keyword k) Spaced :=
  respects_spaced (by nofun) (by nofun)

theorem mends_param (hafter : ∀ k, Respects (.keyword k) after) :
    Mends n after Spaced fun _ : γ => param :=
  (mends_expectSpaced (by decide) (by decide) (respects_spaced (by decide) (by decide))).bind <|
    mends_spaced ((commits_valueType respects_keyword_spaced).bind <|
      mends_spaced ((commits_direction hafter).bind (mends_pure _)) (by decide)) (by decide)

/-! ### Parameters -/

/-- The parenthesis that closes the parameters is put in without a space,
because layout in front of it has been passed. -/
def Closes : Text → Text → Prop := Either (Begins (· = .rightParen)) .blank

/-- A further parameter may come as well. -/
def GoesOn : Text → Text → Prop := Either (Either Closes .comma) .blank

theorem respects_keyword_goesOn (k : Keyword) : Respects (.keyword k) GoesOn :=
  respects_either_blank (by nofun) (by nofun) <| respects_either_mark (c := ',') rfl (by nofun) <|
    respects_either_blank (by nofun) (by nofun) <| respects_begins_mark (c := ')') rfl (by nofun)

def moreParams : Scan (List Param) := do
  let _ ← expect .comma
  let first ← param
  let others ← many nextParam advancing_nextParam
  return first :: others

theorem many_nextParam_eq :
    many nextParam advancing_nextParam =
      skipBlank >>= fun _ => peekKind >>= fun kind =>
        if kind = .comma then moreParams else pure [] := by
  refine (many_eq advancing_nextParam).trans ?_
  unfold moreParams
  generalize many nextParam advancing_nextParam = loop
  rw [nextParam]
  simp only [bind_assoc]
  congr
  funext _
  congr
  funext kind
  split
  · simp only [bind_assoc, pure_bind]
  · rw [pure_bind]

theorem closes_nil (h : Closes [] text) : Next text .rightParen := by
  obtain ⟨_, rfl, hnext⟩ | ⟨hblank, -⟩ := h
  · exact hnext
  · cases hblank.unique (Program.next_eof_iff.mpr rfl)

theorem passes_nextParams (h : Next text .rightParen) :
    Passes (fun _ : γ => many nextParam advancing_nextParam) text text := by
  rw [many_nextParam_eq]
  simp only [skipBlank_bind]
  refine passes_peekKind h ?_
  simp only [reduceCtorEq, if_false]
  refine passes_peekKind h ?_
  simp only [reduceCtorEq, if_false]
  exact passes_pure _ text

theorem mends_nextParams (n : Nat) :
    Mends n Closes GoesOn fun _ : γ => many nextParam advancing_nextParam := by
  induction n with
  | zero =>
      refine mends_zero ⟨[], fun text htext => ⟨fun place => .inl (.inl (htext place)), ?_⟩⟩
      exact passes_nextParams (closes_nil (htext []))
  | succ n ih =>
      have hparams : Mends n Closes Spaced fun _ : γ × Token => (do
          let first ← param
          let others ← many nextParam advancing_nextParam
          return first :: others) :=
        (mends_param respects_keyword_goesOn).bind
          ((ih.comap fun p => p.1.1).bind (mends_pure _))
      have hmore : Commits (n + 1) (· = .comma) Closes fun _ : γ => moreParams :=
        (commits_expect (by decide) (respects_mark (c := ',') rfl)).bind_of_le hparams
          (Nat.le_refl _)
      rw [many_nextParam_eq]
      refine mends_skipBlank (mends_peekKind_ite (by decide) hmore (mends_pure _) ?_) ?_ ?_
      · rintro place text kind (⟨_, rfl, hnext⟩ | ⟨-, hnext⟩) - -
        · exact ⟨_, hnext, by decide⟩
        · exact ⟨_, hnext, by decide⟩
      · rintro place text ((⟨_, rfl, hnext⟩ | ⟨hblank, -⟩) | ⟨-, hnext⟩) hplace
        · exact stops_of_next_mark (c := ')') (by decide) rfl hnext
        · exact absurd rfl (hblank.ne_blank hplace)
        · exact stops_of_next_mark (c := ',') (by decide) rfl hnext
      · rintro place text kind ((⟨_, rfl, hnext⟩ | ⟨hblank, -⟩) | ⟨-, hnext⟩) hplace hkind
        · exact ⟨_, hnext, by decide⟩
        · exact absurd (hplace.unique hblank) hkind
        · exact ⟨_, hnext, by decide⟩

theorem mends_params : Mends n Closes Spaced fun _ : γ => params :=
  (mends_param respects_keyword_goesOn).bind
    ((mends_nextParams n).bind (mends_pure _))

theorem mends_closing : Mends n Spaced Closes fun _ : γ => expectSpaced .rightParen := by
  have hcommits : Commits n (· = .rightParen) Spaced fun _ : γ => expect .rightParen :=
    commits_expect (by decide) (respects_mark (c := ')') rfl)
  refine mends_skipBlank hcommits.toMends (respects_begins_mark (c := ')') rfl (by decide)) ?_
  rintro place text kind ⟨_, rfl, hnext⟩ - -
  exact ⟨_, hnext, by decide⟩

/-! ### The forms -/

theorem mends_spaced_mark {c : Char} (hc : Kind.ofPunctuation? c = some kind) :
    Mends n after Spaced fun _ : γ => expectSpaced kind := by
  have hmark := Kind.ofPunctuation?_eq_some_iff.mp hc
  refine mends_expectSpaced ?_ ?_ (respects_mark hc)
  · rintro rfl
    simp at hmark
  · rintro rfl
    simp at hmark

theorem mends_spaced_word (k : Keyword) (hafter : Respects (.keyword k) after) :
    Mends n after Spaced fun _ : γ => expectSpaced (.keyword k) :=
  mends_expectSpaced (by nofun) (by nofun) hafter

theorem mends_spaced_name : Mends n Spaced Spaced fun _ : γ => expectSpaced .name :=
  mends_expectSpaced (by decide) (by decide) (respects_spaced (by decide) (by decide))

theorem commits_keyword (k : Keyword) (hafter : Respects (.keyword k) after) :
    Commits n (· = .keyword k) after fun _ : γ => expect (.keyword k) :=
  commits_expect (by nofun) hafter

theorem respects_trailing (hkind : kind ≠ .blank) (hend : kind ≠ .eof) :
    Respects kind (Either Ends .blank) :=
  respects_either_blank hkind hend respects_ends

theorem commits_sigilAssignment : Commits n (· = .dollar) Ends fun _ : γ => sigilAssignment :=
  (commits_sigilVariable (respects_spaced (by decide) (by decide))).bind <|
    (mends_spaced_mark (c := '=') rfl).bind <| mends_spaced
      ((commits_literal (respects_trailing (by decide) (by decide))
        (respects_trailing (by decide) (by decide))).bind (mends_trailing _)) (by decide)

theorem commits_procedureHeader :
    Commits n (· = .keyword .create) Ends fun _ : γ => procedureHeader :=
  (commits_keyword .create (respects_keyword_spaced _)).bind <|
    (mends_spaced_word .or (respects_keyword_spaced _)).bind <|
      (mends_spaced_word .replace (respects_keyword_spaced _)).bind <|
        (mends_spaced_word .procedure (respects_keyword_spaced _)).bind <|
          mends_spaced_name.bind <| (mends_spaced_mark (c := '(') rfl).bind <|
            mends_params.bind <| mends_closing.bind <|
              (mends_spaced_word .is respects_ends).bind (mends_pure _)

theorem commits_declarationOf (name : γ → Token) :
    Commits n (·.isType = true) Ends fun g => declarationOf (name g) :=
  (commits_valueType respects_keyword_spaced).bind <|
    (mends_spaced_mark (c := ';') rfl).bind (mends_pure _)

theorem commits_assignmentTo (name : γ → Token) :
    Commits n (· = .colon) Ends fun g => assignmentTo (name g) :=
  (commits_expect (by decide) (respects_mark (c := ':') rfl)).bind <|
    (commits_expect (by decide) (respects_mark (c := '=') rfl)).toMends.bind <| mends_spaced
      ((commits_literal (respects_spaced (by decide) (by decide))
        (respects_spaced (by decide) (by decide))).bind <|
          (mends_spaced_mark (c := ';') rfl).bind (mends_pure _)) (by decide)

/-- Behind a name comes a type or an assignment. Either type is read by
the same operation. -/
theorem commits_declarationOrAssignment :
    Commits n (· = .name) Ends fun _ : γ => declarationOrAssignment := by
  refine (commits_expect (by decide) (respects_spaced (by decide) (by decide))).bind ?_
  refine mends_spaced (?_ : Commits n (· ≠ .blank) Ends _) (by decide)
  refine commits_peekKind ?_ ⟨.colon, branch_of_commits (by decide) (commits_assignmentTo _)⟩
  intro kind
  cases kind with
  | colon => exact .inl (branch_of_commits (by decide) (commits_assignmentTo _))
  | keyword k =>
      cases k with
      | integer | char =>
          refine .inl ⟨(·.isType = true), commits_declarationOf _, ?_⟩
          intro kind' hkind'
          obtain ⟨type, rfl⟩ := Kind.isType_iff.mp hkind'
          cases type <;> exact ⟨by decide, fun _ => rfl⟩
      | _ => exact .inr (refuses_unexpected .typeOrAssignment)
  | _ => exact .inr (refuses_unexpected .typeOrAssignment)

theorem commits_begin : Commits n (· = .keyword .beginBlock) Ends fun _ : γ => begin :=
  (commits_keyword .beginBlock respects_ends).bind (mends_pure _)

theorem commits_executeImmediate :
    Commits n (· = .keyword .execute) Ends fun _ : γ => executeImmediate :=
  (commits_keyword .execute (respects_keyword_spaced _)).bind <|
    (mends_spaced_word .immediate (respects_keyword_spaced _)).bind <|
      mends_spaced_name.bind <| (mends_spaced_mark (c := ';') rfl).bind (mends_pure _)

theorem commits_ending : Commits n (· = .keyword .endBlock) Ends fun _ : γ => ending := by
  have hclose {text : Text} (h : Next text .semicolon) : ∃ tail, text = ';' :: tail := by
    obtain ⟨token, rest, rfl, hcut⟩ := h
    rw [(Cut.mark_iff (c := ';') rfl).mp hcut]
    exact ⟨rest, rfl⟩
  rw [ending_eq]
  exact (commits_expectRaw rfl hclose).bind <|
    (commits_expect (by decide) (respects_mark (c := ';') rfl)).toMends.bind (mends_pure _)

theorem commits_blanks : Commits n (· = .blank) Ends fun _ : γ => blanks :=
  (commits_expect (by decide) respects_ends).bind (mends_pure _)

theorem commits_printing : Commits n (· = .keyword .print) Ends fun _ : γ => printing :=
  (commits_keyword .print (respects_keyword_spaced _)).bind <|
    (mends_spaced_mark (c := '(') rfl).bind <| mends_spaced
      ((commits_sigilVariable (respects_spaced (by decide) (by decide))).bind <|
        (mends_spaced_mark (c := ')') rfl).bind (mends_trailing _)) (by decide)

/-! ### Scripts -/

theorem commits_statement : Commits n (· ≠ .eof) Ends fun _ : γ => Statement.parse := by
  refine commits_peekKind ?_ ⟨.blank, branch_of_commits (by decide) commits_blanks⟩
  intro kind
  cases kind with
  | dollar => exact .inl (branch_of_commits (by decide) commits_sigilAssignment)
  | name => exact .inl (branch_of_commits (by decide) commits_declarationOrAssignment)
  | blank => exact .inl (branch_of_commits (by decide) commits_blanks)
  | keyword k =>
      cases k with
      | create => exact .inl (branch_of_commits (by decide) commits_procedureHeader)
      | beginBlock => exact .inl (branch_of_commits (by decide) commits_begin)
      | execute => exact .inl (branch_of_commits (by decide) commits_executeImmediate)
      | endBlock => exact .inl (branch_of_commits (by decide) commits_ending)
      | print => exact .inl (branch_of_commits (by decide) commits_printing)
      | _ => exact .inr (refuses_unexpected .statement)
  | _ => exact .inr (refuses_unexpected .statement)

def moreStatements : Scan (List Statement) := do
  let first ← Statement.parse
  note (.parsed first)
  let others ← many Program.nextStatement Program.advancing_nextStatement
  return first :: others

theorem many_nextStatement_eq :
    many Program.nextStatement Program.advancing_nextStatement =
      peekKind >>= fun kind => if kind = .eof then pure [] else moreStatements := by
  refine (many_eq Program.advancing_nextStatement).trans ?_
  unfold moreStatements
  generalize many Program.nextStatement Program.advancing_nextStatement = loop
  rw [Program.nextStatement]
  simp only [bind_assoc]
  congr
  funext kind
  split
  · rw [pure_bind]
  · simp only [bind_assoc, pure_bind]

theorem passes_end (value : γ → α) (b : γ → Scan α) :
    Passes (fun g => peekKind >>= fun kind =>
      if kind = .eof then pure (value g) else b g) [] [] := by
  refine passes_peekKind (Program.next_eof_iff.mpr rfl) ?_
  simp only [if_true]
  exact passes_pure value []

theorem fills_end (value : γ → α) (b : γ → Scan α) :
    Fills (fun _ text => text = []) Ends fun g =>
      peekKind >>= fun kind => if kind = .eof then pure (value g) else b g := by
  refine ⟨[], fun text htext => ?_⟩
  rw [htext []]
  exact ⟨fun place => .inl rfl, passes_end value b⟩

/-- Something that begins with a token, or else the end. Where it cannot
begin, the script may end. -/
theorem mends_unless_end {value : γ → α} {b : γ → Scan α}
    (hb : Commits n (· ≠ .eof) (fun _ text => text = []) b) :
    Mends n (fun _ text => text = []) Ends fun g =>
      peekKind >>= fun kind => if kind = .eof then pure (value g) else b g := by
  have himp {place text rest : Text}
      (hplace : Begins (· ≠ .eof) place text ∧ place.head? = text.head?)
      (hpasses : Passes b text rest) :
      Ends place text ∧ Passes (fun g => peekKind >>= fun kind =>
        if kind = .eof then pure (value g) else b g) text rest := by
    obtain ⟨⟨kind, hkind, hnext⟩, hhead⟩ := hplace
    refine ⟨.inr ⟨hhead, kind, hnext⟩, passes_peekKind hnext ?_⟩
    simpa only [if_neg hkind] using hpasses
  refine mends_peekKind (fills_end value b) ?_ ?_
  · intro g last s kind a u hs hn hnext hok
    split at hok
    · next hkind =>
        subst hkind
        cases hok
        rw [Program.next_eof_iff.mp hnext]
        refine ⟨hs, Nat.le_refl _, [], rfl, ?_⟩
        rintro text rfl
        exact ⟨.inl rfl, passes_end value b⟩
    · obtain ⟨hu, hle, hrenews⟩ := hb.ok hs hn hok
      exact ⟨hu, hle, (hrenews.head (hb.takes hs hn hok).2).imp himp⟩
  · intro g last s kind e u hs hn _ herror
    split at herror
    · cases herror
    · rcases (hb.error hs hn herror).head with hblamed | hrepairs
      · rw [hblamed]
        exact (fills_end value b).repairs s.unread
      · exact hrepairs.imp himp

/-- Reading statements up to the end of the script. -/
theorem mends_statements (n : Nat) :
    Mends n (fun _ text => text = []) Ends fun _ : γ =>
      many Program.nextStatement Program.advancing_nextStatement := by
  induction n with
  | zero =>
      rw [many_nextStatement_eq]
      exact mends_zero (fills_end _ _)
  | succ n ih =>
      have hothers : Mends n (fun _ text => text = []) Ends fun p : γ × Statement => (do
          note (.parsed p.2)
          let others ← many Program.nextStatement Program.advancing_nextStatement
          return p.2 :: others : Scan (List Statement)) :=
        (mends_note _).bind ((ih.comap fun p => p.1.1).bind (mends_pure _))
      have hmore : Commits (n + 1) (· ≠ .eof) (fun _ text => text = []) fun _ : γ =>
          moreStatements :=
        commits_statement.bind_of_le hothers (Nat.le_refl _)
      rw [many_nextStatement_eq]
      exact mends_unless_end hmore

end Scan

namespace Program

/-- What was read in front of an error is the beginning of a script. -/
theorem parse_mended {source : Text} {e : SyntaxError} {s : Scanner}
    (h : read (.ofText source) = .error e s) :
    ∃ front more program, source = front ++ e.blamed s ∧
      parse (front ++ more) = .ok program := by
  have herror : many nextStatement advancing_nextStatement (.ofText source) = .error e s := by
    rcases bind_eq_error h with h | ⟨start, t, hget, h⟩
    · cases h
    · cases hget
      rcases bind_eq_error h with h | ⟨statements, u, -, h⟩
      · exact h
      · cases h
  have hmends : Mends ((Scanner.ofText source).size + 1) (fun _ text => text = []) Ends
      fun _ : Unit => many nextStatement advancing_nextStatement := mends_statements _
  obtain ⟨front, more, hfront, hrepair⟩ :=
    hmends.error (g := ()) (Scanner.faithful_ofText source) (Nat.lt_succ_self _) herror
  obtain ⟨-, hpasses⟩ := hrepair [] fun _ => rfl
  rw [List.append_nil] at hpasses
  obtain ⟨statements, t, hok, -⟩ :=
    hpasses (g := ()) (Scanner.faithful_ofText (front ++ more)) rfl
  have hread : read (.ofText (front ++ more)) = .ok ⟨1, statements⟩ t := bind_of_ok hok
  refine ⟨front, more, ⟨1, statements⟩, hfront, ?_⟩
  rw [parse, hread]

/-- What is blamed is what the error is about. Behind an error about the
end nothing stands, unless it is raw text that has no end. -/
theorem front_eq_of_isAt {source before place front : Text} {e : SyntaxError} {s : Scanner}
    (hat : e.IsAt before place s) (hsource : source = before ++ place)
    (hfront : source = front ++ e.blamed s) :
    (if e.atEnd then source else before) = front := by
  have htoken (hplace : e.blamed s = place) (hend : e.atEnd = true → place = []) :
      (if e.atEnd then source else before) = front := by
    rw [hplace, hsource] at hfront
    obtain rfl := List.append_cancel_right hfront
    split
    · next h => rw [hsource, hend h, List.append_nil]
    · rfl
  have hend {found : Token} (hcut : Cut found.kind found.text s.rest)
      (hkind : decide (found.kind = .eof) = true) : found.text ++ s.rest = [] := by
    rw [of_decide_eq_true hkind] at hcut
    obtain ⟨htext, hrest⟩ := Cut.eof_iff.mp hcut
    rw [htext, hrest, List.append_nil]
  cases e with
  | unexpectedSymbol line symbol => exact htoken hat.2.2.2 (by nofun)
  | missingDelimiter line delimiter => exact hfront.trans (List.append_nil front)
  | mismatch wanted found =>
      obtain ⟨-, rfl, hcut, -⟩ := hat
      exact htoken rfl (hend hcut)
  | unexpected expected found =>
      obtain ⟨rfl, hcut, -⟩ := hat
      exact htoken rfl (hend hcut)
  | misspelt expected found => exact hat.elim
  | heldToken delimiter held => exact hat.elim

/-- Errors are reported as early as they can be, and they are final. What
stands in front of the token or character that an error is about is the
beginning of a script, and so is all of the text if the error is about
the end. And an error in front of a blank, unless it is about the end, is
the error of every longer script, with its line and its message. -/
theorem errors_early_and_final (source : Text) :
    (∀ e, parse source = .error e →
      ∃ s before place, read (.ofText source) = .error e s ∧ source = before ++ place ∧
        e.IsAt before place s ∧
        ∃ more program,
          parse ((if e.atEnd then source else before) ++ more) = .ok program) ∧
    ∀ e, parse (source ++ [' ']) = .error e → e.atEnd = false → ∀ tail,
      ∃ e', parse (source ++ ' ' :: tail) = .error e' ∧ e'.diagnostic = e.diagnostic := by
  refine ⟨?_, fun e h hend tail => parse_append_error h hend tail⟩
  intro e hparse
  obtain ⟨s, hread⟩ := read_of_parse_error hparse
  obtain ⟨before, place, hsource, hat, -⟩ :=
    (invariant_standsIn source).read.error (.ofText source) hread
  refine ⟨s, before, place, hread, hsource, hat, ?_⟩
  obtain ⟨front, more, program, hfront, hmended⟩ := parse_mended hread
  rw [front_eq_of_isAt hat hsource hfront]
  exact ⟨more, program, hmended⟩

end Program

end StoredProc
