import StoredProc.Proofs.Program.Invariant
import StoredProc.Proofs.Program.Reading
import StoredProc.Proofs.Scanner.Lockstep

/-!
The pieces of a script: the tokens and the stretches of raw text that
reading has passed, in the order in which the trace tells of them. An
event of raw text has its length only, so the text is found again in the
script itself. The pieces of a script that was read make it up.
-/

namespace StoredProc

open Text Scan

/-! ### Pieces -/

inductive Piece where
  | token (kind : Kind) (text : Text)
  | raw (text : Text)
  deriving DecidableEq, Repr

namespace Piece

def text : Piece → Text
  | token _ text => text
  | raw text => text

def join (pieces : List Piece) : Text := pieces.flatMap text

/-- What an event adds to the pieces that were passed, and takes off the
text behind them. -/
def tell : List Piece × Text → Event → List Piece × Text
  | (pieces, behind), .token t => (pieces ++ [token t.kind t.text], behind.drop t.text.length)
  | (pieces, behind), .skippedTo d _ _ =>
      (pieces ++ [raw (behind.takeWhile (· != d))], behind.dropWhile (· != d))
  | told, _ => told

def Spelt : Piece → Prop
  | token kind text => ∃ rest, Cut kind text rest
  | raw _ => True

@[simp] theorem join_nil : join [] = [] := rfl

@[simp] theorem join_cons (piece : Piece) (pieces : List Piece) :
    join (piece :: pieces) = piece.text ++ join pieces := rfl

@[simp] theorem join_append (pieces pieces' : List Piece) :
    join (pieces ++ pieces') = join pieces ++ join pieces' :=
  List.flatMap_append

end Piece

def Program.pieces (source : Text) : List Piece :=
  ((parseEvents source).foldl Piece.tell ([], source)).1

namespace Scan

variable {source : Text} {s t : Scanner} {token : Token} {l : Lexeme} {d : Char} {raw more : Text}

/-! ### Invariants of the scanner's moves -/

/-- The invariant holds wherever the scanner moves. -/
structure Stable (inv : Scanner → Prop) : Prop where
  pass : ∀ {s l}, inv s → Lexeme.first s.rest = .ok l → inv (s.pass l)
  passRaw : ∀ {s d raw more}, inv s → s.rest = raw ++ d :: more → d ∉ raw →
    inv (s.passRaw d raw (d :: more))
  hold : ∀ {s token}, inv s → token.Spelt → inv (s.hold token)
  drop : ∀ {s}, inv s → inv s.drop
  trace : ∀ {s} statement, inv s → inv { s with trace := .parsed statement :: s.trace }
  held : ∀ {s}, inv s → ∀ token ∈ s.held, token.Spelt

theorem peek_eq_ok_cases (h : peek s = .ok token t) :
    (s.held = some token ∧ t = s) ∨
      ∃ l, Lexeme.first s.rest = .ok l ∧ token = ⟨s.line, l.kind, l.text⟩ ∧
        t = (s.pass l).hold token := by
  unfold peek at h
  split at h
  · next hheld =>
      cases h
      exact .inl ⟨hheld, rfl⟩
  · split at h
    · next u hcut =>
        cases h
        unfold cut at hcut
        split at hcut
        · next l hl =>
            cases hcut
            exact .inr ⟨l, hl, rfl, rfl⟩
        · cases hcut
    · cases h

theorem Stable.peek_ok {inv : Scanner → Prop} (h : Stable inv) (hs : inv s)
    (hpeek : peek s = .ok token t) : inv t ∧ token.Spelt := by
  obtain ⟨hheld, rfl⟩ | ⟨l, hl, rfl, rfl⟩ := peek_eq_ok_cases hpeek
  · exact ⟨hs, h.held hs token hheld⟩
  · have hspelt : (⟨s.line, l.kind, l.text⟩ : Token).Spelt := ⟨_, Lexeme.cut_of_first hl⟩
    exact ⟨h.hold (h.pass hs hl) hspelt, hspelt⟩

theorem Stable.next_ok {inv : Scanner → Prop} (h : Stable inv) (hs : inv s)
    (hnext : next s = .ok token t) : inv t ∧ token.Spelt := by
  cases hpeek : Scan.peek s with
  | error e u =>
      rw [next_of_peek_error hpeek] at hnext
      cases hnext
  | ok found u =>
      obtain ⟨hu, hspelt⟩ := h.peek_ok hs hpeek
      rw [next_of_peek hpeek] at hnext
      cases hnext
      exact ⟨h.drop hu, hspelt⟩

theorem Stable.rawUntil_ok {inv : Scanner → Prop} (h : Stable inv) (hs : inv s)
    (hraw : rawUntil d s = .ok raw t) : inv t := by
  obtain ⟨-, more, hsplit, hfront, rfl⟩ := rawUntil_eq_ok_cases hraw
  exact h.passRaw hs hsplit hfront

theorem Stable.invariant {inv : Scanner → Prop} (h : Stable inv) :
    Invariant inv fun _ _ => True := by
  have hexpect (kind : Kind) : Keeps inv (fun _ _ => True) (expect kind) := by
    refine ⟨?_, fun _ _ => trivial⟩
    intro s token t hs hok
    exact (h.next_ok hs (next_of_expect hok).1).1
  refine ⟨?_, hexpect, ?_, h.trace, fun _ _ _ => trivial, ?_⟩
  · exact ⟨fun hs hok => (h.peek_ok hs hok).1, fun _ _ => trivial⟩
  · intro kind d _
    refine keeps_expectRaw (hexpect kind) ?_ fun _ _ _ => trivial
    intro s token t raw u hs htoken hraw
    exact h.rawUntil_ok ((hexpect kind).ok hs htoken) hraw
  · intro s token t hs hnext
    exact (h.next_ok hs hnext).2

/-! ### What the trace tells -/

/-- The pieces that were passed, and the text behind them. -/
def retold (source : Text) (s : Scanner) : List Piece × Text :=
  s.trace.reverse.foldl Piece.tell ([], source)

theorem retold_trace (event : Event) :
    retold source { s with trace := event :: s.trace } = Piece.tell (retold source s) event := by
  rw [retold, List.reverse_cons, List.foldl_append]
  rfl

theorem retold_parsed (statement : Statement) :
    retold source { s with trace := .parsed statement :: s.trace } = retold source s :=
  retold_trace _

@[simp] theorem retold_hold : retold source (s.hold token) = retold source s := rfl

theorem retold_pass_eof (h : l.kind = .eof) : retold source (s.pass l) = retold source s := by
  rw [retold, Scanner.pass, if_pos h]
  rfl

theorem retold_pass (h : l.kind ≠ .eof) :
    retold source (s.pass l) =
      ((retold source s).1 ++ [.token l.kind l.text], (retold source s).2.drop l.text.length) := by
  rw [retold, Scanner.pass, if_neg h]
  exact retold_trace (.token ⟨s.line, l.kind, l.text⟩)

theorem retold_passRaw (rest : Text) :
    retold source (s.passRaw d raw rest) =
      ((retold source s).1 ++ [.raw ((retold source s).2.takeWhile (· != d))],
        (retold source s).2.dropWhile (· != d)) :=
  retold_trace _

structure Told (source : Text) (s : Scanner) : Prop where
  rest : (retold source s).2 = s.rest
  join : Piece.join (retold source s).1 ++ s.rest = source
  spelt : ∀ piece ∈ (retold source s).1, piece.Spelt
  held : ∀ token ∈ s.held, token.Spelt

theorem Told.ofText (source : Text) : Told source (.ofText source) :=
  ⟨rfl, rfl, fun _ h => absurd h List.not_mem_nil, by rintro token ⟨⟩⟩

theorem Told.stay (h : Told source s) (hretold : retold source t = retold source s)
    (hrest : t.rest = s.rest) (hheld : ∀ token ∈ t.held, token.Spelt) : Told source t := by
  refine ⟨?_, ?_, ?_, hheld⟩
  · rw [hretold, hrest, h.rest]
  · rw [hretold, hrest, h.join]
  · rw [hretold]
    exact h.spelt

theorem Told.add {piece : Piece} (h : Told source s)
    (hretold : retold source t = ((retold source s).1 ++ [piece], t.rest))
    (hrest : s.rest = piece.text ++ t.rest) (hspelt : piece.Spelt) (hheld : t.held = s.held) :
    Told source t := by
  refine ⟨?_, ?_, ?_, ?_⟩
  · rw [hretold]
  · have hjoin := h.join
    rw [hrest] at hjoin
    rw [hretold, Piece.join_append, List.append_assoc, Piece.join_cons, Piece.join_nil,
      List.append_nil]
    exact hjoin
  · rw [hretold]
    intro other hother
    rcases List.mem_append.mp hother with hother | hother
    · exact h.spelt other hother
    · rw [List.mem_singleton.mp hother]
      exact hspelt
  · rw [hheld]
    exact h.held

theorem Told.pass (h : Told source s) (hl : Lexeme.first s.rest = .ok l) :
    Told source (s.pass l) := by
  obtain ⟨hrest, hcut⟩ := Lexeme.first_eq_ok_iff.mp hl
  by_cases hend : l.kind = .eof
  · refine h.stay (retold_pass_eof hend) ?_ h.held
    rw [hend] at hcut
    rw [hrest, (Cut.eof_iff.mp hcut).1]
    rfl
  · have hretold : retold source (s.pass l) =
        ((retold source s).1 ++ [.token l.kind l.text], l.rest) := by
      rw [retold_pass hend, h.rest, hrest, List.drop_left]
    exact h.add hretold hrest ⟨_, hcut⟩ rfl

/-- Raw text is told of by its delimiter. -/
theorem Told.retold_passRaw (h : Told source s) (hrest : s.rest = raw ++ d :: more)
    (hraw : d ∉ raw) :
    retold source (s.passRaw d raw (d :: more)) =
      ((retold source s).1 ++ [.raw raw], d :: more) := by
  have hmem : ∀ c ∈ raw, (c != d) = true := by
    intro c hc
    rw [bne_iff_ne]
    rintro rfl
    exact hraw hc
  have hstop : Stops (· != d) (d :: more) := stops_cons.mpr (by simp)
  rw [Scan.retold_passRaw, h.rest, hrest, takeWhile_append_of_stops hmem hstop,
    dropWhile_append_of_stops hmem hstop]

theorem stable_told (source : Text) : Stable (Told source) where
  pass := Told.pass
  passRaw := fun h hrest hraw => h.add (h.retold_passRaw hrest hraw) hrest trivial rfl
  hold := by
    intro s token h hspelt
    refine h.stay rfl rfl ?_
    rintro token ⟨⟩
    exact hspelt
  drop := fun h => h.stay rfl rfl (by rintro token ⟨⟩)
  trace := fun statement h => h.stay (retold_parsed statement) rfl h.held
  held := Told.held

end Scan

/-! ### Scripts -/

namespace Program

variable {source : Text} {program : Program} {s : Scanner}

theorem read_of_parse (h : parse source = .ok program) :
    ∃ s, read (.ofText source) = .ok program s := by
  unfold parse at h
  split at h
  · next s hread =>
      cases h
      exact ⟨s, hread⟩
  · cases h

/-- A script is read to its end. -/
theorem rest_of_read (h : read (.ofText source) = .ok program s) : s.rest = [] := by
  obtain ⟨_, t, hget, h⟩ := bind_eq_ok h
  cases hget
  obtain ⟨statements, u, hmany, h⟩ := bind_eq_ok h
  cases h
  have hreads : Reads (1 + lineBreaks source) Opens Opens
      (many nextStatement advancing_nextStatement) (Repeats (NextStatementAt _)) :=
    reads_many advancing_nextStatement reads_nextStatement
  obtain ⟨hrepeats, -⟩ := hreads.sound (Scanner.faithful_ofText source) hmany
  have hunread := (repeats_iff_script.mp hrepeats).2
  unfold Scanner.unread at hunread
  split at hunread
  · exact (List.append_eq_nil_iff.mp hunread).2
  · exact hunread

theorem pieces_of_read (h : read (.ofText source) = .ok program s) :
    pieces source = (retold source s).1 := by
  rw [pieces, parseEvents, h]
  rfl

/-- The pieces of a script make it up. -/
theorem join_pieces (h : parse source = .ok program) : Piece.join (pieces source) = source := by
  obtain ⟨s, hread⟩ := read_of_parse h
  have htold := (stable_told source).invariant.read.ok (.ofText source) hread
  have hjoin := htold.join
  rwa [rest_of_read hread, List.append_nil, ← pieces_of_read hread] at hjoin

end Program

end StoredProc
