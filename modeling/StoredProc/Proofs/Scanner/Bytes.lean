import StoredProc.Proofs.Scanner.Lookahead
import StoredProc.Proofs.Text.Boundary

/-!
Scanning bytes. A scanner need not carry the rest of its script: it is
enough to know a place in the bytes of the script. Tokens are then told
apart by single bytes and cut out of the script between two places, and
cutting fails, for good, where a place is not on a boundary.

It never does. From the same place, every operation on bytes comes to
what the operation on text comes to, and leaves the same scanner at a
place on a boundary (`Mirrors`). One operation after another, this holds
of every list of requests.
-/

namespace StoredProc

open Text Text.Utf8

/-! ### A scanner of bytes -/

structure ByteScanner where
  bytes : List UInt8
  place : Nat
  line : Nat
  held : Option Token
  trace : List Event
  deriving DecidableEq, Repr

def ByteScanner.size (b : ByteScanner) : Nat :=
  b.bytes.length - b.place + Scanner.heldSize b.held

/-- An operation on a scanner of bytes. `none` is for one that gives no
result: it cuts where no text can be cut, or never ends. -/
abbrev ByteScan := ExceptT SyntaxError (StateT ByteScanner Option)

namespace ByteScan

def slice (bytes : List UInt8) (start stop : Nat) : ByteScan Text := fun b =>
  (slice? bytes start stop).map fun text => (.ok text, b)

def ahead : ByteScan Text := fun b =>
  if b.place ≤ b.bytes.length then some (.ok (bytewise (b.bytes.drop b.place)), b) else none

def take (count : Nat) (kind : Kind) : ByteScan Token := do
  let b ← get
  let text ← slice b.bytes b.place (b.place + count)
  set { b with place := b.place + count }
  return ⟨b.line, kind, text⟩

def quote (c : Char) (alone pair : Kind) : ByteScan Token := do
  let b ← get
  if b.bytes[b.place + 1]?.map Char.ofUInt8 = some c then take 2 pair else take 1 alone

def word : ByteScan Token := do
  let count := ((← ahead).takeWhile isWordPart).length
  let b ← get
  let text ← slice b.bytes b.place (b.place + count)
  take count (Kind.ofWord text)

/-- A token of blanks is on the line it begins on. -/
def blank : ByteScan Token := do
  let count := ((← ahead).takeWhile isBlank).length
  let token ← take count .blank
  modify fun b => { b with line := b.line + lineBreaks (bytewise (encode token.text)) }
  return token

/-- No token begins here. At the end there would be no character to
name. -/
def unexpectedSymbol : ByteScan Token := do
  let b ← get
  let rest ← slice b.bytes b.place b.bytes.length
  throw (.unexpectedSymbol b.line (rest.head?.getD '\x00'))

/-- Cut a token off that begins with a byte, which is read as a character
by itself. -/
def cutFrom (c : Char) : ByteScan Token :=
  match Kind.ofPunctuation? c, Kind.ofQuote? c with
  | some kind, _ => take 1 kind
  | none, some (alone, pair) => quote c alone pair
  | none, none =>
      if isWordStart c then word else if isBlank c then blank else unexpectedSymbol

def cut : ByteScan Token := do
  let b ← get
  match b.bytes[b.place]? with
  | none => return ⟨b.line, .eof, []⟩
  | some byte =>
      let token ← cutFrom (Char.ofUInt8 byte)
      modify fun b => { b with trace := .token token :: b.trace }
      return token

def next : ByteScan Token := do
  let b ← get
  match b.held with
  | some token =>
      set { b with held := none }
      return token
  | none => cut

def peek : ByteScan Token := do
  let b ← get
  match b.held with
  | some token => return token
  | none =>
      let token ← cut
      modify fun b => { b with held := some token }
      return token

def peekKind : ByteScan Kind := do
  let token ← peek
  return token.kind

def expect (kind : Kind) : ByteScan Token := do
  let token ← next
  if token.kind = kind then return token else throw (.mismatch kind token)

def rawUntil (delimiter : Char) : ByteScan Text := do
  let b ← get
  match b.held with
  | some token => throw (.heldToken delimiter token)
  | none =>
      let rest ← slice b.bytes b.place b.bytes.length
      match find? (encodeChar delimiter) (encode rest) with
      | none => throw (.missingDelimiter b.line delimiter)
      | some stop =>
          let text ← slice (encode rest) 0 stop
          let line := b.line + lineBreaks (bytewise (encode text))
          modify fun b => { b with
            place := b.place + stop
            line := line
            trace := .skippedTo delimiter line (size text) :: b.trace }
          return text

/-- Tokens are taken for ever where one of them does not bring the scanner
on, and then there is no result. -/
def tokenize : ByteScan (List Token) := fun b =>
  match next b with
  | some (.ok token, b') =>
      if token.kind = .eof then some (.ok [token], b')
      else if _ : b'.size < b.size then
        match tokenize b' with
        | some (.ok tokens, b'') => some (.ok (token :: tokens), b'')
        | some (.error e, b'') => some (.error e, b'')
        | none => none
      else none
  | some (.error e, b') => some (.error e, b')
  | none => none
termination_by b => b.size

end ByteScan

def Request.performOnBytes : Request → ByteScan Answer
  | next => do return .token (← ByteScan.next)
  | peek => do return .token (← ByteScan.peek)
  | peekKind => do return .kind (← ByteScan.peekKind)
  | expect kind => do return .token (← ByteScan.expect kind)
  | rawUntil delimiter => do return .text (← ByteScan.rawUntil delimiter)
  | tokenize => do return .tokens (← ByteScan.tokenize)

namespace ByteScanner

def ofText (source : Text) : ByteScanner := ⟨encode source, 0, 1, none, []⟩

def isFinished (b : ByteScanner) : Bool :=
  match b.held with
  | some token => token.kind = .eof
  | none => b.bytes.length ≤ b.place

def after (b : ByteScanner) (requests : List Request) : Option ByteScanner :=
  requests.foldlM (fun b request => (request.performOnBytes b).map Prod.snd) b

end ByteScanner

/-- The scanner of bytes that stands where a scanner does, behind the text
in front of it. -/
def Scanner.inBytes (s : Scanner) (front : Text) : ByteScanner :=
  ⟨encode (front ++ s.rest), Utf8.size front, s.line, s.held, s.trace⟩

@[simp] theorem Scanner.held_inBytes (s : Scanner) (front : Text) :
    (s.inBytes front).held = s.held := rfl

theorem Scanner.length_inBytes (s : Scanner) (front : Text) :
    (s.inBytes front).bytes.length = (s.inBytes front).place + Utf8.size s.rest :=
  size_append front s.rest

theorem Scanner.place_inBytes_le (s : Scanner) (front : Text) :
    (s.inBytes front).place ≤ (s.inBytes front).bytes.length := by
  rw [length_inBytes]
  exact Nat.le_add_right _ _

theorem Scanner.size_inBytes (s : Scanner) (front : Text) :
    (s.inBytes front).size = Utf8.size s.rest + heldSize s.held := by
  rw [ByteScanner.size, length_inBytes, Nat.add_sub_cancel_left, held_inBytes]

namespace Lexeme

variable {c d : Char} {more : Text} {l : Lexeme}

structure BeginsNone (c : Char) : Prop where
  mark : Kind.ofPunctuation? c = none
  quote : Kind.ofQuote? c = none
  start : isWordStart c = false
  blank : isBlank c = false

/-- A token that does not begin with a blank breaks no line. -/
theorem lineBreaks_of_first (hc : isBlank c = false)
    (h : first (c :: more) = .ok l) : lineBreaks l.text = 0 := by
  have hcut := cut_of_first h
  have hkind : l.kind ≠ .blank := by
    intro hblank
    rw [hblank] at hcut
    obtain ⟨hne, hlayout, -⟩ := Cut.blank_iff.mp hcut
    obtain ⟨d, tail, htext⟩ := List.exists_cons_of_ne_nil hne
    have happend := text_append_rest_of_first h
    rw [htext, List.cons_append] at happend
    have hd : isBlank d = true := hlayout d (by simp [htext])
    rw [(List.cons.inj happend).1, hc] at hd
    cases hd
  exact lineBreaks_eq_zero fun d hd =>
    isBreak_eq_false_of_isBlank_eq_false (hcut.isBlank_eq_false hkind d hd)

/-- A character outside ASCII begins no token. -/
theorem beginsNone_of_le (hc : 0x80 ≤ c.toNat) : BeginsNone c := by
  have hpart := ascii_isWordPart c hc
  refine ⟨?_, ?_, ?_, ascii_isBlank c hc⟩
  · cases h : Kind.ofPunctuation? c with
    | none => rfl
    | some kind =>
        rw [Kind.ofPunctuation?_eq_some_iff] at h
        rcases h with ⟨rfl, -⟩ | ⟨rfl, -⟩ | ⟨rfl, -⟩ | ⟨rfl, -⟩ | ⟨rfl, -⟩ | ⟨rfl, -⟩ | ⟨rfl, -⟩ <;>
          exact absurd hc (by decide)
  · cases h : Kind.ofQuote? c with
    | none => rfl
    | some kinds =>
        rcases Kind.ofQuote?_eq_some_iff.mp h with ⟨rfl, -⟩ | ⟨rfl, -⟩ <;>
          exact absurd hc (by decide)
  · cases h : isWordStart c with
    | false => rfl
    | true =>
        rw [isWordPart_of_isWordStart h] at hpart
        cases hpart

theorem beginsNone_of_first (h : first (c :: more) = .error d) : d = c ∧ BeginsNone c := by
  rw [first] at h
  split at h
  · cases h
  · cases h
  · next hmark hquote =>
      split at h
      · cases h
      · next hstart =>
          split at h
          · cases h
          · next hblank =>
              cases h
              exact ⟨rfl, hmark, hquote, Bool.eq_false_iff.mpr hstart, Bool.eq_false_iff.mpr hblank⟩

theorem first_of_beginsNone (h : BeginsNone c) (more : Text) : first (c :: more) = .error c := by
  rw [first, h.mark, h.quote]
  dsimp only
  rw [h.start, h.blank]
  rfl

theorem kind_ne_eof_of_first (h : first (c :: more) = .ok l) : l.kind ≠ .eof := by
  intro hend
  have hcut := cut_of_first h
  rw [hend] at hcut
  exact text_ne_nil_of_first h (Cut.eof_iff.mp hcut).1

end Lexeme

namespace ByteScan

variable {α β : Type} {b b' : ByteScanner} {s t : Scanner} {front text rest : Text} {c d : Char}

/-! ### Steps of a computation -/

theorem bind_of_ok {m : ByteScan α} {k : α → ByteScan β} {a : α} (h : m b = some (.ok a, b')) :
    (m >>= k) b = k a b' := by
  change StateT.bind m (ExceptT.bindCont k) b = _
  rw [StateT.bind, h]
  rfl

theorem bind_of_error {m : ByteScan α} {k : α → ByteScan β} {e : SyntaxError}
    (h : m b = some (.error e, b')) : (m >>= k) b = some (.error e, b') := by
  change StateT.bind m (ExceptT.bindCont k) b = _
  rw [StateT.bind, h]
  rfl

theorem get_bind (k : ByteScanner → ByteScan β) (b : ByteScanner) : (get >>= k) b = k b b := rfl

theorem set_bind (b' : ByteScanner) (k : PUnit → ByteScan β) (b : ByteScanner) :
    (set b' >>= k) b = k ⟨⟩ b' := rfl

theorem modify_bind (f : ByteScanner → ByteScanner) (k : PUnit → ByteScan β) (b : ByteScanner) :
    (modify f >>= k) b = k ⟨⟩ (f b) := rfl

/-! ### Cutting a token off -/

theorem slice_inBytes (h : s.rest = text ++ rest) (front : Text) :
    slice (s.inBytes front).bytes (s.inBytes front).place ((s.inBytes front).place + size text)
      (s.inBytes front) = some (.ok text, s.inBytes front) := by
  rw [slice, Scanner.inBytes, h, slice?_encode]
  rfl

theorem slice_rest_inBytes (s : Scanner) (front : Text) :
    slice (s.inBytes front).bytes (s.inBytes front).place (s.inBytes front).bytes.length
      (s.inBytes front) = some (.ok s.rest, s.inBytes front) := by
  rw [slice, Scanner.inBytes, slice?_rest]
  rfl

theorem ahead_inBytes (s : Scanner) (front : Text) :
    ahead (s.inBytes front) = some (.ok (bytewise (encode s.rest)), s.inBytes front) := by
  rw [ahead, if_pos (s.place_inBytes_le front), Scanner.inBytes, encode_append, Utf8.size,
    List.drop_left]

theorem take_inBytes (h : s.rest = text ++ rest) (kind : Kind) (front : Text) :
    take (size text) kind (s.inBytes front) =
      some (.ok ⟨s.line, kind, text⟩, { s with rest := rest }.inBytes (front ++ text)) := by
  rw [take, get_bind, bind_of_ok (slice_inBytes h front), set_bind, Scanner.inBytes,
    Scanner.inBytes, h, size_append, List.append_assoc]
  rfl

theorem word_inBytes (s : Scanner) (front : Text) :
    word (s.inBytes front) =
      let l := Lexeme.ofRun isWordPart Kind.ofWord s.rest
      some (.ok ⟨s.line, l.kind, l.text⟩, { s with rest := l.rest }.inBytes (front ++ l.text)) := by
  have hrest : s.rest = s.rest.takeWhile isWordPart ++ s.rest.dropWhile isWordPart :=
    List.takeWhile_append_dropWhile.symm
  rw [word, bind_of_ok (ahead_inBytes s front), length_takeWhile_bytewise ascii_isWordPart,
    get_bind, bind_of_ok (slice_inBytes hrest front)]
  exact take_inBytes hrest _ front

theorem blank_inBytes (s : Scanner) (front : Text) :
    blank (s.inBytes front) =
      let l := Lexeme.ofRun isBlank (fun _ => .blank) s.rest
      let t := { s with rest := l.rest, line := s.line + lineBreaks l.text }
      some (.ok ⟨s.line, l.kind, l.text⟩, t.inBytes (front ++ l.text)) := by
  have hrest : s.rest = s.rest.takeWhile isBlank ++ s.rest.dropWhile isBlank :=
    List.takeWhile_append_dropWhile.symm
  rw [blank, bind_of_ok (ahead_inBytes s front), length_takeWhile_bytewise ascii_isBlank,
    bind_of_ok (take_inBytes hrest _ front), modify_bind, lineBreaks_bytewise]
  rfl

theorem quote_inBytes {more : Text} (hc : c.toNat < 0x80) (h : s.rest = c :: more)
    (alone pair : Kind) (front : Text) :
    quote c alone pair (s.inBytes front) =
      let l := Lexeme.ofQuote alone pair c more
      some (.ok ⟨s.line, l.kind, l.text⟩, { s with rest := l.rest }.inBytes (front ++ l.text)) := by
  have hone : size [c] = 1 := size_singleton hc
  have hsecond : (s.inBytes front).bytes[(s.inBytes front).place + 1]?.map Char.ofUInt8 =
      (bytewise (encode more)).head? := by
    have hbyte := getElem?_size (front ++ [c]) more
    rw [size_append, hone, List.append_assoc, List.singleton_append] at hbyte
    rw [Scanner.inBytes, h, hbyte, bytewise, List.head?_map]
  rw [quote, get_bind, hsecond]
  by_cases hmore : more.head? = some c
  · obtain ⟨tail, rfl⟩ := List.head?_eq_some_iff.mp hmore
    have htwo : size [c, c] = 2 := by
      rw [← List.singleton_append, size_append, hone]
    rw [if_pos ((head?_bytewise_eq_iff hc _).mpr hmore), ← htwo, Lexeme.ofQuote, if_pos rfl]
    exact take_inBytes h pair front
  · rw [if_neg (mt (head?_bytewise_eq_iff hc _).mp hmore), ← hone]
    have hl : Lexeme.ofQuote alone pair c more = ⟨alone, [c], more⟩ := by
      cases more with
      | nil => rfl
      | cons d tail => rw [Lexeme.ofQuote, if_neg (by simpa using hmore)]
    rw [hl]
    exact take_inBytes h alone front

theorem unexpectedSymbol_inBytes {more : Text} (h : s.rest = c :: more) (front : Text) :
    unexpectedSymbol (s.inBytes front) =
      some (.error (.unexpectedSymbol s.line c), s.inBytes front) := by
  rw [unexpectedSymbol, get_bind, bind_of_ok (slice_rest_inBytes s front), h]
  rfl

/-- The token that the first byte decides on is the first token of the
text. -/
theorem cutFrom_of_ok {more : Text} {l : Lexeme} (hc : c.toNat < 0x80) (h : s.rest = c :: more)
    (hfirst : Lexeme.first (c :: more) = .ok l) (front : Text) :
    cutFrom c (s.inBytes front) = some (.ok ⟨s.line, l.kind, l.text⟩,
      { s with rest := l.rest, line := s.line + lineBreaks l.text }.inBytes (front ++ l.text)) := by
  have hline (hblank : isBlank c = false) := Lexeme.lineBreaks_of_first hblank hfirst
  rw [Lexeme.first] at hfirst
  split at hfirst
  · next kind hmark =>
      cases hfirst
      rw [cutFrom, hmark, hline (Kind.isBlank_isWordPart_of_ofPunctuation? hmark).1,
        ← size_singleton hc]
      exact take_inBytes h kind front
  · next alone pair hmark hquote =>
      cases hfirst
      rw [cutFrom, hmark, hquote, hline (Kind.isBlank_isWordPart_of_ofQuote? hquote).1]
      exact quote_inBytes hc h alone pair front
  · next hmark hquote =>
      rw [cutFrom, hmark, hquote]
      dsimp only
      split at hfirst
      · next hstart =>
          cases hfirst
          have hblank := isBlank_eq_false_of_isWordPart (isWordPart_of_isWordStart hstart)
          rw [if_pos hstart, hline hblank, ← h]
          exact word_inBytes s front
      · next hstart =>
          split at hfirst
          · next hblank =>
              cases hfirst
              rw [if_neg hstart, if_pos hblank, ← h]
              exact blank_inBytes s front
          · cases hfirst

theorem cutFrom_of_beginsNone {more : Text} (h : s.rest = d :: more)
    (hc : Lexeme.BeginsNone c) (front : Text) :
    cutFrom c (s.inBytes front) =
      some (.error (.unexpectedSymbol s.line d), s.inBytes front) := by
  rw [cutFrom, hc.mark, hc.quote]
  dsimp only
  rw [hc.start, hc.blank]
  exact unexpectedSymbol_inBytes h front

/-! ### Bytes and text -/

/-- A result on bytes is a result on text: it comes to the same, and what
it leaves stands at the same place of the script. -/
inductive Matches (source : Text) : EStateM.Result SyntaxError Scanner α →
    Option (Except SyntaxError α × ByteScanner) → Prop
  | ok {a : α} {t : Scanner} (front : Text) (h : front ++ t.rest = source) :
      Matches source (.ok a t) (some (.ok a, t.inBytes front))
  | error {e : SyntaxError} {t : Scanner} (front : Text) (h : front ++ t.rest = source) :
      Matches source (.error e t) (some (.error e, t.inBytes front))

def Mirrors (m' : ByteScan α) (m : Scan α) : Prop :=
  ∀ (s : Scanner) (front : Text), Matches (front ++ s.rest) (m s) (m' (s.inBytes front))

theorem mirrors_pure (a : α) : Mirrors (pure a) (pure a) := fun _ front => .ok front rfl

theorem mirrors_throw (e : SyntaxError) : Mirrors (throw e) (throw e : Scan α) :=
  fun _ front => .error front rfl

theorem Matches.exists_run {source : Text} {m : Scan α}
    {result : Option (Except SyntaxError α × ByteScanner)} (h : Matches source (m s) result) :
    ∃ front, front ++ (Scan.leaves m s).rest = source ∧
      result = some (Scan.outcome m s, (Scan.leaves m s).inBytes front) := by
  unfold Scan.leaves Scan.outcome
  generalize m s = result' at h
  cases h with
  | ok front h => exact ⟨front, h, rfl⟩
  | error front h => exact ⟨front, h, rfl⟩

theorem Mirrors.bind {m' : ByteScan α} {m : Scan α} {k' : α → ByteScan β} {k : α → Scan β}
    (hm : Mirrors m' m) (hk : ∀ a, Mirrors (k' a) (k a)) : Mirrors (m' >>= k') (m >>= k) := by
  intro s front
  have hfirst := hm s front
  generalize hs : m s = result at hfirst
  generalize hb : m' (s.inBytes front) = result' at hfirst
  cases hfirst with
  | @ok a t mid h =>
      rw [StoredProc.bind_of_ok hs, bind_of_ok hb, ← h]
      exact hk a t mid
  | error mid h =>
      rw [StoredProc.bind_of_error hs, bind_of_error hb]
      exact .error mid h

theorem mirrors_cut : Mirrors cut Scan.cut := by
  intro s front
  have hbyte : (s.inBytes front).bytes[(s.inBytes front).place]? = (encode s.rest).head? :=
    getElem?_size front s.rest
  rw [cut, get_bind, hbyte, Scan.cut]
  cases hrest : s.rest with
  | nil =>
      obtain ⟨rest, line, held, trace⟩ := s
      cases hrest
      exact .ok front rfl
  | cons c more =>
      obtain ⟨a, hhead, ha⟩ := head?_encode_cons c more
      rw [hhead]
      -- The byte is the character, or neither of them begins a token.
      cases hfirst : Lexeme.first (c :: more) with
      | error d =>
          obtain ⟨rfl, hnone⟩ := Lexeme.beginsNone_of_first hfirst
          have hbegins : Lexeme.BeginsNone (Char.ofUInt8 a) := by
            rcases ha with ⟨-, hsame⟩ | ⟨-, hhigh⟩
            · exact hsame.symm ▸ hnone
            · exact Lexeme.beginsNone_of_le hhigh
          dsimp only
          rw [bind_of_error (cutFrom_of_beginsNone hrest hbegins front)]
          exact .error front (by rw [hrest])
      | ok l =>
          rcases ha with ⟨hc, hsame⟩ | ⟨hc, -⟩
          · dsimp only
            rw [hsame, bind_of_ok (cutFrom_of_ok hc hrest hfirst front), modify_bind,
              Scanner.pass, if_neg (Lexeme.kind_ne_eof_of_first hfirst)]
            refine .ok (front ++ l.text) ?_
            rw [List.append_assoc, Lexeme.text_append_rest_of_first hfirst]
          · rw [Lexeme.first_of_beginsNone (Lexeme.beginsNone_of_le hc)] at hfirst
            cases hfirst

theorem mirrors_next : Mirrors next Scan.next := by
  intro s front
  rw [next, get_bind, Scanner.held_inBytes, Scan.next]
  cases s.held with
  | some token => exact .ok front rfl
  | none => exact mirrors_cut s front

theorem mirrors_peek : Mirrors peek Scan.peek := by
  intro s front
  rw [peek, get_bind, Scanner.held_inBytes, Scan.peek]
  cases s.held with
  | some token => exact .ok front rfl
  | none =>
      dsimp only
      have hcut := mirrors_cut s front
      generalize hrun : cut (s.inBytes front) = result at hcut
      generalize Scan.cut s = result' at hcut
      cases hcut with
      | ok mid h =>
          rw [bind_of_ok hrun, modify_bind]
          exact .ok mid h
      | error mid h =>
          rw [bind_of_error hrun]
          exact .error mid h

theorem mirrors_peekKind : Mirrors peekKind Scan.peekKind :=
  mirrors_peek.bind fun token => mirrors_pure token.kind

theorem mirrors_expect (kind : Kind) : Mirrors (expect kind) (Scan.expect kind) := by
  refine mirrors_next.bind fun token => ?_
  split
  · exact mirrors_pure token
  · exact mirrors_throw (.mismatch kind token)

theorem mirrors_rawUntil (d : Char) : Mirrors (rawUntil d) (Scan.rawUntil d) := by
  intro s front
  rw [rawUntil, get_bind, Scanner.held_inBytes]
  cases hheld : s.held with
  | some token =>
      rw [Scan.rawUntil, hheld]
      exact .error front rfl
  | none =>
      dsimp only
      rw [bind_of_ok (slice_rest_inBytes s front)]
      by_cases hmem : d ∈ s.rest
      · obtain ⟨raw, more, hsplit, hraw⟩ := List.eq_append_cons_of_mem hmem
        have hslice : slice (encode s.rest) 0 (size raw) (s.inBytes front) =
            some (.ok raw, s.inBytes front) := by
          rw [slice, hsplit, slice?_front]
          rfl
        have hfind : find? (encodeChar d) (encode s.rest) = some (size raw) := by
          rw [hsplit, find?_encode_append hraw]
        rw [Scan.rawUntil_of_eq hheld hsplit hraw, hfind]
        dsimp only
        rw [bind_of_ok hslice, modify_bind, lineBreaks_bytewise]
        have hpass : (s.passRaw d raw (d :: more)).inBytes (front ++ raw) =
            { s.inBytes front with
              place := (s.inBytes front).place + size raw
              line := s.line + lineBreaks raw
              trace := .skippedTo d (s.line + lineBreaks raw) (size raw) :: s.trace } := by
          rw [Scanner.inBytes, Scanner.inBytes, hsplit, size_append, List.append_assoc]
          rfl
        have hresult : Matches (front ++ (raw ++ d :: more))
            (.ok raw (s.passRaw d raw (d :: more)) : EStateM.Result SyntaxError Scanner Text)
            (some (.ok raw, (s.passRaw d raw (d :: more)).inBytes (front ++ raw))) :=
          .ok (front ++ raw) (List.append_assoc front raw (d :: more))
        rw [hpass, ← hsplit] at hresult
        exact hresult
      · rw [Scan.rawUntil_of_not_mem hheld hmem, find?_encode_of_not_mem hmem]
        exact .error front rfl

/-- A token that is not the last leaves fewer bytes. -/
theorem size_lt_of_next {token : Token} (h : Scan.next s = .ok token t) (hk : token.kind ≠ .eof) :
    Utf8.size t.rest + Scanner.heldSize t.held < Utf8.size s.rest + Scanner.heldSize s.held := by
  have hheld := Scan.held_of_next h
  unfold Scan.next at h
  split at h
  · next held hs =>
      cases h
      simp [hs, Scanner.heldSize, hk]
  · next hs =>
      obtain ⟨hrest, hcut, -⟩ := Scan.spec_of_cut h
      have hpos := size_pos (hcut.text_ne_nil hk)
      rw [hheld, hs, hrest, size_append]
      omega

theorem matches_tokenize (s : Scanner) (front : Text) :
    Matches (front ++ s.rest) (Scan.tokenize s) (tokenize (s.inBytes front)) := by
  have hfirst := mirrors_next s front
  rw [Scan.tokenize_eq, tokenize]
  generalize hnext : Scan.next s = result at hfirst
  generalize next (s.inBytes front) = result' at hfirst ⊢
  cases hfirst with
  | error mid h =>
      rw [StoredProc.bind_of_error hnext]
      exact .error mid h
  | @ok token t mid h =>
      rw [StoredProc.bind_of_ok hnext]
      dsimp only
      by_cases hend : token.kind = .eof
      · rw [if_pos hend, if_pos hend]
        exact .ok mid h
      · have hsize : (t.inBytes mid).size < (s.inBytes front).size := by
          rw [Scanner.size_inBytes, Scanner.size_inBytes]
          exact size_lt_of_next hnext hend
        have hsmaller := Scan.size_lt_of_next hnext hend
        have hmore := matches_tokenize t mid
        rw [if_neg hend, if_neg hend, dif_pos hsize, ← h]
        generalize htokens : Scan.tokenize t = result at hmore
        generalize tokenize (t.inBytes mid) = result' at hmore ⊢
        cases hmore with
        | ok last h' =>
            rw [StoredProc.bind_of_ok htokens]
            exact .ok last h'
        | error last h' =>
            rw [StoredProc.bind_of_error htokens]
            exact .error last h'
termination_by s.size

/-- Every request is answered on bytes as it is on text. -/
theorem mirrors_perform (request : Request) : Mirrors request.performOnBytes request.perform := by
  cases request with
  | next => exact mirrors_next.bind fun token => mirrors_pure _
  | peek => exact mirrors_peek.bind fun token => mirrors_pure _
  | peekKind => exact mirrors_peekKind.bind fun kind => mirrors_pure _
  | expect kind => exact (mirrors_expect kind).bind fun token => mirrors_pure _
  | rawUntil d => exact (mirrors_rawUntil d).bind fun raw => mirrors_pure _
  | tokenize => exact Mirrors.bind matches_tokenize fun tokens => mirrors_pure _

end ByteScan

end StoredProc
