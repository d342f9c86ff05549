import StoredProc.Proofs.Program.Invariant
import StoredProc.Proofs.Scanner.Request

/-!
Reading blames the script and nothing else. A script may be read from a
scanner that anything has been asked of before, and again after reading
has failed: raw text is never asked for while a token is held, and a word
is looked up as a type or direction only where it is one.

Types and directions have two vocabularies, the keywords in upper case
and the words for values in lower case. They are the same words, because
letter case is the only difference.
-/

namespace StoredProc

open Text Scan

/-! ### Two vocabularies -/

theorem Keyword.isWord_toLower_spelling (k : Keyword) : IsWord k.spelling.toLower := by
  cases k <;> decide

/-- Of the tokens that can be, those that spell a keyword are of its
kind. -/
theorem Token.Spelt.kind_eq_iff {token : Token} (h : token.Spelt) (k : Keyword) :
    token.kind = .keyword k ↔ token.text.toUpper = k.spelling := by
  refine ⟨h.toUpper_eq, ?_⟩
  intro hk
  obtain ⟨rest, hcut⟩ := h
  obtain ⟨line, kind, text⟩ := token
  -- The first character is a letter in lower case, so it is one in any case.
  have hlower : text.toLower = k.spelling.toLower := by rw [← hk, toLower_toUpper]
  obtain ⟨d, tail, hspelling, hd⟩ := k.isWord_toLower_spelling.exists_cons
  rw [hspelling] at hlower
  cases text with
  | nil => cases hlower
  | cons c text =>
      have hc : isWordStart c = true := by
        apply isWordStart_of_toLower
        rw [(List.cons.inj hlower).1]
        exact hd
      have hfirst := Lexeme.first_of_cut hcut
      rw [List.cons_append, Lexeme.first_word hc] at hfirst
      have hrun := Except.ok.inj hfirst
      have htext : (c :: (text ++ rest)).takeWhile isWordPart = c :: text :=
        congrArg Lexeme.text hrun
      have hkind : Kind.ofWord ((c :: (text ++ rest)).takeWhile isWordPart) = kind :=
        congrArg Lexeme.kind hrun
      rw [← hkind, htext, Kind.ofWord, Keyword.ofWord?_eq_some_iff.mpr hk]

theorem ValueType.ofWord?_eq_some_iff {word : Text} {type : ValueType} :
    ofWord? word = some type ↔ word.toUpper = type.keyword.spelling := by
  refine ⟨?_, ofWord?_eq_some⟩
  intro h
  have hfound := List.find?_some h
  have hlower : type.spelling = word.toLower := of_decide_eq_true hfound
  rw [← toUpper_toLower, ← hlower]
  cases type <;> decide

theorem Direction.ofWord?_eq_some_iff {word : Text} {direction : Direction} :
    ofWord? word = some direction ↔ word.toUpper = direction.keyword.spelling := by
  refine ⟨?_, ofWord?_eq_some⟩
  intro h
  have hfound := List.find?_some h
  have hlower : direction.spelling = word.toLower := of_decide_eq_true hfound
  rw [← toUpper_toLower, ← hlower]
  cases direction <;> decide

/-! ### Reading from any scanner -/

/-- What the script is to blame for is a lexical or a grammatical
error. -/
theorem SyntaxError.IsOrdinary.diagnostic {e : SyntaxError} (h : e.IsOrdinary) :
    (∃ line problem, e.diagnostic = .lexical line problem) ∨
      ∃ line expected found, e.diagnostic = .grammar line expected found := by
  cases e with
  | unexpectedSymbol line symbol => exact .inl ⟨line, _, rfl⟩
  | missingDelimiter line delimiter => exact .inl ⟨line, _, rfl⟩
  | mismatch wanted found => exact .inl ⟨found.line, _, rfl⟩
  | unexpected expected found => exact .inr ⟨found.line, _, _, rfl⟩
  | misspelt expected found => exact h.elim
  | heldToken delimiter held => exact h.elim

/-- To hold only what was cut off is an invariant, and every failure is
the script's. -/
theorem Scan.invariant_sound : Invariant Scanner.Sound SyntaxError.Blames where
  peek := keeps_peek
  expect := keeps_expect
  expectRaw := by
    intro kind d hopen
    refine keeps_expectRaw (keeps_expect kind) ?_ ?_
    · intro s token t raw u hs hexpect hraw
      exact (keeps_rawUntil d).ok ((keeps_expect kind).ok hs hexpect) hraw
    · intro s token t e u hs hexpect hraw
      -- The token that opened the raw text was taken, and none is held.
      obtain ⟨rfl, ⟨held, hsome, -⟩ | ⟨hnone, -, rfl⟩⟩ := rawUntil_eq_error hraw
      · rw [(cut_of_sound_next hs (next_of_expect hexpect).1).2] at hsome
        cases hsome
      · exact ⟨trivial, Scanner.sound_of_none hnone⟩
  trace := fun event hs => hs
  refuse := fun hs hheld expected => ⟨trivial, hs⟩
  spelt := fun hs hnext => ⟨_, (cut_of_sound_next hs hnext).1⟩

namespace Program

/-- The outcomes of reading again and again, each time from where the
time before has stopped. -/
def readings : Nat → Scanner → List (Except SyntaxError Program)
  | 0, _ => []
  | n + 1, s =>
      match read s with
      | .ok program t => .ok program :: readings n t
      | .error e t => .error e :: readings n t

theorem isOrdinary_of_mem_readings {n : Nat} {s : Scanner} {e : SyntaxError} (hs : s.Sound)
    (h : .error e ∈ readings n s) : e.IsOrdinary := by
  induction n generalizing s with
  | zero => cases h
  | succ n ih =>
      unfold readings at h
      split at h
      · next program t hread =>
          refine ih (invariant_sound.read.ok hs hread) ?_
          simpa using h
      · next e' t hread =>
          obtain ⟨hblame, ht⟩ := invariant_sound.read.error hs hread
          rcases List.mem_cons.mp h with heq | h
          · cases heq
            exact hblame
          · exact ih ht h

/-- Whatever was asked of the scanner of a script, and however often
reading has failed before, reading a script from it succeeds or reports a
lexical or a grammatical error: it never asks for raw text while a token
is held, and never finds a type or a direction misspelt. Every token that
the scanner hands out is a type or a direction exactly where its text
spells one. -/
theorem reading_blames_script (source : Text) (requests : List Request) :
    (∀ n, ∀ result ∈ readings n ((Scanner.ofText source).after requests), ∀ e,
      result = .error e →
        ((∃ line problem, e.diagnostic = .lexical line problem) ∨
          ∃ line expected found, e.diagnostic = .grammar line expected found) ∧
        (∀ delimiter held, e ≠ .heldToken delimiter held) ∧
        ∀ expected found, e ≠ .misspelt expected found) ∧
    ∀ (request : Request) (answer : Answer) (t : Scanner),
      request.perform ((Scanner.ofText source).after requests) = .ok answer t →
        ∀ token ∈ answer.produced,
          (∀ type : ValueType,
            token.kind = .keyword type.keyword ↔ ValueType.ofWord? token.text = some type) ∧
          ∀ direction : Direction, token.kind = .keyword direction.keyword ↔
            Direction.ofWord? token.text = some direction := by
  have hsound := Scanner.sound_after source requests
  refine ⟨?_, ?_⟩
  · rintro n result hresult e rfl
    have hordinary := isOrdinary_of_mem_readings hsound hresult
    refine ⟨hordinary.diagnostic, ?_, ?_⟩
    · rintro delimiter held rfl
      exact hordinary
    · rintro expected found rfl
      exact hordinary
  · intro request answer t hperform token htoken
    have hspelt := spelt_of_perform hsound hperform token htoken
    constructor
    · intro type
      rw [hspelt.kind_eq_iff, ValueType.ofWord?_eq_some_iff]
    · intro direction
      rw [hspelt.kind_eq_iff, Direction.ofWord?_eq_some_iff]

end Program

end StoredProc
