import StoredProc.Proofs.Run.Outcome
import StoredProc.Proofs.Text.Utf8

/-!
What a run has written. Nothing is known of a writer in general, so the
bytes are looked at through a view of what lies outside, which a write
adds to and nothing else changes. Complete statements add their code, in
order; a statement that is stopped before its code is written adds
nothing.
-/

namespace StoredProc

variable {σ τ : Type}

/-- What is written can be seen afterwards, and only what is written. -/
structure Shows (writer : Writer σ) (printer : Printer σ) (seen : σ → List UInt8) : Prop where
  write : ∀ {bytes outside outside'}, writer.write bytes outside = .ok () outside' →
    seen outside' = seen outside ++ bytes
  flush : ∀ {outside outside'}, writer.flush outside = .ok () outside' →
    seen outside' = seen outside
  print : ∀ {value outside outside'}, printer value outside = .ok () outside' →
    seen outside' = seen outside
  refuse : ∀ {value outside e outside'}, printer value outside = .error e outside' →
    seen outside' = seen outside

def Sink.Fits (sink : Sink) (bytes : List UInt8) : Prop :=
  ∀ room, sink.room = some room → bytes.length ≤ room

theorem Sink.fits_of_none {sink : Sink} (h : sink.room = none) (bytes : List UInt8) :
    sink.Fits bytes := by
  intro room hroom
  rw [h] at hroom
  cases hroom

theorem Sink.fits_empty {bytes : List UInt8} {limit : Nat} (h : bytes.length ≤ limit)
    (flushFails : Bool) : (empty (some limit) flushFails).Fits bytes := by
  rintro room ⟨⟩
  exact h

theorem Sink.write_of_fits {sink : Sink} {bytes : List UInt8} (h : sink.Fits bytes) :
    Sink.write bytes sink = .ok () (sink.push bytes) := by
  unfold Sink.write
  split
  · rfl
  · next room hroom => rw [if_pos (h room hroom)]

theorem Sink.write_of_lt {sink : Sink} {bytes : List UInt8} {room : Nat}
    (hroom : sink.room = some room) (h : room < bytes.length) :
    Sink.write bytes sink = .error "sink full".toList (sink.push (bytes.take room)) := by
  unfold Sink.write
  rw [hroom]
  dsimp only
  rw [if_neg (Nat.not_le_of_lt h)]

theorem Sink.eq_push_of_write {bytes : List UInt8} {sink sink' : Sink}
    (h : Sink.write bytes sink = .ok () sink') : sink' = sink.push bytes := by
  unfold Sink.write at h
  split at h
  · cases h
    rfl
  · split at h
    · cases h
      rfl
    · cases h

theorem Sink.flush_of_eq_false {sink : Sink} (h : sink.flushFails = false) :
    Sink.flush sink = .ok () sink := by
  rw [Sink.flush, h]
  rfl

theorem Sink.flush_of_eq_true {sink : Sink} (h : sink.flushFails = true) :
    Sink.flush sink = .error "flush refused".toList sink :=
  if_pos h

theorem Sink.eq_of_flush {sink sink' : Sink} (h : Sink.flush sink = .ok () sink') :
    sink' = sink := by
  unfold Sink.flush at h
  split at h
  · cases h
  · cases h
    rfl

/-- A sink shows what was written to it, whatever is printed beside
it. -/
theorem shows_sink (printer : Printer τ) :
    Shows Sink.writer.left printer.right fun outside => outside.1.bytes := by
  refine ⟨?_, ?_, ?_, ?_⟩
  · intro bytes outside outside' h
    rw [Writer.left, Writer.write_onPart] at h
    obtain ⟨sink, hwrite, rfl⟩ := onPart_eq_ok h
    rw [Sink.eq_push_of_write hwrite, Sink.bytes_push]
  · intro outside outside' h
    rw [Writer.left, Writer.flush_onPart] at h
    obtain ⟨sink, hflush, rfl⟩ := onPart_eq_ok h
    rw [Sink.eq_of_flush hflush]
  · intro value outside outside' h
    rw [Printer.right, Printer.onPart] at h
    obtain ⟨part, -, rfl⟩ := onPart_eq_ok h
    rfl
  · intro value outside e outside' h
    rw [Printer.right, Printer.onPart] at h
    obtain ⟨part, -, rfl⟩ := onPart_eq_error h
    rfl

namespace Run

variable {settings : Settings} {writer : Writer σ} {printer : Printer σ} {seen : σ → List UInt8}

theorem Prints.seen_eq (hshows : Shows writer printer seen) {value : Option Text}
    {outside outside' : σ} (h : Prints printer value outside outside') :
    seen outside' = seen outside := by
  cases h with
  | nothing => rfl
  | value h => exact hshows.print h

theorem Emits.seen_eq (hshows : Shows writer printer seen) {statement : Statement}
    {outside outside' : σ} (h : Emits settings writer statement outside outside') :
    seen outside' = seen outside ++ Text.Utf8.encode (statement.code settings) := by
  cases h with
  | nothing h => rw [h, Text.Utf8.encode, List.flatMap_nil, List.append_nil]
  | code hspells h hwrite hflush => rw [hshows.flush hflush, hshows.write hwrite]

theorem Completes.seen_eq (hshows : Shows writer printer seen) {statement : Statement}
    {s t : Stage σ} (h : Completes settings writer printer statement s t) :
    seen t.outside = seen s.outside ++ Text.Utf8.encode (statement.code settings) := by
  cases h with
  | intro hresolve hprint hemit => rw [hemit.seen_eq hshows, hprint.seen_eq hshows]

/-- Complete statements have written their code, one after another. -/
theorem Completed.seen_eq (hshows : Shows writer printer seen) {p : List Statement}
    {s t : Stage σ} (h : Completed settings writer printer p s t) :
    seen t.outside =
      seen s.outside ++ Text.Utf8.encode (p.flatMap (Statement.code settings)) := by
  induction h with
  | nil => exact (List.append_nil _).symm
  | cons h hrest ih =>
      rw [ih, h.seen_eq hshows, List.flatMap_cons, Text.Utf8.encode_append, List.append_assoc]

/-- A statement that halts at a value leaves the session and what was
written as they were. -/
theorem Halts.eq_of_unknownVariable (hshows : Shows writer printer seen) {statement : Statement}
    {s t : Stage σ} {line : Nat} {name : Text}
    (h : Halts settings writer printer statement s (.unknownVariable line name) t) :
    t.session = s.session ∧ seen t.outside = seen s.outside := by
  cases h with
  | resolving h => exact ⟨rfl, rfl⟩
  | printing hresolve hprint => exact ⟨rfl, hshows.refuse hprint⟩

/-! ### A sink with room -/

/-- Code that fits is written, and leaves that much less room. -/
theorem emits_of_fits {statement : Statement} {sink : Sink} (hspells : settings.Spells statement)
    (hfits : sink.Fits (Text.Utf8.encode (statement.code settings)))
    (hflush : sink.flushFails = false ∨ statement.code settings = []) (state : τ) :
    ∃ sink', Emits settings Sink.writer.left statement (sink, state) (sink', state) ∧
      sink'.room = sink.room.map (· - (Text.Utf8.encode (statement.code settings)).length) ∧
      sink'.flushFails = sink.flushFails := by
  by_cases hcode : statement.code settings = []
  · refine ⟨sink, .nothing hcode, ?_, rfl⟩
    rw [hcode]
    exact Option.map_id'.symm
  · let written := sink.push (Text.Utf8.encode (statement.code settings))
    have hwrite : Sink.writer.left.write (Text.Utf8.encode (statement.code settings))
        (sink, state) = .ok () (written, state) := by
      rw [Writer.left, Writer.write_onPart]
      exact onPart_of_ok (Sink.write_of_fits hfits)
    have hflushed : Sink.writer.left.flush (written, state) = .ok () (written, state) := by
      rw [Writer.left, Writer.flush_onPart]
      exact onPart_of_ok (Sink.flush_of_eq_false (hflush.resolve_right hcode))
    exact ⟨written, .code hspells hcode hwrite hflushed, rfl, rfl⟩

end Run

end StoredProc
