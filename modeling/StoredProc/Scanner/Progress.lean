import StoredProc.Effect
import StoredProc.Scanner

/-!
Every loop over a script ends because the script does. What `size` counts
never grows, and taking a token other than the end of input makes it
smaller. An operation is *steady* if its success never makes the scanner
larger and *consuming* if it makes it smaller; both pass through `bind`,
so that for an operation put together from others they are read off its
parts.

The two loops that need no grammar are here as well: repeating a step
while it finds something, and taking all tokens.
-/

namespace StoredProc

namespace Scanner

def heldSize : Option Token → Nat
  | some token => if token.kind = .eof then 0 else 1
  | none => 0

/-- A bound on the tokens that can still be taken before the end of
input. -/
def size (s : Scanner) : Nat := s.rest.length + heldSize s.held

end Scanner

namespace Scan

/-! ### Steady and consuming operations -/

/-- Success never makes the scanner larger. -/
def Steady {α : Type} (m : Scan α) : Prop :=
  ∀ ⦃s a t⦄, m s = .ok a t → t.size ≤ s.size

def Consuming {α : Type} (m : Scan α) : Prop :=
  ∀ ⦃s a t⦄, m s = .ok a t → t.size < s.size

theorem Consuming.steady {α : Type} {m : Scan α} (h : Consuming m) : Steady m :=
  fun _ _ _ hm => Nat.le_of_lt (h hm)

theorem steady_pure {α : Type} (a : α) : Steady (pure a : Scan α) := by
  intro s b t h
  cases h
  exact Nat.le_refl _

/-- What never succeeds is consuming. -/
theorem consuming_throw {α : Type} (e : SyntaxError) : Consuming (throw e : Scan α) := by
  intro s a t h
  cases h

theorem Steady.bind {α β : Type} {m : Scan α} {k : α → Scan β} (hm : Steady m)
    (hk : ∀ a, Steady (k a)) : Steady (m >>= k) := by
  intro s b u h
  obtain ⟨a, t, h₁, h₂⟩ := bind_eq_ok h
  exact Nat.le_trans (hk a h₂) (hm h₁)

theorem Consuming.bind {α β : Type} {m : Scan α} {k : α → Scan β} (hm : Consuming m)
    (hk : ∀ a, Steady (k a)) : Consuming (m >>= k) := by
  intro s b u h
  obtain ⟨a, t, h₁, h₂⟩ := bind_eq_ok h
  exact Nat.lt_of_le_of_lt (hk a h₂) (hm h₁)

theorem Steady.bind_consuming {α β : Type} {m : Scan α} {k : α → Scan β} (hm : Steady m)
    (hk : ∀ a, Consuming (k a)) : Consuming (m >>= k) := by
  intro s b u h
  obtain ⟨a, t, h₁, h₂⟩ := bind_eq_ok h
  exact Nat.lt_of_lt_of_le (hk a h₂) (hm h₁)

/-- Cutting a token off makes the text shorter, unless the text has
ended. -/
theorem length_rest_of_cut {s t : Scanner} {token : Token} (h : cut s = .ok token t) :
    t.rest.length + Scanner.heldSize (some token) ≤ s.rest.length ∧ t.held = s.held := by
  unfold cut at h
  split at h
  · next l hl =>
      cases h
      refine ⟨?_, rfl⟩
      by_cases hk : l.kind = .eof
      · simp only [Scanner.heldSize, hk, if_true, Scanner.pass]
        exact Lexeme.length_rest_le_of_first hl
      · simp only [Scanner.heldSize, hk, if_false, Scanner.pass]
        exact Lexeme.length_rest_lt_of_first hl hk
  · cases h

/-- Taking a token pays for it. -/
theorem size_of_next {s t : Scanner} {token : Token} (h : next s = .ok token t) :
    t.size + Scanner.heldSize (some token) ≤ s.size := by
  unfold next at h
  split at h
  · next held hheld =>
      cases h
      simp [Scanner.size, hheld, Scanner.heldSize]
  · next hheld =>
      obtain ⟨hlen, hsame⟩ := length_rest_of_cut h
      simpa [Scanner.size, hsame, hheld, Scanner.heldSize] using hlen

theorem size_lt_of_next {s t : Scanner} {token : Token} (h : next s = .ok token t)
    (hk : token.kind ≠ .eof) : t.size < s.size := by
  have hsize := size_of_next h
  simp only [Scanner.heldSize, hk, if_false] at hsize
  exact hsize

theorem steady_peek : Steady peek := by
  intro s token t h
  unfold peek at h
  split at h
  · cases h; exact Nat.le_refl _
  · next hheld =>
      split at h
      · next u hcut =>
          cases h
          obtain ⟨hlen, -⟩ := length_rest_of_cut hcut
          simpa [Scanner.size, hheld, Scanner.heldSize] using hlen
      · cases h

theorem steady_peekKind : Steady peekKind :=
  steady_peek.bind fun _ => steady_pure _

/-- A token of a kind other than the end of input is taken for good. -/
theorem consuming_expect {kind : Kind} (hk : kind ≠ .eof) : Consuming (expect kind) := by
  intro s token t h
  obtain ⟨a, u, h₁, h₂⟩ := bind_eq_ok h
  split at h₂
  · next ha => cases h₂; exact size_lt_of_next h₁ (ha ▸ hk)
  · cases h₂

theorem steady_rawUntil (delimiter : Char) : Steady (rawUntil delimiter) := by
  intro s text t h
  unfold rawUntil at h
  split at h
  · cases h
  · split at h
    · cases h
    · next hrest =>
        cases h
        have hlen : (s.rest.dropWhile (· != delimiter)).length ≤ s.rest.length :=
          (List.dropWhile_sublist _).length_le
        simp only [Scanner.size, Scanner.passRaw]
        omega

theorem steady_note (event : Event) : Steady (note event) := by
  intro s a t h
  cases h
  exact Nat.le_refl _

/-! ### Repetition -/

/-- A step of a loop that makes the scanner smaller whenever it finds
something. -/
def Advancing {α : Type} (step : Scan (Option α)) : Prop :=
  ∀ ⦃s a t⦄, step s = .ok (some a) t → t.size < s.size

def many {α : Type} (step : Scan (Option α)) (h : Advancing step) : Scan (List α) := fun s =>
  match hstep : step s with
  | .error e t => .error e t
  | .ok none t => .ok [] t
  | .ok (some a) t =>
      have : t.size < s.size := h hstep
      match many step h t with
      | .ok as u => .ok (a :: as) u
      | .error e u => .error e u
termination_by s => s.size

theorem steady_many {α : Type} {step : Scan (Option α)} (h : Advancing step)
    (hsteady : Steady step) : Steady (many step h) := by
  intro s
  fun_induction many step h s with
  | case1 s e t hstep => intro as u hu; cases hu
  | case2 s t hstep => intro as u hu; cases hu; exact hsteady hstep
  | case3 s a t hstep hlt bs u hmany ih =>
      intro as v hv
      cases hv
      exact Nat.le_trans (ih hmany) (hsteady hstep)
  | case4 s a t hstep hlt e u hmany ih => intro as v hv; cases hv

/-- All tokens up to the end of input, which is the last of them. -/
def tokenize : Scan (List Token) := fun s =>
  match hnext : next s with
  | .error e t => .error e t
  | .ok token t =>
      if hend : token.kind = .eof then .ok [token] t
      else
        have : t.size < s.size := size_lt_of_next hnext hend
        match tokenize t with
        | .ok tokens u => .ok (token :: tokens) u
        | .error e u => .error e u
termination_by s => s.size

end Scan

end StoredProc
