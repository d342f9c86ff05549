/-!
Computations over a state that may fail. A failure carries the state it
ends in as well, so a caller can go on from there. What a computation
does that is put together from others is read off what they do, in
order.
-/

namespace StoredProc

section

variable {ε σ α β : Type} {m : EStateM ε σ α} {k : α → EStateM ε σ β} {s t u : σ} {a : α} {b : β}
  {e : ε}

theorem bind_of_ok (h : m s = .ok a t) : (m >>= k) s = k a t := by
  change EStateM.bind m k s = k a t
  rw [EStateM.bind, h]

theorem bind_of_error (h : m s = .error e t) : (m >>= k) s = .error e t := by
  change EStateM.bind m k s = .error e t
  rw [EStateM.bind, h]

/-- A computation that succeeds ran its first part, and then its second
from where the first ended. -/
theorem bind_eq_ok (h : (m >>= k) s = .ok b u) : ∃ a t, m s = .ok a t ∧ k a t = .ok b u := by
  change EStateM.bind m k s = .ok b u at h
  unfold EStateM.bind at h
  split at h
  · next a t hm => exact ⟨a, t, hm, h⟩
  · cases h

theorem observing_of_ok (h : m s = .ok a t) : observing m s = .ok (.ok a) t := by
  have hwrapped : (do let a ← m; return Except.ok (ε := ε) a) s = .ok (.ok a) t := bind_of_ok h
  change EStateM.tryCatch _ _ s = _
  delta EStateM.tryCatch
  rw [hwrapped]

theorem observing_of_error (h : m s = .error e t) : observing m s = .ok (.error e) t := by
  have hwrapped : (do let a ← m; return Except.ok (ε := ε) a) s = .error e t := bind_of_error h
  change EStateM.tryCatch _ _ s = _
  delta EStateM.tryCatch
  rw [hwrapped]
  rfl

end

section

variable {ε σ τ α : Type} {get : σ → τ} {set : τ → σ → σ} {m : EStateM ε τ α} {s t : σ} {a : α}
  {e : ε} {part : τ}

def onPart (get : σ → τ) (set : τ → σ → σ) (m : EStateM ε τ α) : EStateM ε σ α := fun state =>
  match m (get state) with
  | .ok a part => .ok a (set part state)
  | .error e part => .error e (set part state)

theorem onPart_of_ok (h : m (get s) = .ok a part) : onPart get set m s = .ok a (set part s) := by
  rw [onPart, h]

theorem onPart_of_error (h : m (get s) = .error e part) :
    onPart get set m s = .error e (set part s) := by
  rw [onPart, h]

theorem onPart_eq_ok (h : onPart get set m s = .ok a t) :
    ∃ part, m (get s) = .ok a part ∧ t = set part s := by
  unfold onPart at h
  split at h
  · next part hm =>
      cases h
      exact ⟨part, hm, rfl⟩
  · cases h

theorem onPart_eq_error (h : onPart get set m s = .error e t) :
    ∃ part, m (get s) = .error e part ∧ t = set part s := by
  unfold onPart at h
  split at h
  · cases h
  · next part hm =>
      cases h
      exact ⟨part, hm, rfl⟩

end

end StoredProc
