import StoredProc.Proofs.Run.Outcome

/-!
The law of runs. A run of two parts is the first and then the second,
unless the first fails. A run that fails has completed the statements in
front of one, is at a definite step of that one, and has not touched the
others. Whatever runs a session goes through, and however they end, it
is the result of the statements that were resolved on the way, in order.
-/

namespace StoredProc

namespace Session

/-- The statements resolved one after another, if all of them can be. -/
def resolveAll (session : Session) (statements : List Statement) : Except Diagnostic Session :=
  statements.foldlM (fun session statement => Prod.fst <$> session.resolve statement) session

theorem resolveAll_cons {session session' : Session} {statement : Statement} {value : Option Text}
    (h : session.resolve statement = .ok (session', value)) (statements : List Statement) :
    session.resolveAll (statement :: statements) = session'.resolveAll statements := by
  rw [resolveAll, List.foldlM_cons, h]
  rfl

theorem resolveAll_append {session session' : Session} {p : List Statement}
    (h : session.resolveAll p = .ok session') (q : List Statement) :
    session.resolveAll (p ++ q) = session'.resolveAll q := by
  rw [resolveAll, List.foldlM_append, ← resolveAll, h]
  rfl

end Session

namespace Run

variable {σ : Type}

/-! ### Several runs -/

structure Job (σ : Type) where
  writer : Writer σ
  printer : Printer σ
  statements : List Statement

/-- The stage in which a job ends, whether it fails or not. -/
def Job.run (settings : Settings) (job : Job σ) (s : Stage σ) : Stage σ :=
  match Run.statements settings job.writer job.printer job.statements s with
  | .ok () t => t
  | .error _ t => t

/-- Jobs in order. A failure ends its own job and no other. -/
def runJobs (settings : Settings) (jobs : List (Job σ)) (s : Stage σ) : Stage σ :=
  jobs.foldl (fun s job => job.run settings s) s

/-- The statements that a run resolves: all that it reaches, but for one
that cannot be resolved. -/
def performed (settings : Settings) (writer : Writer σ) (printer : Printer σ) :
    List Statement → Stage σ → List Statement
  | [], _ => []
  | st :: sts, s =>
      match s.session.resolve st, statement settings writer printer st s with
      | .error _, _ => []
      | .ok _, .error _ _ => [st]
      | .ok _, .ok () t => st :: performed settings writer printer sts t

def performedBy (settings : Settings) : List (Job σ) → Stage σ → List Statement
  | [], _ => []
  | job :: jobs, s =>
      performed settings job.writer job.printer job.statements s ++
        performedBy settings jobs (job.run settings s)

variable {settings : Settings} {writer : Writer σ} {printer : Printer σ}

theorem Completes.resolve_eq {st : Statement} {s t : Stage σ}
    (h : Completes settings writer printer st s t) :
    ∃ value, s.session.resolve st = .ok (t.session, value) := by
  cases h with
  | intro hresolve hprint hemit => exact ⟨_, hresolve⟩

/-- A statement that halts is not resolved and changes nothing, or it is
resolved. -/
theorem Halts.resolve_eq {st : Statement} {s t : Stage σ} {e : Diagnostic}
    (h : Halts settings writer printer st s e t) :
    (s.session.resolve st = .error e ∧ t = s) ∨
      ∃ value, s.session.resolve st = .ok (t.session, value) := by
  cases h with
  | resolving h => exact .inl ⟨h, rfl⟩
  | printing hresolve hprint => exact .inr ⟨_, hresolve⟩
  | spelling hresolve hprint h => exact .inr ⟨_, hresolve⟩
  | writing hresolve hprint hspells hcode hwrite => exact .inr ⟨_, hresolve⟩
  | flushing hresolve hprint hspells hcode hwrite hflush => exact .inr ⟨_, hresolve⟩

theorem performed_cons_of_completes {st : Statement} {s t : Stage σ}
    (h : Completes settings writer printer st s t) (sts : List Statement) :
    performed settings writer printer (st :: sts) s =
      st :: performed settings writer printer sts t := by
  obtain ⟨value, hresolve⟩ := h.resolve_eq
  rw [performed, hresolve, h.statement_eq]

/-- The statement at which a run stops is the last one performed, if it
can be resolved. -/
theorem performed_cons_of_halts {st : Statement} {s t : Stage σ} {e : Diagnostic}
    (h : Halts settings writer printer st s e t) (sts : List Statement) :
    performed settings writer printer (st :: sts) s =
      if (s.session.resolve st).isOk then [st] else [] := by
  rw [performed, h.statement_eq]
  cases s.session.resolve st with
  | ok found => rfl
  | error e => rfl

theorem performed_append_of_completed {front : List Statement} {s mid : Stage σ}
    (h : Completed settings writer printer front s mid) (back : List Statement) :
    performed settings writer printer (front ++ back) s =
      front ++ performed settings writer printer back mid := by
  induction h with
  | nil => rfl
  | cons h hrest ih =>
      rw [List.cons_append, performed_cons_of_completes h, ih, List.cons_append]

/-- The session after a run is the one before it with the performed
statements resolved, however the run ends. -/
theorem resolveAll_performed (settings : Settings) (job : Job σ) (s : Stage σ) :
    s.session.resolveAll (performed settings job.writer job.printer job.statements s) =
      .ok (job.run settings s).session := by
  obtain ⟨writer, printer, sts⟩ := job
  induction sts generalizing s with
  | nil => rfl
  | cons st sts ih =>
      rcases completes_or_halts settings writer printer st s with ⟨t, hst⟩ | ⟨e, t, hst⟩
      -- A statement that completes passes the stage on to the rest of the run.
      · obtain ⟨value, hresolve⟩ := hst.resolve_eq
        have hrun : Job.run settings ⟨writer, printer, st :: sts⟩ s =
            Job.run settings ⟨writer, printer, sts⟩ t := by
          rw [Job.run, Job.run, statements_cons, bind_of_ok hst.statement_eq]
        rw [performed_cons_of_completes hst, hrun, ← ih t]
        exact Session.resolveAll_cons hresolve _
      -- One that halts is the last that is looked at, whether or not it was resolved.
      · have hrun : Job.run settings ⟨writer, printer, st :: sts⟩ s = t := by
          rw [Job.run, statements_cons, bind_of_error hst.statement_eq]
        rw [performed_cons_of_halts hst, hrun]
        rcases hst.resolve_eq with ⟨hresolve, rfl⟩ | ⟨value, hresolve⟩
        · rw [hresolve]
          rfl
        · rw [hresolve]
          exact Session.resolveAll_cons hresolve []

theorem resolveAll_performedBy (settings : Settings) (jobs : List (Job σ)) (s : Stage σ) :
    s.session.resolveAll (performedBy settings jobs s) =
      .ok (runJobs settings jobs s).session := by
  induction jobs generalizing s with
  | nil => rfl
  | cons job jobs ih =>
      rw [performedBy, Session.resolveAll_append (resolveAll_performed settings job s), ih]
      rfl

/-- How a run ends is how its parts do, in order: a second part is run
only after a first that succeeds; a failure is the failure of one
statement, after those before it and whatever stands behind it; and the
session is the result of what has been resolved, over any number of
runs. -/
theorem run_law (settings : Settings) (writer : Writer σ) (printer : Printer σ) :
    (∀ p q (s : Stage σ), statements settings writer printer (p ++ q) s =
      match statements settings writer printer p s with
      | .ok () t => statements settings writer printer q t
      | .error e t => .error e t) ∧
    (∀ p (s : Stage σ), match statements settings writer printer p s with
      | .ok () t =>
          Completed settings writer printer p s t ∧ performed settings writer printer p s = p
      | .error e t => ∃ front st back mid, p = front ++ st :: back ∧
          Completed settings writer printer front s mid ∧
          Halts settings writer printer st mid e t ∧
          performed settings writer printer p s =
            front ++ (if (mid.session.resolve st).isOk then [st] else []) ∧
          ∀ others, statements settings writer printer (front ++ st :: others) s = .error e t) ∧
    (∀ (jobs : List (Job σ)) (s : Stage σ),
      s.session.resolveAll (performedBy settings jobs s) =
        .ok (runJobs settings jobs s).session) := by
  refine ⟨statements_append_apply settings writer printer, ?_, resolveAll_performedBy settings⟩
  intro p s
  rcases completed_or_halts settings writer printer p s with
    ⟨t, hp⟩ | ⟨front, st, back, mid, e, t, rfl, hfront, hst⟩
  · have hperformed := performed_append_of_completed hp []
    rw [List.append_nil, performed, List.append_nil] at hperformed
    rw [hp.statements_eq]
    exact ⟨hp, hperformed⟩
  · have hperformed := performed_append_of_completed hfront (st :: back)
    rw [performed_cons_of_halts hst] at hperformed
    rw [hst.statements_eq hfront back]
    exact ⟨front, st, back, mid, rfl, hfront, hst, hperformed, hst.statements_eq hfront⟩

end Run

end StoredProc
