import StoredProc.Run

/-!
What a run does, however it ends. A statement has four places to fail:
it cannot be resolved, its value cannot be printed, its code cannot be
made, or its code cannot be written and flushed. `Completes` and `Halts`
say which steps were taken and what they left behind, and one statement
always does the one or the other. A run of statements is then a chain of
complete ones, ended by at most one that halts.
-/

namespace StoredProc

namespace Session

/-- Only printing has a value, and printing changes nothing. -/
theorem eq_of_resolve_some {session session' : Session} {statement : Statement} {value : Text}
    (h : session.resolve statement = .ok (session', some value)) : session' = session := by
  cases statement with
  | print line var =>
      rw [resolve] at h
      split at h
      · cases h
        rfl
      · cases h
  | _ => cases h

end Session

namespace Run

variable {σ : Type}

/-! ### One statement -/

def emission (settings : Settings) (statement : Statement) : List Event :=
  if (statement.code settings).isEmpty then []
  else [.emitting statement (Text.Utf8.size (statement.code settings))]

section

variable (settings : Settings) (writer : Writer σ) (printer : Printer σ)

inductive Prints : Option Text → σ → σ → Prop
  | nothing {outside : σ} : Prints none outside outside
  | value {value : Text} {outside outside' : σ} (h : printer value outside = .ok () outside') :
      Prints (some value) outside outside'

/-- The code of a statement is written and flushed, if it has any. -/
inductive Emits (statement : Statement) : σ → σ → Prop
  | nothing {outside : σ} (h : statement.code settings = []) : Emits statement outside outside
  | code {outside written outside' : σ} (hspells : settings.Spells statement)
      (h : statement.code settings ≠ [])
      (hwrite : writer.write (Text.Utf8.encode (statement.code settings)) outside = .ok () written)
      (hflush : writer.flush written = .ok () outside') : Emits statement outside outside'

/-- A statement is resolved, printed and emitted, in this order. -/
inductive Completes (statement : Statement) (s : Stage σ) : Stage σ → Prop
  | intro {session : Session} {value : Option Text} {printed outside : σ}
      (hresolve : s.session.resolve statement = .ok (session, value))
      (hprint : Prints printer value s.outside printed)
      (hemit : Emits settings writer statement printed outside) :
      Completes statement s ⟨session, outside,
        emission settings statement ++ (s.session.remarks statement).reverse ++ s.trace⟩

/-- A statement fails. Until its code is made the session stays as it was,
and from then on it is the one in which the statement is resolved. -/
inductive Halts (statement : Statement) (s : Stage σ) : Diagnostic → Stage σ → Prop
  | resolving {e : Diagnostic} (h : s.session.resolve statement = .error e) :
      Halts statement s e s
  | printing {value : Text} {e : Diagnostic} {outside : σ}
      (hresolve : s.session.resolve statement = .ok (s.session, some value))
      (hprint : printer value s.outside = .error e outside) :
      Halts statement s e ⟨s.session, outside,
        (s.session.remarks statement).reverse ++ s.trace⟩
  | spelling {session : Session} {value : Option Text} {printed : σ}
      (hresolve : s.session.resolve statement = .ok (session, value))
      (hprint : Prints printer value s.outside printed) (h : ¬ settings.Spells statement) :
      Halts statement s .capacity ⟨session, printed,
        (s.session.remarks statement).reverse ++ s.trace⟩
  | writing {session : Session} {value : Option Text} {printed outside : σ} {reason : Text}
      (hresolve : s.session.resolve statement = .ok (session, value))
      (hprint : Prints printer value s.outside printed) (hspells : settings.Spells statement)
      (hcode : statement.code settings ≠ [])
      (hwrite : writer.write (Text.Utf8.encode (statement.code settings)) printed =
        .error reason outside) :
      Halts statement s (.io reason) ⟨session, outside,
        emission settings statement ++ (s.session.remarks statement).reverse ++ s.trace⟩
  | flushing {session : Session} {value : Option Text} {printed written outside : σ} {reason : Text}
      (hresolve : s.session.resolve statement = .ok (session, value))
      (hprint : Prints printer value s.outside printed) (hspells : settings.Spells statement)
      (hcode : statement.code settings ≠ [])
      (hwrite : writer.write (Text.Utf8.encode (statement.code settings)) printed = .ok () written)
      (hflush : writer.flush written = .error reason outside) :
      Halts statement s (.io reason) ⟨session, outside,
        emission settings statement ++ (s.session.remarks statement).reverse ++ s.trace⟩

end

variable {settings : Settings} {writer : Writer σ} {printer : Printer σ}

/-- A statement without code has no margins. -/
theorem spells_of_code_eq_nil {statement : Statement} (h : statement.code settings = []) :
    settings.Spells statement := by
  intro depth hmem
  cases statement with
  | blockStart | assignment | execute | blockEnd =>
      -- Such code ends with a text that is not empty.
      exact absurd (List.append_eq_nil_iff.mp h).2 (by decide)
  | procedure | print | declaration | blank => cases hmem

/-! The steps of a statement -/

theorem resolve_eq_error {statement : Statement} {s : Stage σ} {e : Diagnostic}
    (h : s.session.resolve statement = .error e) : resolve statement s = .error e s := by
  rw [resolve, h]

theorem resolve_eq_ok {statement : Statement} {s : Stage σ} {session : Session}
    {value : Option Text} (h : s.session.resolve statement = .ok (session, value)) :
    resolve statement s =
      .ok value ⟨session, s.outside, (s.session.remarks statement).reverse ++ s.trace⟩ := by
  rw [resolve, h]

section

variable {session : Session} {outside outside' : σ} {trace : List Event}

theorem printValue_eq_ok {value : Option Text} (h : Prints printer value outside outside') :
    (means writer printer).printValue value ⟨session, outside, trace⟩ =
      .ok () ⟨session, outside', trace⟩ := by
  cases h with
  | nothing => rfl
  | value h => simp only [Means.printValue, means, onOutside, h]

theorem printValue_eq_error {value : Text} {e : Diagnostic}
    (h : printer value outside = .error e outside') :
    (means writer printer).printValue (some value) ⟨session, outside, trace⟩ =
      .error e ⟨session, outside', trace⟩ := by
  simp only [Means.printValue, means, onOutside, h]

theorem writing_eq_ok {m : EStateM Text σ Unit} (h : m outside = .ok () outside') :
    writing m ⟨session, outside, trace⟩ = .ok () ⟨session, outside', trace⟩ := by
  simp only [writing, onOutside, h]

theorem writing_eq_error {m : EStateM Text σ Unit} {reason : Text}
    (h : m outside = .error reason outside') :
    writing m ⟨session, outside, trace⟩ = .error (.io reason) ⟨session, outside', trace⟩ := by
  simp only [writing, onOutside, h]

theorem emit_of_not_spells {statement : Statement} (h : ¬ settings.Spells statement)
    (s : Stage σ) : (means writer printer).emit settings statement s = .error .capacity s := by
  rw [Means.emit, Statement.translate, if_neg h]
  rfl

theorem emit_of_code {statement : Statement} (hspells : settings.Spells statement)
    (h : statement.code settings ≠ []) :
    (means writer printer).emit settings statement ⟨session, outside, trace⟩ =
      (do
        writing (writer.write (Text.Utf8.encode (statement.code settings)))
        writing writer.flush : Run σ Unit)
        ⟨session, outside, emission settings statement ++ trace⟩ := by
  have hcode : ¬ (statement.code settings).isEmpty = true := by simpa using h
  rw [Means.emit, Statement.translate, if_pos hspells, emission, if_neg hcode]
  change (if (statement.code settings).isEmpty = true then _ else _ : Run σ Unit) _ = _
  rw [if_neg hcode]
  rfl

theorem emit_eq_ok {statement : Statement} (h : Emits settings writer statement outside outside') :
    (means writer printer).emit settings statement ⟨session, outside, trace⟩ =
      .ok () ⟨session, outside', emission settings statement ++ trace⟩ := by
  cases h with
  | nothing h =>
      rw [Means.emit, Statement.translate, if_pos (spells_of_code_eq_nil h), emission, h]
      rfl
  | code hspells h hwrite hflush =>
      rw [emit_of_code hspells h, bind_of_ok (writing_eq_ok hwrite), writing_eq_ok hflush]

end

theorem statement_eq_bind (st : Statement) :
    (statement settings writer printer st : Run σ Unit) =
      (do
        let value ← resolve st
        (means writer printer).printValue value
        (means writer printer).emit settings st) :=
  rfl

theorem Completes.statement_eq {st : Statement} {s t : Stage σ}
    (h : Completes settings writer printer st s t) :
    statement settings writer printer st s = .ok () t := by
  cases h with
  | intro hresolve hprint hemit =>
      rw [statement_eq_bind, bind_of_ok (resolve_eq_ok hresolve),
        bind_of_ok (printValue_eq_ok hprint), emit_eq_ok hemit, List.append_assoc]

theorem Halts.statement_eq {st : Statement} {s t : Stage σ} {e : Diagnostic}
    (h : Halts settings writer printer st s e t) :
    statement settings writer printer st s = .error e t := by
  cases h with
  | resolving h => rw [statement_eq_bind, bind_of_error (resolve_eq_error h)]
  | printing hresolve hprint =>
      rw [statement_eq_bind, bind_of_ok (resolve_eq_ok hresolve),
        bind_of_error (printValue_eq_error hprint)]
  | spelling hresolve hprint h =>
      rw [statement_eq_bind, bind_of_ok (resolve_eq_ok hresolve),
        bind_of_ok (printValue_eq_ok hprint), emit_of_not_spells h]
  | writing hresolve hprint hspells hcode hwrite =>
      rw [statement_eq_bind, bind_of_ok (resolve_eq_ok hresolve),
        bind_of_ok (printValue_eq_ok hprint), emit_of_code hspells hcode,
        bind_of_error (writing_eq_error hwrite), List.append_assoc]
  | flushing hresolve hprint hspells hcode hwrite hflush =>
      rw [statement_eq_bind, bind_of_ok (resolve_eq_ok hresolve),
        bind_of_ok (printValue_eq_ok hprint), emit_of_code hspells hcode,
        bind_of_ok (writing_eq_ok hwrite), writing_eq_error hflush, List.append_assoc]

/-- One statement completes or halts. -/
theorem completes_or_halts (settings : Settings) (writer : Writer σ) (printer : Printer σ)
    (st : Statement) (s : Stage σ) :
    (∃ t, Completes settings writer printer st s t) ∨
      ∃ e t, Halts settings writer printer st s e t := by
  cases hresolve : s.session.resolve st with
  | error e => exact .inr ⟨e, s, .resolving hresolve⟩
  | ok found =>
      obtain ⟨session, value⟩ := found
      -- Whether printing succeeds, whatever there is to print.
      have hprinting : (∃ printed, Prints printer value s.outside printed) ∨
          ∃ e t, Halts settings writer printer st s e t := by
        cases value with
        | none => exact .inl ⟨s.outside, .nothing⟩
        | some value =>
            obtain rfl := Session.eq_of_resolve_some hresolve
            cases hprint : printer value s.outside with
            | ok _ outside => exact .inl ⟨outside, .value hprint⟩
            | error e outside => exact .inr ⟨e, _, .printing hresolve hprint⟩
      rcases hprinting with ⟨printed, hprint⟩ | hhalts
      · by_cases hspells : settings.Spells st
        · by_cases hcode : st.code settings = []
          · exact .inl ⟨_, .intro hresolve hprint (.nothing hcode)⟩
          · cases hwrite : writer.write (Text.Utf8.encode (st.code settings)) printed with
            | error reason outside =>
                exact .inr ⟨.io reason, _, .writing hresolve hprint hspells hcode hwrite⟩
            | ok _ written =>
                cases hflush : writer.flush written with
                | error reason outside =>
                    exact .inr ⟨.io reason, _,
                      .flushing hresolve hprint hspells hcode hwrite hflush⟩
                | ok _ outside =>
                    exact .inl ⟨_, .intro hresolve hprint (.code hspells hcode hwrite hflush)⟩
        · exact .inr ⟨.capacity, _, .spelling hresolve hprint hspells⟩
      · exact .inr hhalts

/-! ### Statements in order -/

/-- Every statement completes, each from where the one before it ended. -/
inductive Completed (settings : Settings) (writer : Writer σ) (printer : Printer σ) :
    List Statement → Stage σ → Stage σ → Prop
  | nil {s : Stage σ} : Completed settings writer printer [] s s
  | cons {st : Statement} {sts : List Statement} {s t u : Stage σ}
      (h : Completes settings writer printer st s t)
      (hrest : Completed settings writer printer sts t u) :
      Completed settings writer printer (st :: sts) s u

/-- The second part of a run is run only if the first succeeds. -/
theorem statements_append_apply (settings : Settings) (writer : Writer σ) (printer : Printer σ)
    (p q : List Statement) (s : Stage σ) :
    statements settings writer printer (p ++ q) s =
      match statements settings writer printer p s with
      | .ok () t => statements settings writer printer q t
      | .error e t => .error e t := by
  rw [statements_append]
  cases h : statements settings writer printer p s with
  | ok _ t => exact bind_of_ok h
  | error e t => exact bind_of_error h

theorem statements_cons (st : Statement) (sts : List Statement) :
    (statements settings writer printer (st :: sts) : Run σ Unit) =
      (do statement settings writer printer st; statements settings writer printer sts) :=
  List.forM_cons

theorem Completed.statements_eq {p : List Statement} {s t : Stage σ}
    (h : Completed settings writer printer p s t) :
    statements settings writer printer p s = .ok () t := by
  induction h with
  | nil => rfl
  | cons h hrest ih => rw [statements_cons, bind_of_ok h.statement_eq, ih]

/-- What comes after a statement that halts does not matter. -/
theorem Halts.statements_eq {front : List Statement} {st : Statement} {s mid t : Stage σ}
    {e : Diagnostic} (hfront : Completed settings writer printer front s mid)
    (h : Halts settings writer printer st mid e t) (back : List Statement) :
    statements settings writer printer (front ++ st :: back) s = .error e t := by
  rw [statements_append, bind_of_ok hfront.statements_eq, statements_cons,
    bind_of_error h.statement_eq]

/-- A run completes, or it halts at one of its statements. -/
theorem completed_or_halts (settings : Settings) (writer : Writer σ) (printer : Printer σ)
    (p : List Statement) (s : Stage σ) :
    (∃ t, Completed settings writer printer p s t) ∨
      ∃ front st back mid e t, p = front ++ st :: back ∧
        Completed settings writer printer front s mid ∧
        Halts settings writer printer st mid e t := by
  induction p generalizing s with
  | nil => exact .inl ⟨s, .nil⟩
  | cons st sts ih =>
      rcases completes_or_halts settings writer printer st s with ⟨t, hst⟩ | ⟨e, t, hst⟩
      -- The first statement that halts stays the one, with one more in front of it.
      · rcases ih t with ⟨u, hsts⟩ | ⟨front, st', back, mid, e, u, rfl, hfront, hst'⟩
        · exact .inl ⟨u, .cons hst hsts⟩
        · exact .inr ⟨st :: front, st', back, mid, e, u, rfl, .cons hst hfront, hst'⟩
      · exact .inr ⟨[], st, sts, s, e, t, rfl, .nil, hst⟩

end Run

end StoredProc
