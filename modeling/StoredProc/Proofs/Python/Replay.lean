import StoredProc.Proofs.Python.Decode
import StoredProc.Proofs.Run.Written
import StoredProc.Transpile

/-!
What the generated code assigns is what the script has assigned. A run
that is not stopped while it writes has written the code of exactly the
statements that it has resolved, so reading the code back and making its
assignments in order ends with the values the session holds.

The code of statements can be made, and is then read back, unless one of
its margins is longer than any text. Margins are products of machine
words, so a wider setting can have shorter ones.
-/

namespace StoredProc

open Text

namespace Python

/-! ### Code that can be made -/

/-- The code of statements, one after another, if all of it can be
made. -/
def codeOf (settings : Settings) (statements : List Statement) : Except Diagnostic Text :=
  List.flatten <$> statements.mapM (Statement.translate settings)

theorem codeOf_cons (settings : Settings) (statement : Statement) (statements : List Statement) :
    codeOf settings (statement :: statements) =
      (statement.translate settings).bind fun code =>
        (codeOf settings statements).map (code ++ ·) := by
  rw [codeOf, codeOf, List.mapM_cons]
  cases statement.translate settings with
  | error e => rfl
  | ok code => cases statements.mapM (Statement.translate settings) <;> rfl

theorem codeOf_of_spells {settings : Settings} {statements : List Statement}
    (h : ∀ statement ∈ statements, settings.Spells statement) :
    codeOf settings statements = .ok (statements.flatMap (Statement.code settings)) := by
  induction statements with
  | nil => rfl
  | cons statement statements ih =>
      rw [codeOf_cons, Statement.translate, if_pos (h statement List.mem_cons_self),
        ih fun other hother => h other (List.mem_cons_of_mem statement hother)]
      rfl

theorem spells_of_codeOf {settings : Settings} {statements : List Statement} {code : Text}
    (h : codeOf settings statements = .ok code) :
    ∀ statement ∈ statements, settings.Spells statement := by
  induction statements generalizing code with
  | nil =>
      intro statement hmem
      cases hmem
  | cons first statements ih =>
      rw [codeOf_cons, Statement.translate] at h
      by_cases hfirst : settings.Spells first
      · rw [if_pos hfirst] at h
        cases hrest : codeOf settings statements with
        | error e =>
            rw [hrest] at h
            cases h
        | ok rest => exact List.forall_mem_cons.mpr ⟨hfirst, ih hrest⟩
      · rw [if_neg hfirst] at h
        cases h

/-! ### Values -/

def Item.apply (env : Environment) : Item → Environment
  | assignment name literal => env.assign name literal
  | _ => env

def replay (items : List Item) (env : Environment) : Environment := items.foldl Item.apply env

/-- A resolved statement has assigned what its code assigns. -/
theorem env_of_resolve {session session' : Session} {statement : Statement} {value : Option Text}
    (h : session.resolve statement = .ok (session', value)) :
    session'.env = replay statement.item?.toList session.env := by
  cases statement with
  | print line var =>
      rw [Session.resolve] at h
      split at h
      · cases h
        rfl
      · cases h
  | _ =>
      cases h
      rfl

theorem env_of_completed {σ : Type} {settings : Settings} {writer : Writer σ} {printer : Printer σ}
    {p : List Statement} {s t : Stage σ} (h : Run.Completed settings writer printer p s t) :
    t.session.env = replay (p.filterMap Statement.item?) s.session.env := by
  induction h with
  | nil => rfl
  | @cons st sts s t u h hrest ih =>
      cases h with
      | intro hresolve hprint hemit =>
          rw [ih, env_of_resolve hresolve]
          cases hitem : st.item? with
          | none => rw [List.filterMap_cons_none hitem]; rfl
          | some item => rw [List.filterMap_cons_some hitem]; rfl

/-- The bytes are code, and its assignments make the values that the
session holds. -/
def Agrees (settings : Settings) (bytes : List UInt8) (session : Session) : Prop :=
  ∃ items, decode settings (Utf8.decodeLossy bytes) = some items ∧ replay items [] = session.env

/-- Where a run ends in success or at a value that nothing has assigned,
what can be seen of its code agrees with its session. -/
def AgreesAfter {σ : Type} (settings : Settings) (seen : σ → List UInt8) :
    EStateM.Result Diagnostic (Stage σ) Unit → Prop
  | .ok () t => Agrees settings (seen t.outside) t.session
  | .error (.unknownVariable _ _) t => Agrees settings (seen t.outside) t.session
  | .error _ _ => True

theorem agrees_of_completed {σ : Type} {settings : Settings} {writer : Writer σ}
    {printer : Printer σ} {seen : σ → List UInt8} (hshows : Shows writer printer seen)
    (hconnection : IsWord settings.connection) {p : List Statement}
    (hnames : ∀ statement ∈ p, ∀ name ∈ statement.names, IsWord name) {s t : Stage σ}
    (henv : s.session.env = []) (hseen : seen s.outside = [])
    (h : Run.Completed settings writer printer p s t) :
    Agrees settings (seen t.outside) t.session := by
  refine ⟨p.filterMap Statement.item?, ?_, ?_⟩
  · rw [h.seen_eq hshows, hseen, List.nil_append, Utf8.decodeLossy_encode,
      decode_flatMap_code hconnection hnames]
  · rw [env_of_completed h, henv]

/-- The margin of the widest setting is longer than a text, but twice a
width can be small. -/
example : codeOf ⟨0xffffffffffffffff, ['c'], ['l']⟩ [.blockStart 1] = .error .capacity ∧
    codeOf ⟨0x8000000000000002, ['c'], ['l']⟩ [.assignment 1 ⟨1, ['x']⟩ ['a']] =
      .ok "    x = \"a\"\n".toList :=
  ⟨rfl, rfl⟩

end Python

end StoredProc
