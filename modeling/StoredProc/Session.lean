import StoredProc.Diagnostic
import StoredProc.Event

/-!
What a running script remembers: the value of each name, the procedure
that began last, and the line of the last block. A statement is resolved
against it before its code is written.
-/

namespace StoredProc

/-- The values assigned to names, the newest first. -/
abbrev Environment := List (Text × Text)

namespace Environment

/-- The value last assigned to a name. Names differ by letter case. -/
def get? (env : Environment) (name : Text) : Option Text := env.lookup name

def assign (env : Environment) (name value : Text) : Environment := (name, value) :: env

@[simp] theorem get?_nil (name : Text) : get? [] name = none := rfl

@[simp] theorem get?_assign (env : Environment) (name value key : Text) :
    (env.assign name value).get? key = if key = name then some value else env.get? key := by
  rw [get?, assign, List.lookup_cons]
  by_cases h : key = name
  · rw [h, beq_self_eq_true, if_pos rfl]
  · rw [beq_false_of_ne h, if_neg h, get?]

end Environment

structure Session where
  env : Environment
  procedure : Option Header
  blockStart : Option Nat
  deriving DecidableEq, Repr

namespace Session

def fresh : Session := ⟨[], none, none⟩

/-- What a statement makes of the memory, and the value it prints. The
only failure is to print what was never assigned. -/
def resolve (session : Session) : Statement → Except Diagnostic (Session × Option Text)
  | .assignment _ var literal =>
      .ok ({ session with env := session.env.assign var.name literal }, none)
  | .print line var =>
      match session.env.get? var.name with
      | some value => .ok (session, some value)
      | none => .error (.unknownVariable line var.name)
  | .procedure header => .ok ({ session with procedure := some header }, none)
  | .blockStart line => .ok ({ session with blockStart := some line }, none)
  | .declaration _ _ _ => .ok (session, none)
  | .execute _ _ => .ok (session, none)
  | .blockEnd _ => .ok (session, none)
  | .blank _ => .ok (session, none)

def remarks (session : Session) : Statement → List Event
  | .procedure header =>
      match session.procedure with
      | some previous => [.replaced header previous]
      | none => []
  | .declaration line var type => [.idle (.declaration line var type)]
  | .execute line sql => [.idle (.execute line sql)]
  | .blockEnd line => [.idle (.blockEnd line)]
  | .blank line => [.idle (.blank line)]
  | .assignment _ _ _ => []
  | .print _ _ => []
  | .blockStart _ => []

end Session

end StoredProc
