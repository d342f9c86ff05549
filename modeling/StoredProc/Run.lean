import StoredProc.Program
import StoredProc.Session
import StoredProc.Sink
import StoredProc.Statement.Python

/-!
Running a script: each statement in turn is resolved, what it prints is
printed, and its code is written, before the next one is looked at. A
failure ends the run where it stands and takes nothing back.

`Means` holds what a run needs from outside, in a monad of its own. A
`Run` is over a writer and a printer that are themselves computations;
the command runs scripts over the files and streams of the system.
-/

namespace StoredProc

/-- What a run is made of, in a monad where failures are diagnostics. -/
structure Means (m : Type → Type) where
  resolve : Statement → m (Option Text)
  print : Text → m Unit
  note : Event → m Unit
  write : List UInt8 → m Unit
  flush : m Unit

namespace Means

variable {m : Type → Type} [Monad m] [MonadExceptOf Diagnostic m]

def printValue (means : Means m) : Option Text → m Unit
  | some value => means.print value
  | none => pure ()

def emit (means : Means m) (settings : Settings) (statement : Statement) : m Unit := do
  let code ← liftExcept (statement.translate settings)
  if code.isEmpty then pure ()
  else do
    means.note (.emitting statement (Text.Utf8.size code))
    means.write (Text.Utf8.encode code)
    means.flush

def statement (means : Means m) (settings : Settings) (statement : Statement) : m Unit := do
  let value ← means.resolve statement
  means.printValue value
  means.emit settings statement

def statements (means : Means m) (settings : Settings) (statements : List Statement) : m Unit :=
  forM statements (means.statement settings)

/-- Run statements and then let go of what was written, whether they
succeed or not. The failure of the run comes first. -/
def runAndFlush (means : Means m) (settings : Settings) (statements : List Statement) :
    m Unit := do
  let ended ← observing (means.statements settings statements)
  let flushed ← observing means.flush
  liftExcept (ε := Diagnostic) ended
  liftExcept (ε := Diagnostic) flushed

end Means

/-- Everything that a run changes: its memory, what lies outside it, and
the trace. -/
structure Stage (σ : Type) where
  session : Session
  outside : σ
  trace : List Event

abbrev Run (σ : Type) := EStateM Diagnostic (Stage σ)

namespace Run

variable {σ : Type}

/-- Resolve a statement. What there is to say about it is on the trace,
newest first, before anything else happens. -/
def resolve (statement : Statement) : Run σ (Option Text) := fun stage =>
  match stage.session.resolve statement with
  | .ok (session, value) =>
      .ok value { stage with
        session := session
        trace := (stage.session.remarks statement).reverse ++ stage.trace }
  | .error e => .error e stage

def onOutside (m : EStateM Diagnostic σ Unit) : Run σ Unit := fun stage =>
  match m stage.outside with
  | .ok () outside => .ok () { stage with outside := outside }
  | .error e outside => .error e { stage with outside := outside }

def writing (m : EStateM Text σ Unit) : Run σ Unit :=
  onOutside fun outside =>
    match m outside with
    | .ok () outside => .ok () outside
    | .error reason outside => .error (.io reason) outside

def note (event : Event) : Run σ Unit := fun stage =>
  .ok () { stage with trace := event :: stage.trace }

def means (writer : Writer σ) (printer : Printer σ) : Means (Run σ) where
  resolve := resolve
  print value := onOutside (printer value)
  note := note
  write bytes := writing (writer.write bytes)
  flush := writing writer.flush

def statement (settings : Settings) (writer : Writer σ) (printer : Printer σ)
    (statement : Statement) : Run σ Unit :=
  (means writer printer).statement settings statement

def statements (settings : Settings) (writer : Writer σ) (printer : Printer σ)
    (statements : List Statement) : Run σ Unit :=
  (means writer printer).statements settings statements

/-- Running two scripts one after the other is running their
statements together. -/
theorem statements_append (settings : Settings) (writer : Writer σ) (printer : Printer σ)
    (p q : List Statement) :
    (statements settings writer printer (p ++ q) : Run σ Unit) =
      (do statements settings writer printer p; statements settings writer printer q) :=
  List.forM_append

end Run

end StoredProc
