import StoredProc.Run

/-!
A script from its text to its code, in memory.
-/

namespace StoredProc

structure Transpiled where
  code : Text
  printed : List Text
  deriving DecidableEq, Repr

namespace Session

def runInto (settings : Settings) (session : Session) (statements : List Statement)
    (code : Sink) (printed : Listing) :
    EStateM.Result Diagnostic (Stage (Sink × Listing)) Unit :=
  Run.statements settings Sink.writer.left Printer.toListing.right statements
    ⟨session, (code, printed), []⟩

def run (settings : Settings) (session : Session) (statements : List Statement) :
    EStateM.Result Diagnostic (Stage (Sink × Listing)) Unit :=
  session.runInto settings statements .unlimited (.empty none)

/-- Run statements and collect what they come to. The session is the one
that the run ends in, whether it fails or not. -/
def transpile (settings : Settings) (session : Session) (statements : List Statement) :
    Except Diagnostic Transpiled × Session :=
  match session.run settings statements with
  | .ok () stage => (.ok ⟨stage.outside.1.text, stage.outside.2.values⟩, stage.session)
  | .error e stage => (.error e, stage.session)

end Session

def transpile (source : Text) : Except Diagnostic Transpiled :=
  match Program.parse source with
  | .ok program => (Session.fresh.transpile .standard program.statements).1
  | .error e => .error e.diagnostic

/-- The events of `transpile`, oldest first: those of reading the script,
and then those of running it. -/
def transpileEvents (source : Text) : List Event :=
  Program.parseEvents source ++
    match Program.parse source with
    | .ok program =>
        match Session.fresh.run .standard program.statements with
        | .ok () stage => stage.trace.reverse
        | .error _ stage => stage.trace.reverse
    | .error _ => []

end StoredProc
