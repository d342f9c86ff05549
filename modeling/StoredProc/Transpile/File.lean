import StoredProc.Disk
import StoredProc.Transpile

/-!
A script from a file to a file. The script is read and parsed before
anything is touched; then the output is made, or emptied; then the
script runs, with what it prints going to a console. What was written
and printed before a failure stays. Code that is written to the console
itself stands between the values, in the order of the statements.
-/

namespace StoredProc

/-! ### The way from file to file -/

def Program.ofBytes (bytes : List UInt8) : Except Diagnostic Program :=
  match Text.Utf8.decode? bytes with
  | none => .error (.io Fault.notText.reason)
  | some source =>
      match Program.parse source with
      | .ok program => .ok program
      | .error e => .error e.diagnostic

/-- Where scripts are, in a monad where failures are diagnostics: how one
is read, how an output is opened, and how a script is run into it. -/
structure Host (m : Type → Type) (Handle : Type) where
  read : Text → m (List UInt8)
  create : Text → m Handle
  run : Program → Handle → m Unit

def Host.transpile {m : Type → Type} [Monad m] [MonadExceptOf Diagnostic m] {Handle : Type}
    (host : Host m Handle) (input output : Text) : m Nat := do
  let bytes ← host.read input
  let program ← liftExcept (Program.ofBytes bytes)
  let outlet ← host.create output
  host.run program outlet
  return program.statements.length

/-! ### Streams -/

/-- What a run from file to file writes to: a file, and the two streams
of the command. -/
structure Streams where
  file : Sink
  console : Sink
  errors : Sink
  deriving DecidableEq, Repr

namespace Streams

def toFile : Writer Streams :=
  Sink.writer.onPart file fun sink streams => { streams with file := sink }

def toConsole : Writer Streams :=
  Sink.stream.onPart console fun sink streams => { streams with console := sink }

def toErrors : Writer Streams :=
  Sink.stream.onPart errors fun sink streams => { streams with errors := sink }

/-- What is written is kept back, and there is never room to let go of
it. -/
def toNoSpace : Writer Streams where
  write := toFile.write
  flush streams :=
    if streams.file.bytes = [] then .ok () streams else .error Fault.noSpace.reason streams

def printer : Printer Streams :=
  Printer.toSink.onPart console fun sink streams => { streams with console := sink }

end Streams

/-- How code is written to an outlet. What a null device takes is kept like
a file that is never looked at. -/
def Outlet.writer : Outlet → Writer Streams
  | file _ => Streams.toFile
  | device .null => Streams.toFile
  | device .full => Streams.toNoSpace
  | device .output => Streams.toConsole
  | device .errors => Streams.toErrors

def Program.run (settings : Settings) (program : Program) (outlet : Outlet) (streams : Streams) :
    EStateM.Result Diagnostic (Stage Streams) Unit :=
  (Run.means outlet.writer Streams.printer).runAndFlush settings program.statements
    ⟨.fresh, streams, []⟩

/-! ### Files on a disk -/

structure Site where
  disk : Disk
  console : Sink
  errors : Sink
  deriving DecidableEq, Repr

namespace Site

def read (input : Text) : EStateM Diagnostic Site (List UInt8) := fun site =>
  match site.disk.read input with
  | .ok bytes => .ok bytes site
  | .error fault => .error (.io fault.reason) site

def create (output : Text) : EStateM Diagnostic Site Outlet := fun site =>
  match site.disk.create output with
  | .ok (disk, outlet) => .ok outlet { site with disk := disk }
  | .error fault => .error (.io fault.reason) site

def streams (site : Site) : Streams := ⟨.unlimited, site.console, site.errors⟩

def after (site : Site) (outlet : Outlet) (streams : Streams) : Site :=
  ⟨site.disk.fill outlet streams.file.bytes, streams.console, streams.errors⟩

def run (settings : Settings) (program : Program) (outlet : Outlet) :
    EStateM Diagnostic Site Unit := fun site =>
  match program.run settings outlet site.streams with
  | .ok () stage => .ok () (site.after outlet stage.outside)
  | .error e stage => .error e (site.after outlet stage.outside)

def host (settings : Settings) : Host (EStateM Diagnostic Site) Outlet :=
  ⟨read, create, run settings⟩

def transpile (settings : Settings) (input output : Text) : EStateM Diagnostic Site Nat :=
  (host settings).transpile input output

end Site

end StoredProc
