import StoredProc.CommandLine

/-!
The command itself: it carries out on real files and streams what
`CommandLine` decides.
-/

namespace StoredProc.Main

def reason (e : IO.Error) : Text :=
  match e with
  | .alreadyExists _ code details | .inappropriateType _ code details
  | .interrupted _ code details | .invalidArgument _ code details
  | .noFileOrDirectory _ code details | .noSuchThing _ code details
  | .permissionDenied _ code details | .resourceExhausted _ code details
  | .hardwareFault code details | .illegalOperation code details
  | .otherError code details | .protocolError code details
  | .resourceBusy code details | .resourceVanished code details
  | .timeExpired code details | .unsatisfiedConstraints code details
  | .unsupportedOperation code details => s!"{details} (os error {code})".toList
  | .unexpectedEof | .userError _ => e.toString.toList

/-- What the command does on the way from file to file. It fails with a
diagnostic, and in no other way. -/
abbrev Command := ExceptT Diagnostic BaseIO

def attempt {α : Type} (action : IO α) : Command α :=
  ExceptT.mk ( EIO.catchExceptions (Except.ok <$> action) fun e => pure (.error (.io (reason e))))

def read (input : Text) : Command (List UInt8) := do
  let bytes ← attempt (IO.FS.withFile (String.ofList input) .read (·.readBinToEnd))
  return bytes.toList

def create (output : Text) : Command IO.FS.Handle :=
  attempt (IO.FS.Handle.mk (String.ofList output) .write)

def print (value : Text) : Command Unit := attempt do
  let stdout ← IO.getStdout
  stdout.putStrLn (String.ofList value)
  stdout.flush

/-- A run into a file, with the memory of the script beside it. Nobody
listens to its events. -/
def means (handle : IO.FS.Handle) : Means (StateT Session Command) where
  resolve statement session := do
    let (session, value) ← liftExcept (session.resolve statement)
    return (value, session)
  print value := liftM (print value)
  note _ := pure ()
  write bytes := liftM (attempt (handle.write ⟨bytes.toArray⟩))
  flush := liftM (attempt handle.flush)

def run (settings : Settings) (program : Program) (handle : IO.FS.Handle) : Command Unit := do
  let _ ← (means handle).runAndFlush settings program.statements |>.run .fresh

def host (settings : Settings) : Host Command IO.FS.Handle := ⟨read, create, run settings⟩

/-- The failure of a run from file to file, if it fails. -/
def transpile (input output : Text) : BaseIO (Option Diagnostic) := do
  match ← ((host .standard).transpile input output).run with
  | .ok _ => return none
  | .error d => return some d

def say (report : CommandLine.Report) : IO UInt32 := do
  (← IO.getStdout).putStr (String.ofList report.stdout)
  (← IO.getStderr).putStr (String.ofList report.stderr)
  return report.code.toUInt32

end StoredProc.Main

open StoredProc in
def main (args : List String) : IO UInt32 := do
  match CommandLine.parse (args.map String.toList) with
  | .ok (.transpile input output) =>
      let failed ← Main.transpile input output
      Main.say (.ofRun input output .unlimited .unlimited failed)
  | _ => Main.say (CommandLine.run (args.map String.toList) .fresh).1
