import StoredProc.CommandLine.Request
import StoredProc.Diagnostic
import StoredProc.Sink
import StoredProc.Text.Terminal

/-!
What the command says, on either stream, and the code it ends with.
-/

namespace StoredProc.CommandLine

/-- The end of a run: the code, and what is written to either stream. -/
structure Report where
  code : Nat
  stdout : Text
  stderr : Text
  deriving DecidableEq, Repr

def command : Text := "procsql".toList

def Slot.label : Slot → Text
  | input => "<INPUT>".toList
  | output => "<OUTPUT>".toList

def usage (form : Text) : Text := "Usage: ".toList ++ command ++ form ++ ['\n']

def bothSlots : Text := " <INPUT> <OUTPUT>".toList

def eitherSlot : Text := " <INPUT|OUTPUT>".toList

def helpText : Text :=
  "Transpile procedural SQL scripts to Python\n\n".toList ++ usage bothSlots ++
    ("\nArguments:\n  <INPUT>   Script to read\n" ++
      "  <OUTPUT>  File to write the generated Python to\n\n" ++
      "Options:\n  -h, --help     Print help\n  -V, --version  Print version\n").toList

def versionText : Text := command ++ " 0.1.0\n".toList

/-- What a terminal would show of a text, between apostrophes. -/
def marked (text : Text) : Text := '\x27' :: Text.Terminal.shown text ++ ['\x27']

def Flag.long (flag : Flag) : Text := '-' :: '-' :: flag.name

/-- The first line of a usage error, without its mark. -/
def UsageError.headline : UsageError → Text
  | emptyValue slot =>
      "a value is required for ".toList ++ marked slot.label ++ " but none was supplied".toList
  | missing slots =>
      "the following required arguments were not provided:".toList ++
        slots.flatMap fun slot => "\n  ".toList ++ slot.label
  | unknownOption name _ => "unexpected argument ".toList ++ marked name ++ " found".toList
  | extraArgument value => "unexpected argument ".toList ++ marked value ++ " found".toList
  | unwantedValue flag value _ =>
      "unexpected value ".toList ++ marked value ++ " for ".toList ++ marked flag.long ++
        " found; no more were expected".toList

def UsageError.tip : UsageError → Text
  | unknownOption _ (some flag) =>
      "  tip: a similar argument exists: ".toList ++ marked flag.long ++ "\n\n".toList
  | unknownOption name none =>
      "  tip: to pass ".toList ++ marked name ++ " as a value, use ".toList ++
        marked ("-- ".toList ++ name) ++ "\n\n".toList
  | _ => []

/-- The usage that goes with a usage error. Where an option is at issue it
is shown, and when the arguments were there before a value that it does
not take, the two are shown as one. -/
def UsageError.usage : UsageError → Text
  | emptyValue _ => []
  | unknownOption _ (some flag) => CommandLine.usage (' ' :: flag.long ++ bothSlots) ++ ['\n']
  | unwantedValue flag _ full =>
      CommandLine.usage (' ' :: flag.long ++ if full then eitherSlot else bothSlots) ++ ['\n']
  | _ => CommandLine.usage bothSlots ++ ['\n']

def UsageError.message (e : UsageError) : Text :=
  "error: ".toList ++ e.headline ++ "\n\n".toList ++ e.tip ++ e.usage ++
    "For more information, try '--help'.\n".toList

/-- What went wrong beneath a failure, numbered if there is more than one
step to it. -/
def causes (d : Diagnostic) : Text :=
  match d.reason? with
  | some reason =>
      "    0: ".toList ++ d.message ++ "\n    1: ".toList ++ reason ++ ['\n']
  | none => "    ".toList ++ d.message ++ ['\n']

def failure (input output : Text) (d : Diagnostic) : Text :=
  "Error: failed to transpile ".toList ++ input ++ " into ".toList ++ output ++
    "\n\nCaused by:\n".toList ++ causes d

def Report.ofRun (input output : Text) (console errors : Sink) : Option Diagnostic → Report
  | none => ⟨0, console.text, errors.text⟩
  | some d => ⟨1, console.text, errors.text ++ failure input output d⟩

end StoredProc.CommandLine
