import StoredProc.Text.Jaro

/-!
What the command line asks for: which script to read and which file to
write, or one of two options. Arguments are taken from left to right,
and the first that cannot be understood is reported.
-/

namespace StoredProc.CommandLine

inductive Slot where
  | input
  | output
  deriving DecidableEq, Repr

/-- The options, neither of which takes a value. -/
inductive Flag where
  | help
  | version
  deriving DecidableEq, Repr

inductive Request where
  | transpile (input output : Text)
  | help
  | version
  deriving DecidableEq, Repr

inductive UsageError where
  /-- An argument is the empty text. -/
  | emptyValue (slot : Slot)
  /-- Arguments are missing. -/
  | missing (slots : List Slot)
  /-- There is no such option; one that looks like it may be meant. -/
  | unknownOption (name : Text) (similar : Option Flag)
  /-- There are too many arguments. -/
  | extraArgument (value : Text)
  /-- An option has a value. Both arguments may have been seen before it. -/
  | unwantedValue (flag : Flag) (value : Text) (full : Bool)
  deriving DecidableEq, Repr

/-! ### Options -/

def Flag.name : Flag → Text
  | help => "help".toList
  | version => "version".toList

def Flag.all : List Flag := [.help, .version]

def Flag.ofLong? (name : Text) : Option Flag := Flag.all.find? (·.name = name)

def Flag.ofShort? : Char → Option Flag
  | 'h' => some .help
  | 'V' => some .version
  | _ => none

def Flag.request : Flag → Request
  | help => .help
  | version => .version

/-- Above this similarity, one name may be meant for another. -/
def alike : Float := 0.7

/-- The option, of one that was found before and one more, that a name is
rather meant for. Of two that are equally similar it is the later. -/
def Flag.nearer (name : Text) (found : Option Flag) (flag : Flag) : Option Flag :=
  let score := fun flag => Text.Jaro.score name (Flag.name flag)
  if score flag ≤ alike then found
  else
    match found with
    | some other => if score flag < score other then some other else some flag
    | none => some flag

def Flag.similar? (name : Text) : Option Flag := Flag.all.foldl (Flag.nearer name) none

/-! ### Arguments

The arguments seen so far are at most two. Each is checked when it is
known that nothing more belongs to it: at the next argument, at an
option that answers at once, or at the end. -/

inductive Values where
  | empty
  | one (input : Text)
  | two (input output : Text)
  deriving DecidableEq, Repr

def Values.full : Values → Bool
  | two _ _ => true
  | _ => false

def Values.check : Values → Except UsageError Unit
  | empty => .ok ()
  | one input => if input = [] then .error (.emptyValue .input) else .ok ()
  | two _ output => if output = [] then .error (.emptyValue .output) else .ok ()

def Values.add (values : Values) (value : Text) : Except UsageError Values :=
  match values with
  | empty => .ok (one value)
  | one input => do
      values.check
      return two input value
  | two _ _ => .error (.extraArgument value)

def Values.request (values : Values) : Except UsageError Request := do
  values.check
  match values with
  | empty => throw (.missing [.input, .output])
  | one _ => throw (.missing [.output])
  | two input output => return .transpile input output

def Values.answer (values : Values) (flag : Flag) : Except UsageError Request := do
  values.check
  return flag.request

/-- An option of one letter. It answers at once, so that letters after it
are never read. -/
def shortOption (values : Values) (letter : Char) : Except UsageError Request :=
  match Flag.ofShort? letter with
  | some flag => values.answer flag
  | none => .error (.unknownOption ['-', letter] none)

def longOption (values : Values) (option : Text) : Except UsageError Request :=
  let name := option.takeWhile (· ≠ '=')
  match Flag.ofLong? name, option.dropWhile (· ≠ '=') with
  | some flag, [] => values.answer flag
  | some flag, _ :: value => .error (.unwantedValue flag value values.full)
  | none, _ => .error (.unknownOption ('-' :: '-' :: name) (Flag.similar? name))

def plainArguments (values : Values) : List Text → Except UsageError Request
  | [] => values.request
  | value :: rest => do plainArguments (← values.add value) rest

/-- Arguments and options, up to a double dash by itself. A dash by itself
is an argument. -/
def arguments (values : Values) : List Text → Except UsageError Request
  | [] => values.request
  | ['-', '-'] :: rest => plainArguments values rest
  | ('-' :: '-' :: option) :: _ => longOption values option
  | ('-' :: letter :: _) :: _ => shortOption values letter
  | value :: rest => do arguments (← values.add value) rest

def parse (args : List Text) : Except UsageError Request := arguments .empty args

end StoredProc.CommandLine
