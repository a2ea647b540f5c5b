import SqlAudit.Text.Basic

/-!
Command lines: flags with dashes, arguments and subcommands.  Flags may stand between arguments; two
dashes alone end the flags.
-/

namespace SqlAudit

/-- What is wrong with a command line, or what it asks for instead of a run. -/
inductive UsageError where
  | unknownArgument
  | unknownSubcommand
  | missingArgument
  | missingSubcommand
  /-- Nothing is given where a subcommand is needed. -/
  | nothingGiven
  /-- A value is missing, or is none of the possible ones. -/
  | invalidValue
  | unreadableValue
  /-- A flag that takes no value has one. -/
  | unexpectedValue
  | repeatedFlag
  | helpWanted
  | versionWanted
  deriving DecidableEq, Repr

def UsageError.message : UsageError → String
  | .unknownArgument => "unexpected argument"
  | .unknownSubcommand => "unrecognized subcommand"
  | .missingArgument => "required arguments were not provided"
  | .missingSubcommand | .nothingGiven => "a subcommand is required"
  | .invalidValue => "a value is missing or is none of the possible values"
  | .unreadableValue => "a value cannot be read"
  | .unexpectedValue => "a value stands after a flag that takes none"
  | .repeatedFlag => "a flag cannot be used multiple times"
  | .helpWanted => "help is wanted"
  | .versionWanted => "the version is wanted"

/-- What a flag does. -/
inductive FlagKind where
  | switch
  /-- It takes a value; `check` says what is wrong with one. -/
  | valued (check : String → Option UsageError)
  /-- It asks for something else and ends the reading. -/
  | request (instead : UsageError)

structure Flag where
  long : String
  short : Option Char := none
  kind : FlagKind

structure CommandShape where
  flags : List Flag
  leastArguments : Nat := 0
  /-- Without a number there is no limit. -/
  mostArguments : Option Nat := some 0
  checkArgument : String → Option UsageError := fun _ => none
  requiredFlags : List String := []
  /-- A command with subcommands needs one of them. -/
  subcommands : List String := []

structure Given where
  /-- Flags in order, with their values; a switch has an empty one. -/
  flags : List (String × String) := []
  arguments : List String := []
  deriving DecidableEq, Repr

namespace Given

def value? (g : Given) (long : String) : Option String := g.flags.lookup long

def has (g : Given) (long : String) : Bool := (g.value? long).isSome

end Given

/-- A command line that has been read in part. -/
structure Reading where
  given : Given := {}
  /-- A flag that takes a value, with the value once it has been read.  It counts as given only when
  the next flag or argument comes. -/
  pending : Option (Flag × Option String) := none
  flagsEnded : Bool := false

namespace Reading

def waits (r : Reading) : Bool := r.pending.any fun p => p.2.isNone

/-- Takes a flag with its value. -/
def accept (r : Reading) (flag : Flag) (value : String) : Except UsageError Reading :=
  let problem := match flag.kind with
    | .valued check => check value
    | _ => none
  if r.given.has flag.long then .error .repeatedFlag
  else match problem with
    | some e => .error e
    | none => .ok { r with given.flags := r.given.flags ++ [(flag.long, value)] }

def settle (r : Reading) : Except UsageError Reading :=
  match r.pending with
  | none => .ok r
  | some (_, none) => .error .invalidValue
  | some (flag, some value) => { r with pending := none }.accept flag value

def turnOn (r : Reading) (flag : Flag) : Except UsageError Reading := do
  let r ← r.settle
  match flag.kind with
  | .switch => r.accept flag ""
  | .valued _ => .ok { r with pending := some (flag, none) }
  | .request instead => .error instead

def turnOnWith (r : Reading) (flag : Flag) (value : String) : Except UsageError Reading :=
  match flag.kind with
  | .valued _ => do (← r.settle).accept flag value
  | _ => .error .unexpectedValue

end Reading

namespace CommandShape

/-! ## Single words of a command line -/

/-- Reads a flag after two dashes, with its value after an equals sign. -/
def readLong (c : CommandShape) (r : Reading) (body : Text) : Except UsageError Reading :=
  let (name, value) := match Text.splitOnce? ['='] body with
    | some (name, value) => (name, some value)
    | none => (body, none)
  match c.flags.find? fun flag => flag.long == String.ofList name with
  | none => .error .unknownArgument
  | some flag => match value with
    | some value => r.turnOnWith flag (String.ofList value)
    | none => r.turnOn flag

/-- Reads flags of one letter after one dash. -/
def readShort (c : CommandShape) : Reading → Text → Except UsageError Reading
  | r, [] => .ok r
  | r, letter :: rest =>
    match c.flags.find? fun flag => flag.short == some letter with
    | none => .error .unknownArgument
    | some flag => match flag.kind, rest with
      -- What follows a flag that takes a value is the value, and not more flags.
      | .valued _, '=' :: value => r.turnOnWith flag (String.ofList value)
      | .valued _, _ :: _ => r.turnOnWith flag (String.ofList rest)
      | _, _ => do c.readShort (← r.turnOn flag) rest

def excess (c : CommandShape) (r : Reading) (arg : String) : UsageError :=
  if c.subcommands.isEmpty || (r.flagsEnded && c.subcommands.contains arg) then .unknownArgument
  else .unknownSubcommand

def readArgument (c : CommandShape) (r : Reading) (arg : String) : Except UsageError Reading :=
  if c.mostArguments.all (r.given.arguments.length < ·) then do
    let r ← r.settle
    .ok { r with given.arguments := r.given.arguments ++ [arg] }
  else .error (c.excess r arg)

/-- Reads a word that is no subcommand. -/
def readWord (c : CommandShape) (r : Reading) (arg : String) : Except UsageError Reading :=
  if r.flagsEnded then c.readArgument r arg
  else match arg.toList with
    | ['-', '-'] => .ok { r with flagsEnded := true }
    | '-' :: '-' :: body => c.readLong r body
    | '-' :: letter :: rest => c.readShort r (letter :: rest)
    | _ => match r.pending with
      | some (flag, none) => .ok { r with pending := some (flag, some arg) }
      | _ => c.readArgument r arg

/-! ## Command lines -/

/-- What was read up to the subcommand, if there is one, and the words after it. -/
structure Split where
  reading : Reading
  subcommand : Option (String × List String)

def read (c : CommandShape) : Reading → List String → Except UsageError Split
  | r, [] => .ok ⟨r, none⟩
  | r, arg :: rest =>
    if !r.flagsEnded && !r.waits && c.subcommands.contains arg then .ok ⟨r, some (arg, rest)⟩
    else do c.read (← c.readWord r arg) rest

/-- What the command was given, once all words are read. -/
def finish (c : CommandShape) (r : Reading) : Except UsageError Given := do
  let given := (← r.settle).given
  match given.arguments.findSome? c.checkArgument with
  | some e => .error e
  | none =>
    if given.arguments.length < c.leastArguments || !c.requiredFlags.all given.has then
      .error .missingArgument
    else .ok given

def parse (c : CommandShape) (args : List String) : Except UsageError Given := do
  c.finish (← c.read {} args).reading

/-- Reads the command line of a command with subcommands; `next` reads what follows the
subcommand. -/
def parseWith {α : Type} (c : CommandShape) (args : List String)
    (next : String → List String → Except UsageError α) : Except UsageError (Given × α) := do
  let ⟨reading, subcommand⟩ ← c.read {} args
  match subcommand with
  | some (name, rest) => do
    -- What is wrong there is found before a fault of the command's own last flag.
    let result ← next name rest
    return (← c.finish reading, result)
  | none =>
    let given ← c.finish reading
    .error (if given.flags.isEmpty then .nothingGiven else .missingSubcommand)

end CommandShape
end SqlAudit
