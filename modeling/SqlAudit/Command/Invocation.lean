import SqlAudit.Command.TypesQuery
import SqlAudit.Command.Usage
import SqlAudit.Render.Basic
import SqlAudit.Text.Numeral

/-!
What the program can be called for: the review of files, and questions about types.
-/

namespace SqlAudit

structure ReviewRequest where
  /-- Paths; a dash stands for the standard input. -/
  files : List String
  dialect : Option Dialect := none
  format : Format := .text
  plain : Bool := false
  /-- Asks for the strict pass, and never takes it away. -/
  strict : Bool := false
  leastScore : Option Nat := none
  deriving DecidableEq, Repr

inductive Action where
  | review (request : ReviewRequest)
  | types (query : TypesQuery)
  deriving DecidableEq, Repr

structure Invocation where
  action : Action
  verbose : Bool := false
  /-- A configuration file that takes the place of the usual ones. -/
  config : Option String := none
  deriving DecidableEq, Repr

namespace Invocation

/-! ## Values -/

/-- Dialects with their names on the command line, which are taken as they stand. -/
def dialectNames : List (String × Dialect) :=
  [("generic", .generic), ("ansi", .generic), ("mysql", .mysql), ("mariadb", .mysql),
   ("postgresql", .postgresql), ("postgres", .postgresql), ("pg", .postgresql),
   ("sqlite", .sqlite), ("sqlserver", .sqlserver), ("mssql", .sqlserver), ("oracle", .oracle)]

def dialect? (written : String) : Option Dialect := dialectNames.lookup written

def score? (written : String) : Option Nat :=
  (Text.signed? 0 Finding.fullScore written.toList).map Int.toNat

/-- Refuses values that a reader does not take. -/
def checked {α : Type} (read? : String → Option α) (e : UsageError) (value : String) :
    Option UsageError :=
  if (read? value).isSome then none else some e

def nonEmpty (value : String) : Option UsageError :=
  if value.isEmpty then some .invalidValue else none

/-! ## Shapes -/

def sharedFlags : List Flag :=
  [⟨"verbose", some 'v', .switch⟩, ⟨"config", none, .valued nonEmpty⟩,
   ⟨"help", some 'h', .request .helpWanted⟩]

def dialectFlag : Flag := ⟨"dialect", none, .valued (checked dialect? .invalidValue)⟩

def rootShape : CommandShape where
  flags := ⟨"version", some 'V', .request .versionWanted⟩ :: sharedFlags
  subcommands := ["analyze", "types", "help"]

def reviewShape : CommandShape where
  flags := sharedFlags ++
    [dialectFlag, ⟨"output-format", some 'f', .valued (checked Format.ofName? .invalidValue)⟩,
     ⟨"no-color", none, .switch⟩, ⟨"strict", none, .switch⟩,
     ⟨"min-score", none, .valued (checked score? .unreadableValue)⟩]
  leastArguments := 1
  mostArguments := none
  checkArgument := nonEmpty

def typesShape : CommandShape where
  flags := sharedFlags
  subcommands := ["resolve", "list", "compatible", "infer", "path", "help"]

/-- A command with a number of arguments and no flags of its own. -/
def argumentsShape (count : Nat) : CommandShape where
  flags := sharedFlags
  leastArguments := count
  mostArguments := some count

def listShape : CommandShape where
  flags := sharedFlags ++
    [dialectFlag, ⟨"category", none, .valued (checked TypeCategory.ofName? .unreadableValue)⟩]

def compatibleShape : CommandShape :=
  { argumentsShape 1 with flags := sharedFlags ++ [dialectFlag], requiredFlags := ["dialect"] }

def inferShape : CommandShape where
  flags := sharedFlags ++ [dialectFlag]
  leastArguments := 1
  mostArguments := none

/-! ## Reading -/

def dialectOf (g : Given) : Option Dialect := (g.value? "dialect").bind dialect?

def readReview (args : List String) : Except UsageError (Given × Action) := do
  let g ← reviewShape.parse args
  return (g, .review {
    files := g.arguments
    dialect := dialectOf g
    format := ((g.value? "output-format").bind Format.ofName?).getD .text
    plain := g.has "no-color"
    strict := g.has "strict"
    leastScore := (g.value? "min-score").bind score? })

def subcommandsOf (name : String) : List String :=
  if name = "types" then typesShape.subcommands else []

/-- Help on a command: each word names a subcommand of the one before it. -/
def readHelp : (topics : List String) → List String → UsageError
  | _, [] => .helpWanted
  | topics, topic :: rest =>
    if topics.contains topic then readHelp (subcommandsOf topic) rest else .unknownSubcommand

def readQuery (name : String) (args : List String) : Except UsageError (Given × TypesQuery) := do
  match name with
  | "resolve" =>
    let g ← (argumentsShape 1).parse args
    return (g, .resolve (g.arguments.headD ""))
  | "list" =>
    let g ← listShape.parse args
    return (g, .list ((g.value? "category").bind TypeCategory.ofName?) (dialectOf g))
  | "compatible" =>
    let g ← compatibleShape.parse args
    return (g, .compatible (g.arguments.headD "") ((dialectOf g).getD .generic))
  | "infer" =>
    let g ← inferShape.parse args
    return (g, .infer g.arguments (dialectOf g))
  | "path" =>
    let g ← (argumentsShape 2).parse args
    return (g, .path (g.arguments.headD "") (g.arguments.getD 1 ""))
  | _ => .error (readHelp typesShape.subcommands args)

/-- The values that shared flags have: those of an inner command win. -/
def withGiven (i : Invocation) (g : Given) : Invocation :=
  { i with verbose := i.verbose || g.has "verbose", config := i.config.or (g.value? "config") }

def parseTypes (args : List String) : Except UsageError Invocation := do
  let (outer, inner, query) ← typesShape.parseWith args readQuery
  return (({ action := .types query : Invocation }.withGiven inner).withGiven outer)

def parseReview (args : List String) : Except UsageError Invocation := do
  let (g, action) ← readReview args
  return { action : Invocation }.withGiven g

def parse (args : List String) : Except UsageError Invocation := do
  let (outer, invocation) ← rootShape.parseWith args fun name rest =>
    match name with
    | "analyze" => parseReview rest
    | "types" => parseTypes rest
    | _ => .error (readHelp rootShape.subcommands rest)
  return invocation.withGiven outer

end Invocation
end SqlAudit
