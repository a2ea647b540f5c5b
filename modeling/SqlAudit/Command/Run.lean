import SqlAudit.Command.Invocation
import SqlAudit.Configuration
import SqlAudit.DataType.Catalog
import SqlAudit.Input
import SqlAudit.Tool

/-!
A run of the program as a function of the command line and of what surrounds it: files, the standard
input and the environment.
-/

namespace SqlAudit

structure Surroundings where
  read : String → Except ReadFailure (List UInt8)
  input : List UInt8 := []
  environment : String → Option String := fun _ => none
  terminal : Bool := false

inductive Ending where
  | done (outcome : Outcome)
  | failed (failure : Failure)
  | misused (error : UsageError)

namespace Surroundings

/-! ## Settings -/

def configVariable : String := "SQL_REVIEW_CONFIG"

def settingsOfFile (bytes : List UInt8) : Except Failure Settings :=
  match Utf8.decode? bytes with
  | some text => Configuration.ofText text
  | none => .error .undecodableConfig

/-- A path below a directory; an empty path is the working directory. -/
def below (directory path : String) : String :=
  if directory.isEmpty then path else directory ++ "/" ++ path

/-- Where configuration files are looked for: in the home directory, then in the working directory,
whose file replaces the other one. -/
def configPaths (s : Surroundings) : List String :=
  ((s.environment "HOME").map fun home => below home ".config/sql-review/config.toml").toList ++
  [".sql-review.toml"]

/-- The settings of a file if it exists, else those that are given. -/
def settingsIfFile (s : Surroundings) (given : Settings) (path : String) :
    Except Failure Settings :=
  match s.read path with
  | .ok bytes => settingsOfFile bytes
  | .error .isDirectory => .error (.unreadableConfig .isDirectory)
  | .error (.other reason) => .error (.unreadableConfig (.other reason))
  | .error _ => .ok given

/-- The settings of the file that is asked for, or else of the usual files, changed by the
environment. -/
def settings (s : Surroundings) (config : Option String) : Except Failure Settings := do
  let given ← match config with
    | some path => match s.read path with
      | .ok bytes => settingsOfFile bytes
      | .error cause => .error (.unreadableConfig cause)
    | none => s.configPaths.foldlM s.settingsIfFile {}
  Configuration.applyEnvironment s.environment given

/-- Whether output is coloured: when the environment forces it, or on a terminal unless it forbids
it. -/
def allowsColor (s : Surroundings) : Bool :=
  if (s.environment "CLICOLOR_FORCE").any (· != "0") then true
  else if (s.environment "NO_COLOR").isSome then false
  else s.terminal && (s.environment "CLICOLOR").all (· != "0")

/-! ## Reviews -/

/-- The path that stands for the standard input. -/
def inputPath : String := "-"

def fileText (s : Surroundings) (limit : Nat) (path : String) : Except Failure Text :=
  match s.read path with
  | .ok bytes => Input.text path bytes limit
  | .error cause => .error (.unreadable path cause)

/-- The reports on files in order, up to the first failure. -/
def reports (s : Surroundings) (a : Analyzer) :
    (input : List UInt8) → List String → Except Failure (List SourceReport)
  | _, [] => .ok []
  | input, path :: rest => do
    let limit := a.settings.analysis.maxInputBytes
    if path = inputPath then
      -- The standard input can be read once, and is empty after that.
      let text ← Input.text "stdin" input limit
      return ⟨"stdin", a.review text⟩ :: (← s.reports a [] rest)
    else
      let text ← s.fileText limit path
      return ⟨path, a.review text⟩ :: (← s.reports a input rest)

/-- Settings with what a request says. -/
def withRequest (settings : Settings) (r : ReviewRequest) : Settings :=
  { settings with analysis := { settings.analysis with
      dialect := r.dialect.getD settings.analysis.dialect
      strict := settings.analysis.strict || r.strict } }

def review (s : Surroundings) (r : ReviewRequest) (settings : Settings) (colored verbose : Bool) :
    Except Failure Outcome := do
  let a : Analyzer := { registry := Catalog.registry, settings := withRequest settings r }
  let reports ← s.reports a s.input r.files
  let presentation : Presentation := { format := r.format, colored, verbose }
  return ⟨Report.exitStatusAll (r.leastScore.getD 0) (reports.map SourceReport.report),
    presentation.render reports⟩

/-! ## Runs -/

def perform (s : Surroundings) (i : Invocation) : Except Failure Outcome :=
  match i.action with
  | .types query => .ok (query.answer Catalog.registry)
  | .review request => do
    let settings ← s.settings (i.config.or (s.environment configVariable))
    s.review request settings (!request.plain && s.allowsColor) i.verbose

def run (s : Surroundings) (args : List String) : Ending :=
  match Invocation.parse args with
  | .error e => .misused e
  | .ok i =>
    if s.environment configVariable = some "" then .misused .invalidValue
    else match s.perform i with
      | .ok outcome => .done outcome
      | .error failure => .failed failure

end Surroundings

namespace Ending

def status : Ending → Nat
  | .done outcome => outcome.status
  | .failed _ => 1
  | .misused .helpWanted | .misused .versionWanted => 0
  | .misused _ => 2

def usage : String :=
  s!"Usage: {Tool.name} [OPTIONS] <COMMAND>\n\nCommands:\n" ++
  "  analyze  Review SQL files (schema and statements in any mix)\n" ++
  "  types    Query the data type registry\n"

/-- What goes to the standard output. -/
def output : Ending → Text
  | .done outcome => outcome.output
  | .misused .versionWanted => s!"{Tool.name} {Tool.version}\n".toList
  | .misused .helpWanted => usage.toList
  | _ => []

/-- What goes to the standard error. -/
def errorLine : Ending → Option String
  | .failed failure => some s!"Error: {failure.label}"
  | .misused .helpWanted | .misused .versionWanted => none
  | .misused e => some s!"error: {e.message}"
  | .done _ => none

end Ending
end SqlAudit
