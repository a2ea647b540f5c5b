import SqlAudit.Failure
import SqlAudit.Power
import SqlAudit.Review.Settings
import SqlAudit.Toml.Document

/-!
Settings from a configuration file and from the environment.  Keys that mean nothing are passed over,
and a key that is missing leaves its default.
-/

namespace SqlAudit
namespace Configuration

open Toml

/-! ## Passing over -/

/-- Whether a whole number fits in 128 bits, with or without a sign. -/
def isInRange (value : Int) : Bool := -(twoTo 127 : Int) ≤ value && value < (twoTo 128 : Int)

mutual

/-- Whether a value can be passed over.  Numbers that nothing can hold are refused even there. -/
def isPassable : Toml → Bool
  | .integer value => isInRange value
  | .unreadable => false
  | .list items | .tables items => arePassable items
  | .table _ entries => entriesPassable entries
  | _ => true

def arePassable : List Toml → Bool
  | [] => true
  | value :: rest => isPassable value && arePassable rest

def entriesPassable : List (String × Toml) → Bool
  | [] => true
  | (_, value) :: rest => isPassable value && entriesPassable rest

end

/-! ## Single settings -/

def truth : Toml → Except Failure Bool
  | .truth value => .ok value
  | _ => .error .invalidConfig

/-- A count that fits in 64 bits. -/
def count : Toml → Except Failure Nat
  | .integer value =>
    if 0 ≤ value ∧ value < (twoTo 64 : Int) then .ok value.toNat else .error .invalidConfig
  | _ => .error .invalidConfig

def text : Toml → Except Failure String
  | .text value => .ok value
  | _ => .error .invalidConfig

def dialect (value : Toml) : Except Failure Dialect := do
  let name ← text value
  match Dialect.ofName? name with
  | some d => .ok d
  | none => .error (.invalidConfigDialect name)

def texts : Toml → Except Failure (List String)
  | .list items | .tables items => items.mapM text
  | _ => .error .invalidConfig

/-- The entry that a date is where names with texts are expected. -/
def momentKey : String := "$__toml_private_datetime"

def namedTexts : Toml → Except Failure (List (String × String))
  | .table _ entries => entries.mapM fun (key, value) => do return (key, ← text value)
  | .moment written => .ok [(momentKey, written)]
  | _ => .error .invalidConfig

/-! ## Files -/

/-- Entries in the order of their names, in which they are read. -/
def inOrder (entries : Entries) : Entries := entries.mergeSort fun a b => decide (a.1 ≤ b.1)

/-- The settings of a group, in the order in which they are read: by name, or as a list of those of
`names` from the first on.  A date holds none. -/
def settings? (names : List String) : Toml → Option Entries
  | .table _ entries => some (inOrder entries)
  | .list items | .tables items => some (names.zip items)
  | .moment _ => some []
  | _ => none

/-- Reads a group of settings, each of which changes what there is. -/
def readGroup {α : Type} (names : List String) (start : α)
    (read : α → String × Toml → Except Failure α) (value : Toml) : Except Failure α :=
  match settings? names value with
  | some entries => entries.foldlM read start
  | none => .error .invalidConfig

def passOver {α : Type} (s : α) (value : Toml) : Except Failure α :=
  if isPassable value then .ok s else .error .invalidConfig

def analysisSetting (s : AnalysisSettings) : String × Toml → Except Failure AnalysisSettings
  | ("dialect", value) => return { s with dialect := ← dialect value }
  | ("strict", value) => return { s with strict := ← truth value }
  | ("snippet_width", value) => return { s with snippetWidth := ← count value }
  | ("max_input_bytes", value) => return { s with maxInputBytes := ← count value }
  | (_, value) => passOver s value

def ruleSetting (s : RuleSettings) : String × Toml → Except Failure RuleSettings
  | ("disabled", value) => return { s with disabled := ← texts value }
  | ("severity", value) => return { s with severities := ← namedTexts value }
  | (_, value) => passOver s value

def analysis : Toml → Except Failure AnalysisSettings :=
  readGroup ["dialect", "strict", "snippet_width", "max_input_bytes"] {} analysisSetting

def rules : Toml → Except Failure RuleSettings :=
  readGroup ["disabled", "severity"] {} ruleSetting

def setting (s : Settings) : String × Toml → Except Failure Settings
  | ("analysis", value) => return { s with analysis := ← analysis value }
  | ("rules", value) => return { s with rules := ← rules value }
  | (_, value) => passOver s value

def ofText (t : Text) : Except Failure Settings :=
  match Toml.parse? t with
  | none => .error .invalidConfig
  -- The first fault in the order of names is the one that is reported.
  | some entries => (inOrder entries).foldlM setting {}

/-! ## The environment -/

def dialectVariable : String := "SQL_REVIEW_DIALECT"

def strictVariable : String := "SQL_REVIEW_STRICT"

def switches : List (String × Bool) :=
  [("1", true), ("true", true), ("yes", true), ("on", true), ("0", false), ("false", false),
   ("no", false), ("off", false), ("", false)]

/-- Whether a word, in any case and with blanks around it, means on or off. -/
def switch? (written : String) : Option Bool :=
  switches.lookup (String.ofList ((Text.trim written.toList).map Char.toLower))

/-- Settings changed by the environment, the dialect first. -/
def applyEnvironment (env : String → Option String) (s : Settings) : Except Failure Settings := do
  let s ← match env dialectVariable with
    | none => pure s
    | some name => match Dialect.ofName? name with
      | some dialect => pure { s with analysis.dialect := dialect }
      | none => .error (.unknownDialect name)
  match env strictVariable with
  | none => return s
  | some value => match switch? value with
    | some strict => return { s with analysis.strict := strict }
    | none => .error (.invalidSwitch strictVariable value)

end Configuration
end SqlAudit
