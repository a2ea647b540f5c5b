import SqlAudit.Text.Basic

/-!
What stops a run.  Text is never refused for being bad SQL; a run fails only on input that is no text,
on files that cannot be read and on a broken configuration.
-/

namespace SqlAudit

/-- Why a file cannot be read. -/
inductive ReadFailure where
  | missing
  | isDirectory
  | notDirectory
  /-- A path, or a name in it, is longer than a file system takes. -/
  | nameTooLong
  | zeroByte
  /-- Any other reason, in the words of the system. -/
  | other (reason : String)
  deriving DecidableEq, Repr

namespace ReadFailure

def message : ReadFailure → String
  | .missing => "No such file or directory (os error 2)"
  | .isDirectory => "Is a directory (os error 21)"
  | .notDirectory => "Not a directory (os error 20)"
  | .nameTooLong => "File name too long (os error 36)"
  | .zeroByte => "file name contained an unexpected NUL byte"
  | .other reason => reason

end ReadFailure

inductive Failure where
  | unreadable (path : String) (cause : ReadFailure)
  | tooLarge (source : String) (size limit : Nat)
  | binary (source : String) (offset : Nat)
  | unreadableConfig (cause : ReadFailure)
  /-- A configuration file is no text. -/
  | undecodableConfig
  /-- A configuration is malformed or has a value of the wrong kind. -/
  | invalidConfig
  /-- A configuration file names no dialect. -/
  | invalidConfigDialect (name : String)
  | unknownDialect (name : String)
  /-- A switch in the environment is neither on nor off. -/
  | invalidSwitch (name value : String)
  deriving DecidableEq, Repr

namespace Failure

def dialectFault (name : String) : String :=
  String.ofList ((Text.lines s!"unknown SQL dialect '{name}'".toList).headD [])

def message : Failure → String
  | .unreadable path cause => s!"Failed to read file '{path}': {cause.message}"
  | .tooLarge source size limit =>
    s!"Input '{source}' is {size} bytes, exceeding the limit of {limit} bytes"
  | .binary source offset =>
    let origin := if source.isEmpty then "" else s!" ({source})"
    s!"Binary input rejected{origin}:\n  NUL byte at offset {offset}"
  | .unreadableConfig cause => s!"Failed to read config file: {cause.message}"
  | .undecodableConfig => "Failed to read config file: stream did not contain valid UTF-8"
  | .invalidConfig => "Invalid config file"
  | .invalidConfigDialect name => s!"Invalid config file: {dialectFault name}"
  | .unknownDialect name =>
    s!"Unknown SQL dialect '{name}' (expected one of: generic, mysql, postgresql, sqlite, " ++
      "sqlserver, oracle)"
  | .invalidSwitch name value => s!"{name} must be a boolean, got '{value}'"

/-- Whether the one who asked can mend the cause; a file that cannot be read is not of that kind. -/
def isRequestFault : Failure → Bool
  | .unreadable .. => false
  | _ => true

/-- What the command line shows. -/
def label (f : Failure) : String :=
  if f.isRequestFault then "Bad request" else "Internal server error"

end Failure
end SqlAudit
