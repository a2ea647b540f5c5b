import SqlAudit.Command.Run

/-!
The command line.  Everything that a run can read is read first; the run itself is a function.
-/

namespace SqlAudit

/-- The reason why a file cannot be read. -/
def ReadFailure.ofError : IO.Error → ReadFailure
  | .noFileOrDirectory .. => .missing
  | .inappropriateType .. => .isDirectory
  | e => .other (toString e)

def readFile (path : String) : IO (Except ReadFailure (List UInt8)) := do
  try
    return .ok (← IO.FS.readBinFile path).toList
  catch e => return .error (ReadFailure.ofError e)

def variableNames : List String :=
  ["HOME", "CLICOLOR", "CLICOLOR_FORCE", "NO_COLOR", Surroundings.configVariable,
   Configuration.dialectVariable, Configuration.strictVariable]

/-- The files and the configuration that a command line asks for. -/
def pathsOf (s : Surroundings) (args : List String) : List String :=
  match Invocation.parse args with
  | .ok ⟨.review request, _, config⟩ =>
    request.files ++ s.configPaths ++ config.toList ++
      (s.environment Surroundings.configVariable).toList
  | _ => []

partial def readAll (stream : IO.FS.Stream) (read : ByteArray) : IO ByteArray := do
  let chunk ← stream.read 65536
  if chunk.isEmpty then return read else readAll stream (read ++ chunk)

/-- What surrounds a run with a command line. -/
def surroundings (args : List String) : IO Surroundings := do
  let env ← variableNames.mapM fun name => return (name, ← IO.getEnv name)
  let environment (name : String) : Option String := (env.lookup name).join
  let terminal ← (← IO.getStdout).isTty
  let bare : Surroundings := { read := fun _ => .error .missing, environment, terminal }
  let paths := pathsOf bare args
  let files ← (paths.filter (· != Surroundings.inputPath)).mapM fun path =>
    return (path, ← readFile path)
  let input ← if paths.contains Surroundings.inputPath then
      pure (← readAll (← IO.getStdin) .empty).toList
    else pure []
  return { bare with read := fun path => (files.lookup path).getD (.error .missing), input }

/-- Runs a command line, and prints what comes of it. -/
def start (args : List String) : IO UInt32 := do
  let ending := (← surroundings args).run args
  IO.print (String.ofList ending.output)
  (← IO.getStdout).flush
  for line in ending.errorLine do
    IO.eprintln line
  return ending.status.toUInt32

end SqlAudit

def main (args : List String) : IO UInt32 := SqlAudit.start args
