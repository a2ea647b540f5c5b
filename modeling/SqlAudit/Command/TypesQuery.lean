import SqlAudit.DataType.Registry
import SqlAudit.Decimal.Binary

/-!
Questions about data types and their answers as text.  A question without an answer gets a line that
says so, and the exit status one.
-/

namespace SqlAudit

/-- What a command prints, and the exit status that it asks for. -/
structure Outcome where
  status : Nat
  output : Text
  deriving DecidableEq, Repr

inductive TypesQuery where
  | resolve (name : String)
  | list (category : Option TypeCategory) (dialect : Option Dialect)
  /-- The types of a dialect that can hold the values of a type. -/
  | compatible (type : String) (dialect : Dialect)
  | infer (values : List String) (dialect : Option Dialect)
  | path (source target : String)
  deriving DecidableEq, Repr

namespace TypesQuery

def found (output : String) : Outcome := ⟨0, output.toList⟩

def notFound (line : String) : Outcome := ⟨1, line.toList ++ ['\n']⟩

/-- Names with commas between them, or a dash if there are none. -/
def joined (names : List String) : String :=
  let line := ", ".intercalate names
  if line.isEmpty then "-" else line

def column (width : Nat) (s : String) : String :=
  s ++ String.ofList (List.replicate (width - s.length) ' ')

def arguments (d : Descriptor) : List String :=
  (if d.acceptsSize then ["size"] else []) ++
  (if d.acceptsPrecision then ["precision, scale"] else [])

def describe (d : Descriptor) : String :=
  String.join
    ([s!"{d.name} ({d.category.label})\n", s!"  aliases:     {joined d.aliases}\n",
      s!"  dialects:    {joined d.dialects}\n"] ++
    (d.conversions.map fun rule => s!"  convert:     {rule.1} -> {rule.2}\n") ++
    [s!"  arguments:   {joined (arguments d)}\n"])

def row (d : Descriptor) : String :=
  s!"{column 18 d.name} {column 10 d.category.label} {joined d.dialects}\n"

def suggestionRow (s : TypeSuggestion) : String :=
  let confidence := String.ofList ((Binary.ofSingle s.confidence).fixed 2)
  s!"{column 18 s.descriptor.name} {confidence}\n"

/-- Lines, or the notice that there are none. -/
def rows (lines : List String) (notice : String) : Outcome :=
  if lines.isEmpty then notFound notice else found (String.join lines)

def answer (registry : Registry) : TypesQuery → Outcome
  | .resolve name =>
    match registry.resolve? name with
    | some d => found (describe d)
    | none => notFound s!"Unknown type '{name}'"
  | .list category dialect =>
    let listed := registry.descriptors.filter fun d =>
      category.all (d.category = ·) && dialect.all fun target => d.supports target.name
    rows (listed.map row) "No types match"
  | .compatible type dialect =>
    rows ((registry.compatible type dialect.name).map row)
      s!"No {dialect.name} type can hold '{type}'"
  | .infer values dialect =>
    rows ((registry.suggest values (dialect.map Dialect.name)).map suggestionRow)
      "No type fits the samples"
  | .path source target =>
    match registry.path? source target with
    | some steps => found (" -> ".intercalate steps ++ "\n")
    | none => notFound s!"No conversion path from '{source}' to '{target}'"

end TypesQuery
end SqlAudit
