import SqlAudit.Lexical.Comment
import SqlAudit.Schema.Constraint

/-!
Tables recovered from a document.  Definitions are found by their opening words, and their lists are
read without a grammar, so malformed ones give fewer tables or skipped fragments and never an error.
-/

namespace SqlAudit

/-- A fragment of a table definition that could not be read as a column. -/
structure SkippedFragment where
  table : String
  line : Nat
  fragment : String
  issue : ColumnIssue
  deriving DecidableEq, Repr

structure Extraction where
  tables : List Table := []
  skipped : List SkippedFragment := []
  deriving DecidableEq, Repr

namespace Extraction

open Pattern

def createTablePattern : Pattern :=
  all [edge, "CREATE", gap, opt (all ["OR", gap, "REPLACE", gap]),
    opt (seq (oneWordOf ["GLOBAL", "LOCAL"]) gap),
    opt (any [all ["TEMP", opt "ORARY", gap], seq "UNLOGGED" gap]),
    "TABLE", gap, opt (all ["IF", gap, "NOT", gap, "EXISTS", gap]),
    capture .table spacedName, space, sign '(']

def createIndexPattern : Pattern :=
  all [edge, "CREATE", gap, opt (capture .unique (seq "UNIQUE" gap)),
    opt (all [opt "NON", "CLUSTERED", gap]), "INDEX", gap, opt (seq "CONCURRENTLY" gap),
    opt (all ["IF", gap, "NOT", gap, "EXISTS", gap]), capture .index name, gap, "ON", gap,
    opt (seq "ONLY" gap), capture .table spacedName, space,
    opt (all ["USING", gap, many1 Text.isWordChar, space]), sign '(']

/-! ## Fragments -/

/-- The fragments of a list with the byte offset of each in the document, where `rest` is what is
left of the list from `offset` on. -/
def locate : (offset : Nat) → (rest : Text) → List Text → List (Text × Option Nat)
  | _, _, [] => []
  | offset, rest, fragment :: more =>
    if fragment.isEmpty then (fragment, none) :: locate offset rest more
    else match Text.splitOnce? fragment rest with
      -- The search goes on behind the fragment, so that a repeated one is found where it stands.
      | some (front, left) =>
        (fragment, some (offset + Text.size front)) ::
          locate (offset + Text.size front + fragment.size) left more
      | none => (fragment, none) :: locate offset rest more

/-- Adds what a fragment says to the table that is being built, or to the skipped fragments. -/
def addFragment (document : Text) (built : Table × List SkippedFragment)
    (fragment : Text × Option Nat) : Table × List SkippedFragment :=
  let (table, skipped) := built
  match Column.parse fragment.1 with
  | .ok column => (table.withColumn column, skipped)
  | .error .constraint =>
    match Constraint.read? fragment.1 with
    | some constraint => (table.withConstraint constraint, skipped)
    -- A check, for example, adds nothing and is not reported.
    | none => built
  | .error issue =>
    let line := (fragment.2.map document.lineAt).getD table.line
    (table, skipped ++ [⟨table.name, line, String.ofList fragment.1, issue⟩])

/-- The table of a definition whose list has the text `body` and starts at a byte offset. -/
def buildTable (document : Text) (name : String) (line start : Nat) (body : Text) :
    Table × List SkippedFragment :=
  (locate start body (body.segments ',')).foldl (addFragment document) ({ name, line }, [])

/-- Adds the table of a matched definition; a list that never closes gives none. -/
def addTable (document : Text) (found : Extraction) (m : Match) : Extraction :=
  match Text.enclosed? m.stop.after with
  | none => found
  | some body =>
    let (table, skipped) := buildTable document (Text.bareName (m.textOf .table))
      (document.lineAt m.start.offset) m.stop.offset body
    { tables := found.tables ++ [table], skipped := found.skipped ++ skipped }

/-! ## Indexes and references -/

def modifyFirst {α : Type} (test : α → Bool) (change : α → α) : List α → List α
  | [] => []
  | a :: rest => if test a then change a :: rest else a :: modifyFirst test change rest

/-- Adds the index of a matched definition to the first table of its name. -/
def addIndex (tables : List Table) (m : Match) : List Table :=
  let owner := Text.bareName (m.textOf .table)
  match Text.enclosed? m.stop.after with
  | none => tables
  | some list =>
    let columns := Text.columnNames list
    if columns.isEmpty then tables
    else
      let index : Index := ⟨Text.bareName (m.textOf .index), columns, (m.part? .unique).isSome⟩
      modifyFirst (fun table => sameName table.name owner)
        (fun table => { table with indexes := table.indexes ++ [index] }) tables

/-- The column of a key of one column. -/
def soleKey? (table : Table) : Option String :=
  match table.primaryKey with
  | some [column] => some column
  | _ => none

/-- Fills the target column of a reference that does not name one, if the key of the first table of
that name has one column. -/
def resolveKey (tables : List Table) (key : ForeignKey) : ForeignKey :=
  if key.target.isEmpty then
    { key with target := ((findTable? tables key.table).bind soleKey?).getD "" }
  else key

/-- Fills the target columns that the references of all tables leave open. -/
def resolveReferences (tables : List Table) : List Table :=
  tables.map fun table =>
    { table with foreignKeys := table.foreignKeys.map (resolveKey tables) }

def ofText (sql : Text) : Extraction :=
  -- Whatever the dialect, a number sign opens a comment only where a line starts.
  let document := sql.blankComments false
  let found := (createTablePattern.findAll document).foldl (addTable document) {}
  let indexed := (createIndexPattern.findAll document).foldl addIndex found.tables
  { found with tables := resolveReferences indexed }

end Extraction
end SqlAudit
