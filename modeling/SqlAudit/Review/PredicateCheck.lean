import SqlAudit.Lexical.Mask
import SqlAudit.Lexical.Statement
import SqlAudit.Review.SchemaCheck

/-!
Columns that statements filter on without an index that starts with them.
-/

namespace SqlAudit
namespace PredicateCheck

open Pattern

def queryPattern : Pattern :=
  all [start, space, oneWordOf ["WITH", "SELECT", "UPDATE", "DELETE"], edge]

/-- A table in a statement, with the word after it that may be its alias. -/
def tablePattern : Pattern :=
  all [edge, oneWordOf ["FROM", "JOIN", "UPDATE"], gap, capture .table dottedName,
    opt (all [gap, opt (seq "AS" gap), capture .label plainWord])]

def predicatePattern : Pattern := all [edge, oneWordOf ["WHERE", "ON"], edge]

/-- A comparison of a column with a column or something else. -/
def comparisonPattern : Pattern :=
  all [opt (all [edge, capture .qualifier plainWord, sign '.']), edge, capture .column plainWord,
    space, any (["=", "<>", "!=", "<=", ">=", "<", ">"].map text), space,
    opt (seq (capture .otherQualifier plainWord) (sign '.')), opt (capture .otherColumn plainWord)]

def membershipPattern : Pattern :=
  all [opt (all [edge, capture .qualifier plainWord, sign '.']), edge, capture .column plainWord,
    gap, opt (seq "NOT" gap), oneWordOf ["IN", "LIKE", "BETWEEN", "IS"], edge]

/-- Keywords that follow a table and are no alias of it. -/
def notAliases : List String :=
  ["WHERE", "ON", "JOIN", "INNER", "LEFT", "RIGHT", "FULL", "CROSS", "OUTER", "SET", "GROUP",
   "ORDER", "LIMIT", "USING", "NATURAL", "UNION", "HAVING", "OFFSET"]

/-! ## Tables of a statement -/

/-- A table that a statement names, and its alias there. -/
structure TableUse where
  table : Table
  label : Option String

/-- The declared table of a match, if it is one. -/
def tableUse? (tables : List Table) (m : Match) : Option TableUse :=
  (findTable? tables (Text.bareName (m.textOf .table))).map fun table =>
    ⟨table, ((m.textOf? .label).map String.ofList).filter fun label =>
      !notAliases.any (sameName · label)⟩

/-- The tables named after a position, `count` matches at most. -/
def tableUsesFrom (tables : List Table) : (count : Nat) → Cursor → List TableUse
  | 0, _ => []
  | count + 1, c =>
    match tablePattern.findFrom? c with
    | none => []
    | some m =>
      -- The search goes on right after the table name, so that a keyword which was taken for an
      -- alias can start the next match.
      (tableUse? tables m).toList ++
        tableUsesFrom tables count ((m.part? .table).elim m.stop Capture.stop)

/-- The declared tables that a statement names, in order. -/
def tableUses (tables : List Table) (statement : Text) : List TableUse :=
  tableUsesFrom tables statement.length (Cursor.first statement)

/-- The table that a column belongs to: the one that its qualifier names, or the first that has
such a column. -/
def owner? (uses : List TableUse) (qualifier : Option String) (column : String) : Option Table :=
  match qualifier with
  | some q =>
    ((uses.find? fun u => u.label.any (sameName · q) || sameName u.table.name q).map
      TableUse.table).filter fun table => (table.column? column).isSome
  | none => (uses.map TableUse.table).find? fun table => (table.column? column).isSome

/-! ## Columns of predicates -/

/-- A column in a predicate, with the byte offset where it stands. -/
structure ColumnUse where
  offset : Nat
  qualifier : Option String
  column : String

/-- The column that a match captured as `use`, qualified by what it captured as `owner`. -/
def columnUse? (m : Match) (owner use : Part) : Option ColumnUse :=
  (m.part? use).map fun c =>
    ⟨c.start.offset, (m.textOf? owner).map String.ofList, String.ofList c.text⟩

/-- The columns that are compared or tested in predicates, in the order of the text. -/
def columnUses (predicates : Text) : List ColumnUse :=
  ((comparisonPattern.findAll predicates).flatMap (fun m =>
      (columnUse? m .qualifier .column).toList ++
      (columnUse? m .otherQualifier .otherColumn).toList) ++
    (membershipPattern.findAll predicates).flatMap (fun m =>
      (columnUse? m .qualifier .column).toList)).mergeSort fun a b => a.offset ≤ b.offset

/-! ## Findings -/

def finding (source : Text) (line : Nat) (table : Table) (column : String) : Finding :=
  -- The name of an index has no dots.
  let owner := String.ofList (table.name.toList.map fun c => if c = '.' then '_' else c)
  { SchemaCheck.missingIndex.finding line (source.line line)
      s!"Column '{table.name}.{column}' is filtered on but not indexed" with
    suggestion := some
      (s!"CREATE INDEX idx_{owner}_{column} ON {table.name} ({column})")
    confidence := hundredths 70
    target := some ⟨table.name, column⟩ }

/-- What tells two reported columns apart. -/
def reportKey (table : Table) (column : String) : Text × Text :=
  (Text.lower table.name.toList, Text.lower column.toList)

/-- The findings of columns in order, where those of `reported` have been found before; `place` gives
the line of an offset. -/
def findingsFrom (source : Text) (place : Nat → Nat) (uses : List TableUse) :
    (reported : List (Text × Text)) → List ColumnUse → List Finding
  | _, [] => []
  | reported, use :: rest =>
    match owner? uses use.qualifier use.column with
    | none => findingsFrom source place uses reported rest
    | some table =>
      let key := reportKey table use.column
      if table.hasLeadingIndex use.column || reported.contains key then
        findingsFrom source place uses reported rest
      else
        let column := (table.column? use.column).elim use.column Column.name
        finding source (place use.offset) table column ::
          findingsFrom source place uses (key :: reported) rest

def check (document source : Text) (tables : List Table) (statement : Statement) : List Finding :=
  if !queryPattern.occursIn statement.text then []
  else
    let masked := statement.text.mask
    match predicatePattern.find? masked with
    | none => []
    | some m =>
      -- Columns are looked for from the first predicate on, and their offsets count from there.
      findingsFrom source (fun offset =>
          document.lineAt (statement.offset + m.start.offset + offset))
        (tableUses tables masked) [] (columnUses m.start.after)

/-- The findings of a document without comments. -/
def checkAll (document source : Text) (tables : List Table) : List Finding :=
  if tables.isEmpty then [] else document.statements.flatMap (check document source tables)

end PredicateCheck
end SqlAudit
