import SqlAudit.Review.SchemaCheck

/-!
Indexes worth creating: for columns that statements filter on, and for references.
-/

namespace SqlAudit

structure IndexSuggestion where
  table : String
  columns : List String
  reason : String
  deriving DecidableEq, Repr

namespace IndexSuggestion

/-! ## Filtered columns -/

/-- Whether two findings are about one column, whatever the case of its letters. -/
def sameTarget (a b : Target) : Bool := sameName a.table b.table && sameName a.column b.column

/-- Counts one more finding about a column.  The first one gives the spelling. -/
def countTarget : List (Target × Nat) → Target → List (Target × Nat)
  | [], target => [(target, 1)]
  | (known, count) :: rest, target =>
    if sameTarget known target then (known, count + 1) :: rest
    else (known, count) :: countTarget rest target

/-- The columns that are filtered on without an index, with the number of findings about each. -/
def filteredColumns (findings : List Finding) : List (Target × Nat) :=
  ((findings.filter fun f => f.rule == SchemaCheck.missingIndex.id).filterMap
    Finding.target).foldl countTarget []

/-- Whether a column belongs to the key of its table. -/
def isKey (tables : List Table) (target : Target) : Bool :=
  let key (name : String) : Text := Text.lower name.toList
  -- Of tables with one name the last one counts.
  (tables.reverse.find? fun table => key table.name == key target.table).any fun table =>
    table.isKeyColumn target.column

def ofFiltered (target : Target) (count : Nat) : IndexSuggestion :=
  ⟨target.table, [target.column], s!"Used in {count} predicate(s) without a covering index"⟩

/-! ## References -/

/-- Whether a suggestion is for exactly one column of a table. -/
def covers (s : IndexSuggestion) (table column : String) : Bool :=
  sameName s.table table && s.columns.length == 1 && s.columns.all (sameName · column)

def ofReference (table : Table) (key : ForeignKey) : IndexSuggestion :=
  let target := if key.target.isEmpty then key.table else s!"{key.table}({key.target})"
  ⟨table.name, [key.column], s!"Foreign key to {target} has no supporting index"⟩

/-- Adds a suggestion for a reference whose column exists and has no index, unless there is one. -/
def addReference (found : List IndexSuggestion) (table : Table) (key : ForeignKey) :
    List IndexSuggestion :=
  if (table.column? key.column).isNone || table.hasLeadingIndex key.column ||
      found.any (·.covers table.name key.column) then found
  else found ++ [ofReference table key]

/-- All suggestions: those for filtered columns first, then those for references. -/
def all (tables : List Table) (findings : List Finding) : List IndexSuggestion :=
  let filtered := (filteredColumns findings).filter fun entry => !isKey tables entry.1
  (tables.flatMap fun table => table.foreignKeys.map fun key => (table, key)).foldl
    (fun found entry => addReference found entry.1 entry.2)
    (filtered.map fun entry => ofFiltered entry.1 entry.2)

end IndexSuggestion
end SqlAudit
