import SqlAudit.Lexical.Enclosed
import SqlAudit.Lexical.Mask
import SqlAudit.Schema.Name
import SqlAudit.Text.Letter
import SqlAudit.Text.Numeral
import SqlAudit.Text.UpperCase

/-!
Column definitions.  A fragment is one item of the list in a table definition; it either defines a
column, or the reason why it does not is given.
-/

namespace SqlAudit

/-- The table, and possibly the column, that a column refers to. -/
structure Reference where
  table : String
  column : Option String
  deriving DecidableEq, Repr

structure Column where
  name : String
  /-- The type keyword in upper case, with one space between its words. -/
  type : String
  /-- The single argument of the type. -/
  size : Option Nat := none
  precision : Option (Nat × Nat) := none
  nullable : Bool := true
  isPrimaryKey : Bool := false
  isUnique : Bool := false
  isAutoIncrement : Bool := false
  /-- The default value, without the quotes of a literal. -/
  default : Option String := none
  reference : Option Reference := none
  deriving DecidableEq, Repr

/-- Why a fragment defines no column. -/
inductive ColumnIssue where
  | empty
  /-- The fragment is a constraint of the table. -/
  | constraint
  /-- A name is there, but no known type after it. -/
  | unknownType (column : String) (found : Option String)
  deriving DecidableEq, Repr

namespace ColumnIssue

def message : ColumnIssue → String
  | .empty => "empty column definition"
  | .constraint => "table-level constraint"
  | .unknownType column (some found) => s!"column '{column}' has unrecognized type '{found}'"
  | .unknownType column none => s!"column '{column}' has no data type"

end ColumnIssue

namespace Column

/-! ## Types -/

/-- Types of several words.  They are tried before the types of one word, because one may start
with another. -/
def longTypes : List (List String) :=
  [["TIMESTAMP", "WITHOUT", "TIME", "ZONE"], ["TIMESTAMP", "WITH", "TIME", "ZONE"],
   ["TIME", "WITHOUT", "TIME", "ZONE"], ["TIME", "WITH", "TIME", "ZONE"],
   ["NATIONAL", "CHARACTER", "VARYING"], ["CHARACTER", "VARYING"], ["DOUBLE", "PRECISION"],
   ["BIT", "VARYING"], ["LONG", "RAW"]]

def shortTypes : List String :=
  ["BIGINT", "INTEGER", "INT", "INT2", "INT4", "INT8", "SMALLINT", "TINYINT", "MEDIUMINT",
   "BIGSERIAL", "SMALLSERIAL", "SERIAL", "DECIMAL", "NUMERIC", "NUMBER", "DEC", "FLOAT", "FLOAT4",
   "FLOAT8", "DOUBLE", "REAL", "SMALLMONEY", "MONEY", "BOOLEAN", "BOOL", "BIT", "NVARCHAR2",
   "VARCHAR2", "NVARCHAR", "VARCHAR", "NCHAR", "CHARACTER", "CHAR", "TINYTEXT", "MEDIUMTEXT",
   "LONGTEXT", "NTEXT", "TEXT", "CITEXT", "NCLOB", "CLOB", "DATETIMEOFFSET", "SMALLDATETIME",
   "DATETIME2", "DATETIME", "TIMESTAMPTZ", "TIMESTAMP", "TIMETZ", "TIME", "DATE", "YEAR",
   "INTERVAL", "TINYBLOB", "MEDIUMBLOB", "LONGBLOB", "BLOB", "VARBINARY", "BINARY", "BYTEA", "RAW",
   "IMAGE", "JSONB", "JSON", "XML", "UNIQUEIDENTIFIER", "UUID", "INET", "CIDR", "MACADDR8",
   "MACADDR", "GEOGRAPHY", "GEOMETRY", "LINESTRING", "POLYGON", "POINT", "ENUM", "SET", "HSTORE",
   "TSVECTOR", "ROWID"]

/-- Types whose single argument is a precision. -/
def precisionTypes : List String := ["DECIMAL", "NUMERIC", "NUMBER", "DEC"]

/-- Types whose values are counted up by the database. -/
def serialTypes : List String := ["SERIAL", "BIGSERIAL", "SMALLSERIAL"]

open Pattern

def typePattern : Pattern :=
  all [start, any (longTypes.map phrase ++ shortTypes.map word), edge]

/-- A column name: a quoted name, else characters up to a blank, a comma or a parenthesis. -/
def namePattern : Pattern :=
  all [start, any
    [all [sign '\x60', capture .name (many1 (· != '\x60')), sign '\x60'],
     all [sign '\x22', capture .name (many1 (· != '\x22')), sign '\x22'],
     all [sign '[', capture .name (many1 (· != ']')), sign ']'],
     capture .name (many1 fun c => !Text.isBlank c && noneOf "()," c)]]

def argumentsPattern : Pattern :=
  all [start, space, sign '(', capture .arguments (many (noneOf "()")), sign ')']

/-! ## Modifiers -/

def notNullPattern : Pattern := all [edge, "NOT", gap, "NULL", edge]

def uniquePattern : Pattern := keyword "UNIQUE"

def primaryKeyPattern : Pattern := all [edge, "PRIMARY", gap, "KEY", edge]

def autoIncrementPattern : Pattern :=
  all [edge, oneWordOf ["AUTO_INCREMENT", "AUTOINCREMENT", "IDENTITY"], edge]

def defaultPattern : Pattern := all [edge, "DEFAULT", gap]

def referencesPattern : Pattern :=
  all [edge, "REFERENCES", gap, capture .table dottedName, space,
    opt (all [sign '(', space, capture .column (few (· != ')')), space, sign ')'])]

/-! ## Table constraints -/

/-- Whether a text starts with a list of column names in parentheses, rather than with the
arguments of a type such as a size, a keyword `MAX` or literals. -/
def opensColumnList (t : Text) : Bool :=
  match t.trimStart with
  | '(' :: rest =>
    (Text.pieces (· == ',') (rest.takeWhile (· != ')'))).any fun item =>
      let item := Text.trim item
      item.head?.any (fun c =>
        Text.isLetter c || c == '_' || c == '\x60' || c == '\x22' || c == '[') &&
      !Text.sameLetters item "max".toList
  | _ => false

/-- Whether a fragment is a constraint of its table. -/
def isConstraint (fragment : Text) : Bool :=
  let body := fragment.trimStart
  let words := Text.words body
  let first := (words.headD []).takeWhile (· != '(')
  let is (keyword : String) : Bool := first.map Char.toUpper == keyword.toList
  if is "CONSTRAINT" || is "CHECK" || is "FULLTEXT" || is "SPATIAL" || is "EXCLUDE" then true
  else if is "PRIMARY" || is "FOREIGN" then
    (words[1]?).any fun second => "KEY".toList.isPrefixOf (second.map Char.toUpper)
  else if is "KEY" || is "INDEX" || is "UNIQUE" then
    -- These may also name a column.  They start a constraint if no type follows, or if the type
    -- keyword that follows is the name of an index with its column list.
    match typePattern.find? (Text.trimStart (body.drop first.length)) with
    | some m => opensColumnList m.stop.after
    | none => true
  else false

/-! ## Reading a column -/

/-- The contents of a literal whose opening quote is read: up to the closing quote or the end, with
each doubled quote as one. -/
def literal (quote : Char) : Text → Text
  | [] => []
  | [c] => if c = quote then [] else [c]
  | c :: d :: rest =>
    if c = quote then
      if d = quote then quote :: literal quote rest else []
    else c :: literal quote (d :: rest)

/-- The value after `DEFAULT`: a literal, an expression in parentheses, or a word with the arguments
of a call. -/
def defaultValue? (t : Text) : Option Text :=
  match t.trimStart with
  | [] => none
  | c :: rest =>
    if c = '\x27' ∨ c = '\x22' then some (literal c rest)
    else if c = '(' then (Text.enclosed? rest).map fun inner => '(' :: inner ++ [')']
    else
      let stops (c : Char) : Bool := Text.isBlank c || c == ',' || c == '('
      let token := (c :: rest).takeWhile (!stops ·)
      let value := match (c :: rest).dropWhile (!stops ·) with
        | '(' :: call =>
          match Text.enclosed? call with
          | some inner => token ++ '(' :: inner ++ [')']
          -- A call that is never closed leaves the word alone.
          | none => token
        | _ => token
      if value.isEmpty then none else some value

/-- The size or the precision that the arguments of a type give. -/
def withArguments (column : Column) (arguments : Text) : Column :=
  match (Text.pieces (· == ',') arguments).map fun item => Text.unsigned? 4294967295 (Text.trim item) with
  | [some precision, some scale] => { column with precision := some (precision, scale) }
  | [some n] =>
    if precisionTypes.contains column.type then { column with precision := some (n, 0) }
    else { column with size := some n }
  -- A length that is no number, or a list of values.
  | _ => column

/-- Sets what the modifiers say, in whatever order they stand. -/
def withModifiers (column : Column) (tail : Text) : Column :=
  -- With literals blanked, the text of a default value is no modifier.
  let masked := tail.mask
  let isKey := primaryKeyPattern.occursIn masked
  { column with
    nullable := column.nullable && !notNullPattern.occursIn masked && !isKey
    isPrimaryKey := isKey
    isUnique := uniquePattern.occursIn masked
    isAutoIncrement := column.isAutoIncrement || autoIncrementPattern.occursIn masked
    -- The mask keeps all offsets, so the value is read where it stands in the text itself.
    default := (defaultPattern.find? masked).bind fun m =>
      (defaultValue? (tail.dropBytes m.stop.offset)).map String.ofList
    reference := (referencesPattern.find? masked).map fun m =>
      { table := Text.bareName (m.textOf .table)
        column := ((m.textOf? .column).map Text.bareName).filter (!·.isEmpty) } }

def parse (fragment : Text) : Except ColumnIssue Column :=
  let fragment := fragment.trim
  if fragment.isEmpty then .error .empty
  else if isConstraint fragment then .error .constraint
  else match namePattern.find? fragment with
    | none => .error .empty
    | some nameMatch =>
      let name := String.ofList (nameMatch.textOf .name)
      let rest := Text.trimStart nameMatch.stop.after
      match typePattern.find? rest with
      | none =>
        let found := (Text.pieces (fun c => Text.isBlank c || c == '(') rest).find? (!·.isEmpty)
        .error (.unknownType name (found.map String.ofList))
      | some typeMatch =>
        let type := String.ofList (Text.upper typeMatch.text.squeeze)
        let column : Column := { name, type, isAutoIncrement := serialTypes.contains type }
        match argumentsPattern.find? typeMatch.stop.after with
        | some m => .ok ((column.withArguments (m.textOf .arguments)).withModifiers m.stop.after)
        | none => .ok (column.withModifiers typeMatch.stop.after)

end Column
end SqlAudit
