import SqlAudit.Proofs.Lexical.Tidy
import SqlAudit.Proofs.Pattern.Phrase
import SqlAudit.Schema.Extraction

/-!
Declarations of tables and indexes: how they are written, and which schema they declare.  The parts
of a declaration carry what makes them readable, so every script that can be built is one that an
extraction should understand.
-/

namespace SqlAudit
namespace Declaration

open Text Pattern

/-- The words that make an item of a table a constraint, whatever follows. -/
def constraintWords : List String := ["CONSTRAINT", "CHECK", "FULLTEXT", "SPATIAL", "EXCLUDE"]

/-- The words that modifiers are made of. -/
def modifierWords : List String :=
  ["NOT", "NULL", "UNIQUE", "PRIMARY", "KEY", "AUTO_INCREMENT", "AUTOINCREMENT", "IDENTITY",
   "DEFAULT", "REFERENCES"]

/-- An identifier that is none of some words, in any case. -/
structure NameBesides (words : List String) extends Identifier where
  besides : ∀ word ∈ words, sameLetters text word.toList = false

/-- Column names, one at least. -/
structure Names where
  head : Identifier
  tail : List Identifier

namespace Names

def toList (names : Names) : List Identifier := names.head :: names.tail

def strings (names : Names) : List String := names.toList.map Identifier.name

def print (names : Names) : Text :=
  '(' :: (listed (names.toList.map Identifier.text) ++ [')'])

end Names

/-! ## Columns -/

/-- The types, with one space between their words. -/
def typeNames : List String := Column.longTypes.map " ".intercalate ++ Column.shortTypes

/-- The numbers that a type may have after it. -/
inductive Arguments where
  | none
  | one (n : UInt32)
  | two (precision scale : UInt32)

namespace Arguments

def digits (n : UInt32) : Text := Nat.toDigits 10 n.toNat

def print : Arguments → Text
  | .none => []
  | .one n => '(' :: (digits n ++ [')'])
  | .two precision scale => '(' :: (digits precision ++ ',' :: ' ' :: (digits scale ++ [')']))

/-- A column with a size or a precision, as its type asks for. -/
def apply (column : Column) : Arguments → Column
  | .none => column
  | .one n =>
    if column.type ∈ Column.precisionTypes then { column with precision := some (n.toNat, 0) }
    else { column with size := some n.toNat }
  | .two precision scale => { column with precision := some (precision.toNat, scale.toNat) }

end Arguments

/-- The value of a default: any text without the word that starts a definition. -/
structure DefaultValue where
  text : Text
  besides : ¬ "create".toList <:+: text.map Char.toLower

/-- The spellings of one modifier. -/
inductive Counting where
  | autoIncrement
  | autoincrement
  | identity

def Counting.word : Counting → String
  | .autoIncrement => "AUTO_INCREMENT"
  | .autoincrement => "AUTOINCREMENT"
  | .identity => "IDENTITY"

inductive Modifier where
  | notNull
  | unique
  | primaryKey
  | counting (spelling : Counting)
  | default (value : DefaultValue)
  | references (table : NameBesides modifierWords) (column : Option (NameBesides modifierWords))

namespace Modifier

/-- The words that a modifier starts with. -/
def words : Modifier → List String
  | .notNull => ["NOT", "NULL"]
  | .unique => ["UNIQUE"]
  | .primaryKey => ["PRIMARY", "KEY"]
  | .counting spelling => [spelling.word]
  | .default _ => ["DEFAULT"]
  | .references _ _ => ["REFERENCES"]

/-- What stands after the words. -/
def operand : Modifier → Text
  | .default value => ' ' :: quoted value.text
  | .references table none => ' ' :: table.text
  | .references table (some column) => ' ' :: (table.text ++ '(' :: (column.text ++ [')']))
  | _ => []

def print (m : Modifier) : Text := joined m.words ++ m.operand

def isNotNull : Modifier → Bool
  | .notNull => true
  | _ => false

def isUnique : Modifier → Bool
  | .unique => true
  | _ => false

def isPrimaryKey : Modifier → Bool
  | .primaryKey => true
  | _ => false

def isCounting : Modifier → Bool
  | .counting _ => true
  | _ => false

def default? : Modifier → Option String
  | .default value => some (String.ofList value.text)
  | _ => none

def reference? : Modifier → Option Reference
  | .references table column => some ⟨table.name, column.map (·.name)⟩
  | _ => none

end Modifier

structure ColumnItem where
  name : NameBesides constraintWords
  type : String
  known : type ∈ typeNames
  arguments : Arguments
  modifiers : List Modifier

namespace ColumnItem

def printModifiers (modifiers : List Modifier) : Text := modifiers.flatMap fun m => ' ' :: m.print

def print (item : ColumnItem) : Text :=
  item.name.text ++ ' ' :: (item.type.toList ++ (item.arguments.print ++
    printModifiers item.modifiers))

/-- The column that the item declares.  The first default and the first reference count. -/
def column (item : ColumnItem) : Column :=
  { item.arguments.apply { name := item.name.name, type := item.type } with
    nullable := !item.modifiers.any fun m => m.isNotNull || m.isPrimaryKey
    isPrimaryKey := item.modifiers.any Modifier.isPrimaryKey
    isUnique := item.modifiers.any Modifier.isUnique
    isAutoIncrement := item.type ∈ Column.serialTypes || item.modifiers.any Modifier.isCounting
    default := item.modifiers.findSome? Modifier.default?
    reference := item.modifiers.findSome? Modifier.reference? }

end ColumnItem

/-! ## Constraints -/

inductive Clause where
  | primaryKey (columns : Names)
  | foreignKey (columns : Names) (table : Identifier) (targets : Option Names)
  | uniqueColumns (columns : Names)
  | key (unique : Bool) (name : Option (NameBesides Column.shortTypes)) (columns : Names)

namespace Clause

def print : Clause → Text
  | .primaryKey columns => joined ["PRIMARY", "KEY"] ++ ' ' :: columns.print
  | .foreignKey columns table targets =>
    joined ["FOREIGN", "KEY"] ++ ' ' :: (columns.print ++ ' ' ::
      (joined ["REFERENCES"] ++ ' ' :: (table.text ++
        (targets.map fun names => ' ' :: names.print).getD [])))
  | .uniqueColumns columns => joined ["UNIQUE"] ++ ' ' :: columns.print
  | .key unique name columns =>
    joined (if unique then ["UNIQUE", "KEY"] else ["KEY"]) ++ ' ' ::
      ((name.map fun x => x.text ++ [' ']).getD [] ++ columns.print)

/-- What the clause adds to its table, under a name. -/
def constraint (label : Option Identifier) : Clause → Constraint
  | .primaryKey columns => .primaryKey columns.strings
  | .foreignKey columns table targets =>
    .foreignKeys (columns.strings.mapIdx fun i column =>
      ⟨column, table.name, ((targets.map Names.strings).getD []).getD i ""⟩)
  | .uniqueColumns columns => .index ⟨(label.map Identifier.name).getD "", columns.strings, true⟩
  | .key unique name columns =>
    .index ⟨((name.map (·.name)).or (label.map Identifier.name)).getD "", columns.strings, unique⟩

end Clause

/-! ## Tables and indexes -/

inductive Item where
  | column (item : ColumnItem)
  | constraint (label : Option Identifier) (clause : Clause)

namespace Item

def print : Item → Text
  | .column item => item.print
  | .constraint none clause => clause.print
  | .constraint (some label) clause =>
    joined ["CONSTRAINT"] ++ ' ' :: (label.text ++ ' ' :: clause.print)

def column? : Item → Option Column
  | .column item => some item.column
  | .constraint _ _ => none

def primaryKey? : Item → Option (List String)
  | .column item => if item.column.isPrimaryKey then some [item.column.name] else none
  | .constraint _ (.primaryKey columns) => some columns.strings
  | .constraint _ _ => none

/-- The references that an item declares; a target that is left open is empty. -/
def foreignKeys : Item → List ForeignKey
  | .column item => item.column.reference.toList.map fun reference =>
    ⟨item.column.name, reference.table, reference.column.getD ""⟩
  | .constraint _ (.foreignKey columns table targets) =>
    columns.strings.mapIdx fun i column =>
      ⟨column, table.name, ((targets.map Names.strings).getD []).getD i ""⟩
  | .constraint _ _ => []

def index? : Item → Option Index
  | .constraint label (.uniqueColumns columns) =>
    some ⟨(label.map Identifier.name).getD "", columns.strings, true⟩
  | .constraint label (.key unique name columns) =>
    some ⟨((name.map (·.name)).or (label.map Identifier.name)).getD "", columns.strings, unique⟩
  | _ => none

end Item

structure TableItem where
  name : Identifier
  items : List Item

namespace TableItem

def print (table : TableItem) : Text :=
  joined ["CREATE", "TABLE"] ++ ' ' :: (table.name.text ++ ' ' :: '(' ::
    (listed (table.items.map Item.print) ++ [')', ';', '\n']))

/-- The key of the table: the last declaration counts. -/
def primaryKey (table : TableItem) : Option (List String) :=
  (table.items.filterMap Item.primaryKey?).getLast?

end TableItem

structure IndexItem where
  unique : Bool
  name : Identifier
  table : Identifier
  columns : Names

namespace IndexItem

def print (index : IndexItem) : Text :=
  joined (if index.unique then ["CREATE", "UNIQUE", "INDEX"] else ["CREATE", "INDEX"]) ++ ' ' ::
    (index.name.text ++ ' ' :: (joined ["ON"] ++ ' ' ::
      (index.table.text ++ ' ' :: (index.columns.print ++ [';', '\n']))))

def index (index : IndexItem) : Index := ⟨index.name.name, index.columns.strings, index.unique⟩

end IndexItem

structure Script where
  tables : List TableItem
  indexes : List IndexItem

namespace Script

variable (script : Script)

def print : Text :=
  script.tables.flatMap TableItem.print ++ script.indexes.flatMap IndexItem.print

/-- The place of the first table of a name. -/
def place? (name : String) : Option Nat :=
  script.tables.findIdx? fun table => sameName table.name.name name

def soleKey? (name : String) : Option String :=
  match (script.tables.find? fun table => sameName table.name.name name).bind
    TableItem.primaryKey with
  | some [column] => some column
  | _ => none

/-- A reference that leaves its target open takes the key of the table that it refers to. -/
def complete (key : ForeignKey) : ForeignKey :=
  if key.target = "" then { key with target := (script.soleKey? key.table).getD "" } else key

def schema : List Table :=
  script.tables.mapIdx fun place table =>
    { name := table.name.name
      columns := table.items.filterMap Item.column?
      primaryKey := table.primaryKey
      foreignKeys := (table.items.flatMap Item.foreignKeys).map script.complete
      indexes := table.items.filterMap Item.index? ++
        (script.indexes.filter fun index => script.place? index.table.name = some place).map
          IndexItem.index
      line := 1 + ((script.tables.take place).flatMap TableItem.print).count '\n' }

end Script
end Declaration
end SqlAudit
