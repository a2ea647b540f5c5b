/-!
Documents of nested tables, and how headers and keys build them up.  A table may be declared once, a
key may be set once, and how a table came to be decides what may extend it.
-/

namespace SqlAudit

/-- How a table came to be. -/
inductive TableOrigin where
  /-- It stands on the way to a table that a header declares. -/
  | implied
  /-- It stands on the way to a dotted key. -/
  | dotted
  | declared
  | inline
  deriving DecidableEq, Repr

inductive Toml where
  | text (value : String)
  | integer (value : Int)
  /-- A number with a fraction or an exponent, whose value nothing asks for. -/
  | real
  /-- A text that has the form of a number and no value, or one too large to hold.  It is refused
  where a value is asked for, and not before. -/
  | unreadable
  | truth (value : Bool)
  /-- A date, a time or both, in full. -/
  | moment (written : String)
  | list (items : List Toml)
  /-- Tables that headers declare one by one under one name. -/
  | tables (items : List Toml)
  | table (origin : TableOrigin) (entries : List (String × Toml))

namespace Toml

abbrev Entries := List (String × Toml)

/-- Sets an entry in its place, or adds it at the end. -/
def put (entries : Entries) (key : String) (value : Toml) : Entries :=
  if (entries.lookup key).isSome then
    entries.map fun entry => if entry.1 == key then (key, value) else entry
  else entries ++ [(key, value)]

/-- Changes the table at the end of a path, and makes the tables on the way that are missing. -/
def update (dotted : Bool) (change : TableOrigin → Entries → Option Toml) :
    (path : List String) → TableOrigin → Entries → Option Toml
  | [], origin, entries => change origin entries
  | key :: rest, origin, entries => do
    let child ← match entries.lookup key with
      | none => update dotted change rest (if dotted then .dotted else .implied) []
      | some (.table o es) =>
        -- Nothing leads into an inline table, and no key with dots into a table of a header.
        if o = .inline ∨ (dotted ∧ o = .declared) then none else update dotted change rest o es
      | some (.tables items) =>
        -- Into the last table of a list both kinds of keys lead.
        match items.getLast? with
        | some (.table o es) =>
          (update dotted change rest o es).map fun last => .tables (items.dropLast ++ [last])
        | _ => none
      | some _ => none
    some (.table origin (put entries key child))

/-! ## Changes of one table -/

/-- Sets a key that is not there. -/
def setKey (isDotted : Bool) (key : String) (value : Toml) (origin : TableOrigin)
    (entries : Entries) : Option Toml :=
  -- A table of dotted keys takes dotted keys only, and other tables take the others.
  if (origin = .dotted) ≠ (isDotted = true) ∨ (entries.lookup key).isSome then none
  else some (.table origin (entries ++ [(key, value)]))

/-- Declares a table that is not there, or is only implied. -/
def declare (key : String) (origin : TableOrigin) (entries : Entries) : Option Toml :=
  match entries.lookup key with
  | none => some (.table origin (entries ++ [(key, .table .declared [])]))
  | some (.table .implied inner) => some (.table origin (put entries key (.table .declared inner)))
  | some _ => none

/-- Declares one more table of a list of tables. -/
def declareItem (key : String) (origin : TableOrigin) (entries : Entries) : Option Toml :=
  match entries.lookup key with
  | none => some (.table origin (entries ++ [(key, .tables [.table .declared []])]))
  | some (.tables items) =>
    some (.table origin (put entries key (.tables (items ++ [.table .declared []]))))
  | some _ => none

/-! ## Documents -/

/-- A key with dots: the keys on the way, and the last one. -/
structure KeyPath where
  way : List String
  last : String
  deriving DecidableEq, Repr

def KeyPath.toList (path : KeyPath) : List String := path.way ++ [path.last]

/-- A line of a document. -/
inductive Item where
  | header (path : KeyPath)
  /-- The header of one more table of a list. -/
  | itemHeader (path : KeyPath)
  | entry (path : KeyPath) (value : Toml)

/-- Sets a key with dots in a table. -/
def setPath (path : KeyPath) (value : Toml) (origin : TableOrigin) (entries : Entries) :
    Option Toml :=
  update true (setKey (!path.way.isEmpty) path.last value) path.way origin entries

/-- The inline table of keys and values. -/
def inlineTable? (fields : List (KeyPath × Toml)) : Option Toml := do
  let entries ← fields.foldlM (fun (entries : Entries) field => do
    match ← setPath field.1 field.2 .inline entries with
    | .table _ entries => some entries
    | _ => none) []
  some (.table .inline entries)

/-- A document that is read: the entries, and the path of the header above. -/
structure Draft where
  entries : Entries := []
  header : List String := []

/-- Takes in a line. -/
def Draft.add (d : Draft) (item : Item) : Option Draft := do
  let (root, header) ← match item with
    | .header path => do
      some (← update false (declare path.last) path.way .declared d.entries, path.toList)
    | .itemHeader path => do
      some (← update false (declareItem path.last) path.way .declared d.entries, path.toList)
    | .entry path value => do
      some (← update false (setPath path value) d.header .declared d.entries, d.header)
  match root with
  | .table _ entries => some ⟨entries, header⟩
  | _ => none

def ofItems? (items : List Item) : Option Entries :=
  (items.foldlM Draft.add {}).map Draft.entries

end Toml
end SqlAudit
