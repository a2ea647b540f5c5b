import SqlAudit.Proofs.Schema.DefinitionReading
import SqlAudit.Proofs.Schema.FragmentAccounting

/-!
Extraction undoes printing: the tables that a script declares are the tables that are found in its
text.  The search for tables stops at each of them and passes over what lies between, the items of a
table add what they say to it one after the other, and then the indexes and the references are
settled among all tables.
-/

namespace SqlAudit

open Text Pattern Declaration

namespace Pattern

variable {p : Pattern} {t rest : Text}

/-- A search goes on behind a text that it passes over. -/
theorem findUpTo_of_passes (h : p.Passes t rest) (count : Nat) (before : Text) :
    p.findUpTo count ⟨before, t ++ rest⟩ = p.findUpTo count ⟨t.reverse ++ before, rest⟩ :=
  findUpTo_of_skips (h before) count

end Pattern

namespace Declaration

/-! ## Items -/

namespace Item

theorem column?_print (item : Item) : Fragment.column? item.print = item.column? := by
  cases item with
  | column item =>
    show (Column.parse item.print).toOption = _
    rw [item.parse_print]
    rfl
  | constraint label clause =>
    rw [Fragment.column?, parse_print]
    rfl

theorem issue?_print (item : Item) : Fragment.issue? item.print = none := by
  cases item with
  | column item => simp only [Fragment.issue?, print, item.parse_print]
  | constraint label clause => simp only [Fragment.issue?, parse_print]

theorem key?_print (item : Item) : Fragment.key? item.print = item.primaryKey? := by
  cases item with
  | column item => simp only [Fragment.key?, print, item.parse_print, primaryKey?]
  | constraint label clause =>
    simp only [Fragment.key?, parse_print, ← Constraint.key?_read?, read?_print]
    cases clause <;> rfl

theorem references_print (item : Item) : Fragment.references item.print = item.foreignKeys := by
  cases item with
  | column item => simp only [Fragment.references, print, item.parse_print, foreignKeys]
  | constraint label clause =>
    simp only [Fragment.references, parse_print, ← Constraint.references_read?, read?_print]
    cases clause <;> rfl

theorem index?_print (item : Item) : Fragment.index? item.print = item.index? := by
  cases item with
  | column item => simp only [Fragment.index?, print, item.parse_print, index?]
  | constraint label clause =>
    simp only [Fragment.index?, parse_print, read?_print]
    cases clause <;> rfl

end Item

/-! ## Tables -/

namespace TableItem

/-- The table of a definition on a line, before the other definitions are looked at. -/
def declared (table : TableItem) (line : Nat) : Table :=
  { name := table.name.name
    columns := table.items.filterMap Item.column?
    primaryKey := table.primaryKey
    foreignKeys := table.items.flatMap Item.foreignKeys
    indexes := table.items.filterMap Item.index?
    line }

variable (table : TableItem)

def body : Text := listed (table.items.map Item.print)

theorem print_ne_nil : table.print ≠ [] := by simp [print]

theorem stops_reverse_print : Stops isWordChar table.print.reverse := by
  simp [print]
  decide

theorem tidy_body : Tidy true table.body := by
  apply Tidy.listed
  intro text htext
  obtain ⟨item, -, rfl⟩ := List.mem_map.mp htext
  exact item.tidy_print.with_commas

theorem buildTable_body (document : Text) (line start : Nat) :
    Extraction.buildTable document table.name.name line start table.body =
      (table.declared line, []) := by
  have hsegments : segments table.body ',' = table.items.map Item.print := by
    apply segments_listed
    intro text htext
    obtain ⟨item, -, rfl⟩ := List.mem_map.mp htext
    exact ⟨item.tidy_print, item.trimmed_print⟩
  have hskipped : ∀ fragment ∈ Extraction.locate start table.body (table.items.map Item.print),
      Fragment.skipped? document table.name.name line fragment = none := by
    intro fragment hfragment
    have hmem := List.mem_map_of_mem (f := Prod.fst) hfragment
    rw [Extraction.map_fst_locate] at hmem
    obtain ⟨item, -, hitem⟩ := List.mem_map.mp hmem
    rw [Fragment.skipped?, ← hitem, item.issue?_print]
    rfl
  rw [Extraction.buildTable_eq, hsegments, List.filterMap_eq_nil_iff.mpr hskipped]
  simp only [List.filterMap_map, List.flatMap_map, Function.comp_def, Item.column?_print,
    Item.key?_print, Item.references_print, Item.index?_print]
  rfl

theorem addTable_eq {m : Match} {rest : Text} (hname : m.textOf .table = table.name.text)
    (hstop : m.stop.after = table.body ++ [')', ';', '\n'] ++ rest) (document : Text)
    (found : Extraction) :
    Extraction.addTable document found m =
      { tables := found.tables ++ [table.declared (document.lineAt m.start.offset)]
        skipped := found.skipped } := by
  have henclosed : enclosed? m.stop.after = some table.body := by
    rw [hstop, List.append_assoc]
    exact table.tidy_body.enclosed?_append _
  rw [Extraction.addTable, henclosed]
  simp only [hname, table.name.bareName_text, buildTable_body, List.append_nil]

theorem matchAt?_print {before : Text} (hbefore : Stops isWordChar before) (rest : Text) :
    ∃ m front, Extraction.createTablePattern.matchAt? ⟨before, table.print ++ rest⟩ = some m ∧
      m.start.before = before ∧ m.textOf .table = table.name.text ∧
      m.stop = ⟨front.reverse ++ before, table.body ++ [')', ';', '\n'] ++ rest⟩ ∧
      front ++ (table.body ++ [')', ';', '\n']) = table.print := by
  obtain ⟨m, hm, hstart, hname, hstop⟩ := matchAt?_table table.name hbefore
    (table.body ++ [')', ';', '\n'] ++ rest)
  have hprint : "CREATE".toList ++ ' ' :: ("TABLE".toList ++ ' ' :: (table.name.text ++ ' ' ::
      '(' :: (table.body ++ [')', ';', '\n'] ++ rest))) = table.print ++ rest := by
    simp [print, joined_cons_cons, joined_singleton, body]
  rw [hprint] at hm
  refine ⟨m, "CREATE".toList ++ ' ' :: ("TABLE".toList ++ ' ' :: (table.name.text ++ [' ', '('])),
    hm, hstart, hname, ?_, ?_⟩
  · rw [hstop]
    simp
  · simp [print, joined_cons_cons, joined_singleton, body]

end TableItem

/-- The tables of definitions that stand after some text. -/
def declaredAfter : (front : Text) → List TableItem → List Table
  | _, [] => []
  | front, table :: more =>
    table.declared (1 + front.count '\n') :: declaredAfter (front ++ table.print) more

/-- The definitions of tables are found one after the other. -/
theorem foldl_addTable {rest : Text} (hrest : Extraction.createTablePattern.Passes rest [])
    (tables : List TableItem) {document front : Text}
    (hdocument : document = front ++ (tables.flatMap TableItem.print ++ rest))
    (hfront : Stops isWordChar front.reverse) {count : Nat} (hcount : tables.length ≤ count)
    (found : Extraction) :
    (Extraction.createTablePattern.findUpTo count
        ⟨front.reverse, tables.flatMap TableItem.print ++ rest⟩).foldl
      (Extraction.addTable document) found =
      { tables := found.tables ++ declaredAfter front tables, skipped := found.skipped } := by
  have hp : Extraction.createTablePattern ∈ definitionPatterns := by simp [definitionPatterns]
  induction tables generalizing front count found with
  | nil =>
    have hpass := findUpTo_of_passes hrest count front.reverse
    rw [List.append_nil] at hpass
    rw [List.flatMap_nil, List.nil_append, hpass, findUpTo_nil (ledByWords_of_mem hp) rfl]
    simp [declaredAfter]
  | cons table more ih =>
    rw [List.flatMap_cons, List.append_assoc] at hdocument ⊢
    obtain ⟨m, head, hm, hstart, hname, hstop, hprint⟩ :=
      table.matchAt?_print hfront (more.flatMap TableItem.print ++ rest)
    cases count with
    | zero => simp at hcount
    | succ count =>
      have hoffset : m.start.offset = size front + 0 := by
        rw [Cursor.offset, hstart, size_reverse, Nat.add_zero]
      have hline : document.lineAt m.start.offset = 1 + front.count '\n' := by
        rw [hdocument, hoffset, lineAt_append_right, lineAt_zero, Nat.add_comm]
      have hitems : Extraction.createTablePattern.Passes (table.body ++ [')', ';', '\n'])
          (more.flatMap TableItem.print ++ rest) := passes_items hp table.items
      have hbefore : (table.body ++ [')', ';', '\n']).reverse ++ (head.reverse ++ front.reverse) =
          (front ++ table.print).reverse := by
        rw [← hprint, ← List.reverse_append, ← List.reverse_append, List.append_assoc]
      have hnext : Stops isWordChar (front ++ table.print).reverse := by
        rw [← hbefore]
        simp
        decide
      rw [findUpTo_of_matchAt? hm, List.foldl_cons, table.addTable_eq hname (by rw [hstop]),
        hline, hstop, findUpTo_of_passes hitems, hbefore,
        ih (by rw [hdocument, List.append_assoc]) hnext (by simpa using hcount)]
      simp [declaredAfter]

/-! ## Indexes -/

namespace IndexItem

variable (index : IndexItem)

def addTo (tables : List Table) : List Table :=
  Extraction.modifyFirst (fun table => sameName table.name index.table.name)
    (fun table => { table with indexes := table.indexes ++ [index.index] }) tables

theorem print_ne_nil : index.print ≠ [] := by simp [print]

theorem print_append (rest : Text) : index.print ++ rest =
    joined (if index.unique then ["CREATE", "UNIQUE", "INDEX"] else ["CREATE", "INDEX"]) ++ ' ' ::
      (index.name.text ++ ' ' :: ("ON".toList ++ ' ' :: (index.table.text ++ ' ' :: '(' ::
        (index.columns.inner ++ ([')', ';', '\n'] ++ rest))))) := by
  simp [print, joined_singleton, Names.print, Names.inner]

theorem addIndex_eq {m : Match} {rest : Text} (htable : m.textOf .table = index.table.text)
    (hname : m.textOf .index = index.name.text) (hunique : (m.part? .unique).isSome = index.unique)
    (hstop : m.stop.after = index.columns.inner ++ ([')', ';', '\n'] ++ rest))
    (tables : List Table) : Extraction.addIndex tables m = index.addTo tables := by
  have henclosed : enclosed? m.stop.after = some index.columns.inner := by
    rw [hstop]
    exact index.columns.tidy_inner.enclosed?_append _
  rw [Extraction.addIndex, henclosed]
  simp only [htable, hname, hunique, Identifier.bareName_text, index.columns.columnNames_inner,
    List.isEmpty_iff, index.columns.strings_ne_nil, if_false]
  rfl

end IndexItem

/-- The definitions of indexes are found one after the other. -/
theorem foldl_addIndex (indexes : List IndexItem) {before : Text}
    (hbefore : Stops isWordChar before) {count : Nat} (hcount : indexes.length ≤ count)
    (tables : List Table) :
    (Extraction.createIndexPattern.findUpTo count
        ⟨before, indexes.flatMap IndexItem.print⟩).foldl Extraction.addIndex tables =
      indexes.foldl (fun tables index => index.addTo tables) tables := by
  have hp : Extraction.createIndexPattern ∈ definitionPatterns := by simp [definitionPatterns]
  induction indexes generalizing before count tables with
  | nil =>
    rw [List.flatMap_nil, findUpTo_nil (ledByWords_of_mem hp) rfl, List.foldl_nil, List.foldl_nil]
  | cons index more ih =>
    obtain ⟨m, hm, htable, hname, hunique, hstop⟩ :=
      matchAt?_index index.table.isPlainName index.name.isBareName index.unique
        (index.columns.inner ++ ([')', ';', '\n'] ++ more.flatMap IndexItem.print)) hbefore
    rw [← index.print_append] at hm
    cases count with
    | zero => simp at hcount
    | succ count =>
      have hcolumns : Extraction.createIndexPattern.Passes (index.columns.inner ++ [')', ';', '\n'])
          (more.flatMap IndexItem.print) :=
        (passes_inner hp index.columns).append (passes_sign hp rfl
          (passes_sign hp rfl (passes_sign hp rfl passes_nil)))
      have hcursor : m.stop = ⟨m.stop.before, index.columns.inner ++ [')', ';', '\n'] ++
          more.flatMap IndexItem.print⟩ := by
        rw [List.append_assoc, ← hstop]
      have hnext : Stops isWordChar ((index.columns.inner ++ [')', ';', '\n']).reverse ++
          m.stop.before) := by
        simp
        decide
      rw [List.flatMap_cons, findUpTo_of_matchAt? hm, List.foldl_cons,
        index.addIndex_eq htable hname hunique hstop, hcursor, findUpTo_of_passes hcolumns,
        ih hnext (by simpa using hcount), List.foldl_cons]

/-! ## All tables -/

theorem map_mapIdx {α β γ : Type} (f : Nat → α → β) (g : β → γ) (l : List α) :
    (l.mapIdx f).map g = l.mapIdx fun i a => g (f i a) := by
  induction l generalizing f with
  | nil => rfl
  | cons a l ih => rw [List.mapIdx_cons, List.map_cons, ih, List.mapIdx_cons]

theorem mapIdx_const {α β : Type} (f : α → β) (l : List α) :
    (l.mapIdx fun _ a => f a) = l.map f := by
  induction l with
  | nil => rfl
  | cons a l ih => rw [List.mapIdx_cons, ih, List.map_cons]

theorem modifyFirst_eq_mapIdx {α : Type} (test : α → Bool) (change : α → α) (l : List α) :
    Extraction.modifyFirst test change l =
      l.mapIdx fun i a => if l.findIdx? test = some i then change a else a := by
  induction l with
  | nil => rfl
  | cons a l ih =>
    rw [Extraction.modifyFirst, List.mapIdx_cons, List.findIdx?_cons]
    by_cases ha : test a = true
    · simp [ha, mapIdx_const]
    · simp only [ha, Bool.false_eq_true, if_false, ih]
      simp

def placeOf? (tables : List Table) (name : String) : Option Nat :=
  tables.findIdx? fun table => sameName table.name name

theorem placeOf?_eq_of_names {tables others : List Table}
    (h : tables.map Table.name = others.map Table.name) (name : String) :
    placeOf? tables name = placeOf? others name := by
  have hnames : ∀ l : List Table,
      placeOf? l name = (l.map Table.name).findIdx? (sameName · name) := by
    intro l
    rw [List.findIdx?_map]
    rfl
  rw [hnames, hnames, h]

/-- Each index is added to the table of its place. -/
theorem foldl_addTo_indexes (indexes : List IndexItem) (tables : List Table) :
    indexes.foldl (fun tables index => index.addTo tables) tables =
      tables.mapIdx fun i table =>
        { table with
          indexes := table.indexes ++ (indexes.filter fun index =>
            placeOf? tables index.table.name = some i).map IndexItem.index } := by
  induction indexes generalizing tables with
  | nil => simp [mapIdx_const]
  | cons index more ih =>
    have hadd : index.addTo tables = tables.mapIdx fun i table =>
        if placeOf? tables index.table.name = some i then
          { table with indexes := table.indexes ++ [index.index] }
        else table := modifyFirst_eq_mapIdx _ _ _
    have hnames : (index.addTo tables).map Table.name = tables.map Table.name := by
      rw [hadd, map_mapIdx, ← mapIdx_const]
      congr 1
      funext i table
      split <;> rfl
    have hplace := placeOf?_eq_of_names hnames
    rw [List.foldl_cons, ih]
    simp only [hplace]
    rw [hadd, List.mapIdx_mapIdx]
    congr 1
    funext i table
    by_cases hi : placeOf? tables index.table.name = some i
    · simp [hi]
    · simp [hi]

theorem declaredAfter_eq (front : Text) (tables : List TableItem) :
    declaredAfter front tables = tables.mapIdx fun i table =>
      table.declared (1 + (front ++ (tables.take i).flatMap TableItem.print).count '\n') := by
  induction tables generalizing front with
  | nil => rfl
  | cons table more ih =>
    rw [declaredAfter, ih, List.mapIdx_cons]
    simp

namespace Script

variable (script : Script)

/-- The tables with their indexes, before references are completed. -/
def indexed : List Table :=
  script.tables.mapIdx fun place table =>
    let declared :=
      table.declared (1 + ((script.tables.take place).flatMap TableItem.print).count '\n')
    { declared with
      indexes := declared.indexes ++
        (script.indexes.filter fun index => script.place? index.table.name = some place).map
          IndexItem.index }

theorem foldl_addTo_declared :
    script.indexes.foldl (fun tables index => index.addTo tables)
      (declaredAfter [] script.tables) = script.indexed := by
  have hplace : ∀ name, placeOf? (declaredAfter [] script.tables) name = script.place? name := by
    intro name
    have hnames : (declaredAfter [] script.tables).map Table.name =
        script.tables.map fun table => table.name.name := by
      rw [declaredAfter_eq, map_mapIdx, ← mapIdx_const]
      rfl
    have hfind := List.findIdx?_map (f := Table.name) (p := (sameName · name))
      (l := declaredAfter [] script.tables)
    rw [hnames, List.findIdx?_map] at hfind
    exact hfind.symm
  rw [foldl_addTo_indexes]
  simp only [hplace]
  rw [declaredAfter_eq, List.mapIdx_mapIdx]
  rfl

theorem soleKey?_indexed (name : String) :
    (findTable? script.indexed name).bind Extraction.soleKey? = script.soleKey? name := by
  have hkeys : script.indexed.map (fun table => (table.name, table.primaryKey)) =
      script.tables.map fun table => (table.name.name, table.primaryKey) := by
    rw [indexed, map_mapIdx, ← mapIdx_const]
    rfl
  have hfind := congrArg (List.find? fun entry => sameName entry.1 name) hkeys
  rw [List.find?_map, List.find?_map] at hfind
  have hfound : (findTable? script.indexed name).map (fun table => (table.name, table.primaryKey)) =
      (script.tables.find? fun table => sameName table.name.name name).map
        fun table => (table.name.name, table.primaryKey) := hfind
  rw [soleKey?]
  cases hleft : findTable? script.indexed name with
  | none =>
    rw [hleft, Option.map_none, eq_comm, Option.map_eq_none_iff] at hfound
    rw [hfound]
    rfl
  | some table =>
    rw [hleft, Option.map_some, eq_comm, Option.map_eq_some_iff] at hfound
    obtain ⟨item, hitem, heq⟩ := hfound
    obtain ⟨-, hkey⟩ := Prod.mk.inj heq
    rw [hitem, Option.bind_some, Option.bind_some, hkey]
    unfold Extraction.soleKey?
    rcases table.primaryKey with _ | _ | ⟨column, _ | ⟨next, more⟩⟩ <;> rfl

/-- References are completed by the keys of the declared tables. -/
theorem resolveKey_indexed (key : ForeignKey) :
    Extraction.resolveKey script.indexed key = script.complete key := by
  rw [Extraction.resolveKey, complete, soleKey?_indexed]
  simp only [String.isEmpty_iff]

theorem resolveReferences_indexed :
    Extraction.resolveReferences script.indexed = script.schema := by
  have hresolve : Extraction.resolveKey script.indexed = script.complete :=
    funext script.resolveKey_indexed
  rw [Extraction.resolveReferences, hresolve, indexed, map_mapIdx]
  rfl

/-! ## The whole text -/

section

variable {α : Type} {print : α → Text}

theorem passes_flatMap {p : Pattern} (h : ∀ a rest, p.Passes (print a) rest) (l : List α)
    (rest : Text) : p.Passes (l.flatMap print) rest := by
  induction l with
  | nil => exact passes_nil
  | cons a l ih =>
    rw [List.flatMap_cons]
    exact (h a _).append ih

theorem tidy_flatMap (h : ∀ a, Tidy true (print a)) (l : List α) : Tidy true (l.flatMap print) := by
  induction l with
  | nil => exact .nil
  | cons a l ih =>
    rw [List.flatMap_cons]
    exact (h a).append ih

theorem stops_reverse_flatMap {accepts : Char → Bool} (h : ∀ a, Stops accepts (print a).reverse)
    (l : List α) : Stops accepts (l.flatMap print).reverse := by
  induction l with
  | nil => exact stops_nil _
  | cons a l ih =>
    rw [List.flatMap_cons]
    exact stops_reverse_append (h a) ih

theorem length_le_flatMap (h : ∀ a, print a ≠ []) (l : List α) :
    l.length ≤ (l.flatMap print).length := by
  induction l with
  | nil => exact Nat.le_refl 0
  | cons a l ih =>
    have hpos := List.length_pos_iff.mpr (h a)
    rw [List.flatMap_cons, List.length_append, List.length_cons]
    omega

end

theorem tidy_print : Tidy true script.print := by
  have hend : Tidy true [';', '\n'] :=
    .plain (by decide) (fun _ => rfl) (.plain (by decide) (fun _ => rfl) .nil)
  refine (tidy_flatMap (fun table => ?_) _).append (tidy_flatMap (fun index => ?_) _)
  · have hbody : Tidy true ('(' :: (table.body ++ [')', ';', '\n'])) := .paren table.tidy_body hend
    exact (tidy_joined (by decide)).append
      (tidy_cons_space (table.name.tidy.append (tidy_cons_space hbody)))
  · refine (tidy_joined ?_).append (tidy_cons_space (index.name.tidy.append (tidy_cons_space
      ((tidy_joined (by decide)).append (tidy_cons_space (index.table.tidy.append
        (tidy_cons_space (index.columns.tidy_print.append hend))))))))
    cases index.unique <;> decide

end Script

end Declaration

namespace Extraction

/-- Extraction undoes printing: exactly the declared tables are found, in order and with all that
their definitions say, and no fragment is skipped. -/
theorem ofText_print (script : Script) :
    ofText script.print = { tables := script.schema, skipped := [] } := by
  have htables : (createTablePattern.findAll script.print).foldl (addTable script.print) {} =
      { tables := declaredAfter [] script.tables, skipped := [] } := by
    have hrest : createTablePattern.Passes (script.indexes.flatMap IndexItem.print) [] :=
      Script.passes_flatMap (fun index _ => passes_index index) _ _
    have hdocument : script.print = [] ++ (script.tables.flatMap TableItem.print ++
        script.indexes.flatMap IndexItem.print) := rfl
    have hlength := Script.length_le_flatMap (fun table => table.print_ne_nil) script.tables
    have hcount : script.tables.length ≤ script.print.length := by
      rw [Script.print, List.length_append]
      omega
    have hrun := foldl_addTable hrest script.tables hdocument (stops_nil _) hcount {}
    rw [List.reverse_nil, ← Script.print] at hrun
    exact hrun
  have hindexes : (createIndexPattern.findAll script.print).foldl addIndex
      (declaredAfter [] script.tables) = script.indexed := by
    have hpass : createIndexPattern.Passes (script.tables.flatMap TableItem.print)
        (script.indexes.flatMap IndexItem.print) :=
      Script.passes_flatMap (fun table _ => passes_table table) _ _
    have hbefore : Stops isWordChar ((script.tables.flatMap TableItem.print).reverse ++ []) := by
      rw [List.append_nil]
      exact Script.stops_reverse_flatMap (fun table => table.stops_reverse_print) _
    have hlength := Script.length_le_flatMap (fun index => index.print_ne_nil) script.indexes
    rw [findAll, Cursor.first, Script.print, findUpTo_of_passes hpass, foldl_addIndex _ hbefore,
      script.foldl_addTo_declared]
    rw [List.length_append]
    omega
  rw [ofText, script.tidy_print.blankComments_eq]
  simp only [htables, hindexes, script.resolveReferences_indexed]

/-- Names like keywords, a literal with a quote, a comma, a parenthesis and a comment sign, and a
reference that leaves its target open. -/
def sampleScript : Script :=
  { tables :=
      [⟨⟨"create".toList, by decide⟩,
        [.column ⟨⟨⟨"key".toList, by decide⟩, by decide⟩, "INT",
           List.mem_append_right _ (by decide), .none, [.primaryKey]⟩,
         .column ⟨⟨⟨"t".toList, by decide⟩, by decide⟩, "VARCHAR",
           List.mem_append_right _ (by decide), .one 20,
           [.default ⟨"it's, (a) -- b".toList, by decide +kernel⟩]⟩]⟩,
       ⟨⟨"t".toList, by decide⟩,
        [.column ⟨⟨⟨"create".toList, by decide⟩, by decide⟩, "BIGINT",
           List.mem_append_right _ (by decide), .none,
           [.references ⟨⟨"create".toList, by decide⟩, by decide⟩ none]⟩,
         .constraint none (.key false (some ⟨⟨"i".toList, by decide⟩, by decide +kernel⟩)
           ⟨⟨"create".toList, by decide⟩, []⟩)]⟩]
    indexes :=
      [⟨true, ⟨"u".toList, by decide⟩, ⟨"create".toList, by decide⟩,
        ⟨⟨"t".toList, by decide⟩, []⟩⟩] }

theorem ofText_print_sampleScript :
    ofText ("CREATE TABLE create (key INT PRIMARY KEY, " ++
        "t VARCHAR(20) DEFAULT 'it''s, (a) -- b');\n" ++
        "CREATE TABLE t (create BIGINT REFERENCES create, KEY i (create));\n" ++
        "CREATE UNIQUE INDEX u ON create (t);\n").toList =
      { tables :=
          [{ name := "create"
             columns :=
               [{ name := "key", type := "INT", nullable := false, isPrimaryKey := true },
                { name := "t", type := "VARCHAR", size := some 20,
                  default := some "it's, (a) -- b" }]
             primaryKey := some ["key"]
             indexes := [⟨"u", ["t"], true⟩]
             line := 1 },
           { name := "t"
             columns :=
               [{ name := "create", type := "BIGINT", reference := some ⟨"create", none⟩ }]
             foreignKeys := [⟨"create", "create", "key"⟩]
             indexes := [⟨"i", ["create"], false⟩]
             line := 2 }]
        skipped := [] } := by
  have hprint : sampleScript.print = ("CREATE TABLE create (key INT PRIMARY KEY, " ++
      "t VARCHAR(20) DEFAULT 'it''s, (a) -- b');\n" ++
      "CREATE TABLE t (create BIGINT REFERENCES create, KEY i (create));\n" ++
      "CREATE UNIQUE INDEX u ON create (t);\n").toList := by decide +kernel
  rw [← hprint, ofText_print]
  decide +kernel

end Extraction
end SqlAudit
