import Mathlib.Algebra.GroupWithZero.Nat
import Mathlib.Data.List.Forall2
import SqlAudit.Proofs.Pattern.Skipping
import SqlAudit.Proofs.Schema.Placement

/-!
Where recovered tables and indexes come from.  Every table has a definition of its own in the
document without comments, and so has every index that was attached to a table; each of them opens
with its first word.  The search for definitions does not look at quotes, so a definition that is
spelled out in a literal counts as well.  Leaving out the definitions in quoted runs makes a
difference exactly when there is one that declares something.
-/

namespace SqlAudit

open Text Pattern

namespace Text

/-- Whether a byte offset lies in a quoted run, given the marks of the text. -/
def quotedIn : List Mark → (offset : Nat) → Bool
  | [], _ => false
  | m :: rest, offset =>
    if offset < m.char.utf8Size then m.quoted else quotedIn rest (offset - m.char.utf8Size)

def isQuotedAt (t : Text) (offset : Nat) : Bool := quotedIn (t.marks t.escapes) offset

/-- A whole word, in any case, stands at a byte offset. -/
def HasWordAt (t : Text) (word : String) (offset : Nat) : Prop :=
  ∃ rest, t.atByte? offset = some rest ∧ StartsWord word.toList rest

end Text

namespace Extraction

/-! ## Definitions -/

/-- What the definition of a table gives; nothing is read of a list that does not close. -/
def definedTable (document : Text) (m : Match) : Table × List SkippedFragment :=
  buildTable document (Text.bareName (m.textOf .table)) (document.lineAt m.start.offset)
    m.stop.offset ((Text.enclosed? m.stop.after).getD [])

/-- The index that a match defines; none if its list does not close or names no column. -/
def definedIndex? (m : Match) : Option Index :=
  match Text.enclosed? m.stop.after with
  | none => none
  | some list =>
    if (Text.columnNames list).isEmpty then none
    else some ⟨Text.bareName (m.textOf .index), Text.columnNames list, (m.part? .unique).isSome⟩

def declaresTable (m : Match) : Bool := (Text.enclosed? m.stop.after).isSome

def owner (m : Match) : String := Text.bareName (m.textOf .table)

/-- Whether a match defines an index of one of the tables with some names. -/
def declaresIndex (names : List String) (m : Match) : Bool :=
  (definedIndex? m).isSome && names.any (sameName · (owner m))

/-- The definitions to which a document owes its tables. -/
def tableDefinitions (document : Text) : List Match :=
  (createTablePattern.findAll document).filter declaresTable

/-- The definitions to which the tables of a document owe indexes besides those in their lists. -/
def indexDefinitions (document : Text) : List Match :=
  (createIndexPattern.findAll document).filter
    (declaresIndex ((tableDefinitions document).map owner))

/-- The tables that some definitions of tables and indexes give. -/
def ofDefinitions (document : Text) (tables indexes : List Match) : Extraction :=
  let found := tables.foldl (addTable document) {}
  { found with tables := resolveReferences (indexes.foldl addIndex found.tables) }

/-- Whether a match starts outside every quoted run. -/
def startsInCode (document : Text) (m : Match) : Bool := !document.isQuotedAt m.start.offset

/-- The tables of a document from the definitions outside quoted runs only. -/
def ofCode (sql : Text) : Extraction :=
  let document := sql.blankComments false
  ofDefinitions document ((createTablePattern.findAll document).filter (startsInCode document))
    ((createIndexPattern.findAll document).filter (startsInCode document))

theorem ofText_eq_ofDefinitions (sql : Text) :
    ofText sql = ofDefinitions (sql.blankComments false)
      (createTablePattern.findAll (sql.blankComments false))
      (createIndexPattern.findAll (sql.blankComments false)) := rfl

/-! ## Tables -/

theorem addTable_eq (document : Text) (found : Extraction) (m : Match) :
    addTable document found m =
      if declaresTable m then
        { tables := found.tables ++ [(definedTable document m).1],
          skipped := found.skipped ++ (definedTable document m).2 }
      else found := by
  rw [addTable, declaresTable, definedTable]
  cases Text.enclosed? m.stop.after with
  | none => rfl
  | some body => rfl

/-- The definitions that declare a table give one each. -/
theorem foldl_addTable_eq (document : Text) (ms : List Match) (found : Extraction) :
    ms.foldl (addTable document) found =
      { tables := found.tables ++ (ms.filter declaresTable).map fun m => (definedTable document m).1,
        skipped := found.skipped ++
          (ms.filter declaresTable).flatMap fun m => (definedTable document m).2 } := by
  induction ms generalizing found with
  | nil => simp
  | cons m rest ih =>
    rw [List.foldl_cons, ih, addTable_eq]
    by_cases hm : declaresTable m = true
    · simp [hm]
    · simp [hm]

theorem definedTable_place (document : Text) (m : Match) :
    (definedTable document m).1.name = owner m ∧
      (definedTable document m).1.line = document.lineAt m.start.offset := by
  rw [definedTable, buildTable_eq]
  exact ⟨rfl, rfl⟩

theorem map_name_definedTable (document : Text) (ms : List Match) :
    (ms.map fun m => (definedTable document m).1).map Table.name = ms.map owner := by
  rw [List.map_map]
  exact List.map_congr_left fun m _ => (definedTable_place document m).1

/-- The definitions of a document are found in the order of their lines, and so are its tables. -/
theorem pairwise_line_tables (sql : Text) :
    (ofText sql).tables.Pairwise fun table table' => table.line ≤ table'.line := by
  have hlines : (ofText sql).tables.map Table.line =
      ((createTablePattern.findAll (sql.blankComments false)).filter declaresTable).map
        fun m => (sql.blankComments false).lineAt m.start.offset := by
    simp only [ofText, map_line_resolveReferences, map_line_foldl_addIndex, foldl_addTable_eq,
      List.nil_append, List.map_map]
    exact List.map_congr_left fun m _ => (definedTable_place _ m).2
  have hsorted : ((ofText sql).tables.map Table.line).Pairwise (· ≤ ·) := by
    rw [hlines, List.pairwise_map]
    refine (List.Pairwise.filter _ (pairwise_findUpTo _ _ _)).imp fun hreach => ?_
    exact lineAt_mono _ hreach.offset_le
  exact List.pairwise_map.mp hsorted

/-! ## Indexes -/

section

variable {α : Type} {test : α → Bool} {change : α → α} {l : List α}

theorem modifyFirst_eq_self (h : ∀ a ∈ l, test a = false) : modifyFirst test change l = l := by
  induction l with
  | nil => rfl
  | cons a rest ih =>
    rw [modifyFirst, h a List.mem_cons_self, ih fun b hb => h b (List.mem_cons_of_mem a hb)]
    rfl

theorem exists_modifyFirst_eq (change : α → α) (h : l.any test = true) :
    ∃ front a back, l = front ++ a :: back ∧ (∀ b ∈ front, test b = false) ∧ test a = true ∧
      modifyFirst test change l = front ++ change a :: back := by
  induction l with
  | nil => cases h
  | cons a rest ih =>
    rw [modifyFirst]
    by_cases ha : test a = true
    · exact ⟨[], a, rest, rfl, by simp, ha, by rw [if_pos ha]; rfl⟩
    · have ha' : test a = false := Bool.eq_false_iff.mpr ha
      rw [List.any_cons, ha', Bool.false_or] at h
      obtain ⟨front, b, back, rfl, hfront, hb, hmodified⟩ := ih h
      refine ⟨a :: front, b, back, rfl, ?_, hb, by rw [if_neg ha, hmodified]; rfl⟩
      intro x hx
      rcases List.mem_cons.mp hx with rfl | hx
      · exact ha'
      · exact hfront x hx

end

theorem addIndex_eq (tables : List Table) (m : Match) :
    addIndex tables m =
      match definedIndex? m with
      | none => tables
      | some index => modifyFirst (fun table => sameName table.name (owner m))
          (fun table => { table with indexes := table.indexes ++ [index] }) tables := by
  rw [addIndex, definedIndex?]
  cases Text.enclosed? m.stop.after with
  | none => rfl
  | some list =>
    by_cases hempty : (Text.columnNames list).isEmpty = true
    · simp only [hempty, if_true]
    · simp only [hempty, Bool.false_eq_true, if_false, owner]

/-- A table with the indexes of some definitions behind its own. -/
structure Attached (ms : List Match) (table result : Table) : Prop where
  others : result = { table with indexes := result.indexes }
  indexes : ∃ own : List Match, own.Sublist ms ∧ (∀ m ∈ own, sameName table.name (owner m) = true) ∧
    result.indexes = table.indexes ++ own.filterMap definedIndex?

theorem attached_refl (table : Table) : Attached [] table table :=
  ⟨rfl, [], List.Sublist.refl _, by simp, by simp⟩

theorem Attached.name_eq {ms : List Match} {table result : Table} (h : Attached ms table result) :
    result.name = table.name := by
  rw [h.others]

theorem Attached.more {ms : List Match} {table result : Table} (h : Attached ms table result)
    (m : Match) : Attached (ms ++ [m]) table result := by
  obtain ⟨own, hsub, hown, hindexes⟩ := h.indexes
  exact ⟨h.others, own, hsub.trans (List.sublist_append_left _ _), hown, hindexes⟩

theorem Attached.add {ms : List Match} {table result : Table} (h : Attached ms table result)
    {m : Match} {index : Index} (hm : definedIndex? m = some index)
    (hname : sameName result.name (owner m) = true) :
    Attached (ms ++ [m]) table { result with indexes := result.indexes ++ [index] } := by
  obtain ⟨own, hsub, hown, hindexes⟩ := h.indexes
  refine ⟨by rw [h.others], own ++ [m], hsub.append (List.Sublist.refl _), ?_, ?_⟩
  · intro other hother
    rcases List.mem_append.mp hother with hother | hother
    · exact hown other hother
    · rw [List.mem_singleton.mp hother, ← h.name_eq]
      exact hname
  · show result.indexes ++ [index] = _
    rw [hindexes, List.filterMap_append, List.append_assoc]
    simp [hm]

/-- One more definition of an index: at most one table gets it, and it has the name. -/
theorem attached_addIndex {ms : List Match} {tables results : List Table}
    (h : List.Forall₂ (Attached ms) tables results) (m : Match) :
    List.Forall₂ (Attached (ms ++ [m])) tables (addIndex results m) := by
  rw [addIndex_eq]
  cases hm : definedIndex? m with
  | none => exact h.imp fun _ _ hattached => hattached.more m
  | some index =>
    dsimp only
    induction h with
    | nil => exact .nil
    | cons hfirst hrest ih =>
      rw [modifyFirst]
      split
      · rename_i hname
        exact .cons (hfirst.add hm hname) (hrest.imp fun _ _ hattached => hattached.more m)
      · exact .cons (hfirst.more m) ih

theorem attached_foldl_addIndex (ms : List Match) {before : List Match} {tables results : List Table}
    (h : List.Forall₂ (Attached before) tables results) :
    List.Forall₂ (Attached (before ++ ms)) tables (ms.foldl addIndex results) := by
  induction ms generalizing before results with
  | nil => rwa [List.append_nil]
  | cons m rest ih =>
    have hrest := ih (attached_addIndex h m)
    rwa [List.append_assoc, List.singleton_append] at hrest

/-- Indexes in all tables together. -/
def indexCount (tables : List Table) : Nat := (tables.map (·.indexes.length)).sum

theorem map_name_addIndex (tables : List Table) (m : Match) :
    (addIndex tables m).map Table.name = tables.map Table.name :=
  map_addIndex (fun _ _ => rfl) tables m

theorem addIndex_of_not_declaresIndex {tables : List Table} {m : Match}
    (h : ¬ declaresIndex (tables.map Table.name) m = true) : addIndex tables m = tables := by
  rw [addIndex_eq]
  cases hm : definedIndex? m with
  | none => rfl
  | some index =>
    apply modifyFirst_eq_self
    intro table htable
    rw [Bool.eq_false_iff]
    intro hname
    refine h ?_
    rw [declaresIndex, hm, Option.isSome_some, Bool.true_and, List.any_eq_true]
    exact ⟨table.name, List.mem_map_of_mem htable, hname⟩

theorem indexCount_addIndex {tables : List Table} {m : Match}
    (h : declaresIndex (tables.map Table.name) m = true) :
    indexCount (addIndex tables m) = indexCount tables + 1 := by
  rw [declaresIndex, Bool.and_eq_true, Option.isSome_iff_exists, List.any_map] at h
  obtain ⟨⟨index, hindex⟩, hany⟩ := h
  obtain ⟨front, table, back, rfl, -, -, hmodified⟩ := exists_modifyFirst_eq
    (fun table => { table with indexes := table.indexes ++ [index] }) hany
  have hadd : addIndex (front ++ table :: back) m =
      front ++ { table with indexes := table.indexes ++ [index] } :: back := by
    rw [addIndex_eq, hindex]
    exact hmodified
  rw [hadd]
  simp only [indexCount, List.map_append, List.map_cons, List.sum_append, List.sum_cons,
    List.length_append, List.length_singleton]
  omega

theorem foldl_addIndex_filter (ms : List Match) (tables : List Table) :
    ms.foldl addIndex tables =
      (ms.filter (declaresIndex (tables.map Table.name))).foldl addIndex tables := by
  induction ms generalizing tables with
  | nil => rfl
  | cons m rest ih =>
    rw [List.foldl_cons, ih, map_name_addIndex]
    by_cases hm : declaresIndex (tables.map Table.name) m = true
    · rw [List.filter_cons_of_pos hm, List.foldl_cons]
    · rw [List.filter_cons_of_neg hm, addIndex_of_not_declaresIndex hm]

theorem indexCount_foldl_addIndex (ms : List Match) (tables : List Table) :
    indexCount (ms.foldl addIndex tables) =
      indexCount tables + (ms.filter (declaresIndex (tables.map Table.name))).length := by
  induction ms generalizing tables with
  | nil => rfl
  | cons m rest ih =>
    rw [List.foldl_cons, ih, map_name_addIndex]
    by_cases hm : declaresIndex (tables.map Table.name) m = true
    · rw [List.filter_cons_of_pos hm, List.length_cons, indexCount_addIndex hm]
      omega
    · rw [List.filter_cons_of_neg hm, addIndex_of_not_declaresIndex hm]

/-! ## Whole documents -/

theorem indexes_resolveReferences (tables : List Table) :
    (resolveReferences tables).map Table.indexes = tables.map Table.indexes := by
  rw [resolveReferences, List.map_map]
  rfl

theorem indexCount_resolveReferences (tables : List Table) :
    indexCount (resolveReferences tables) = indexCount tables := by
  have hindexes := congrArg (List.map List.length) (indexes_resolveReferences tables)
  rw [List.map_map, List.map_map] at hindexes
  exact congrArg List.sum hindexes

theorem tables_ofDefinitions (document : Text) (tables indexes : List Match) :
    (ofDefinitions document tables indexes).tables =
      resolveReferences ((indexes.filter
        (declaresIndex ((tables.filter declaresTable).map owner))).foldl addIndex
          ((tables.filter declaresTable).map fun m => (definedTable document m).1)) := by
  rw [ofDefinitions]
  dsimp only
  rw [foldl_addIndex_filter, foldl_addTable_eq, List.nil_append, map_name_definedTable]

theorem length_tables_ofDefinitions (document : Text) (tables indexes : List Match) :
    (ofDefinitions document tables indexes).tables.length =
      (tables.filter declaresTable).length := by
  have hnames : ∀ (ms : List Match) (ts : List Table),
      (ms.foldl addIndex ts).map Table.name = ts.map Table.name := by
    intro ms
    induction ms with
    | nil => exact fun ts => rfl
    | cons m rest ih => exact fun ts => (ih _).trans (map_name_addIndex ts m)
  have hlength := congrArg List.length (hnames (indexes.filter
    (declaresIndex ((tables.filter declaresTable).map owner)))
      ((tables.filter declaresTable).map fun m => (definedTable document m).1))
  rw [List.length_map, List.length_map, List.length_map] at hlength
  rw [tables_ofDefinitions, resolveReferences, List.length_map, hlength]

theorem indexCount_ofDefinitions (document : Text) (tables indexes : List Match) :
    indexCount (ofDefinitions document tables indexes).tables =
      indexCount ((tables.filter declaresTable).map fun m => (definedTable document m).1) +
        (indexes.filter (declaresIndex ((tables.filter declaresTable).map owner))).length := by
  rw [tables_ofDefinitions, indexCount_resolveReferences, indexCount_foldl_addIndex,
    map_name_definedTable, List.filter_filter]
  simp only [Bool.and_self]

/-- Only the definitions that declare something count. -/
theorem ofDefinitions_congr {document : Text} {tables tables' indexes indexes' : List Match}
    (htables : tables.filter declaresTable = tables'.filter declaresTable)
    (hindexes : indexes.filter (declaresIndex ((tables.filter declaresTable).map owner)) =
      indexes'.filter (declaresIndex ((tables.filter declaresTable).map owner))) :
    ofDefinitions document tables indexes = ofDefinitions document tables' indexes' := by
  have htablesEq : (ofDefinitions document tables indexes).tables =
      (ofDefinitions document tables' indexes').tables := by
    rw [tables_ofDefinitions, tables_ofDefinitions, hindexes, htables]
  have hskipped : (ofDefinitions document tables indexes).skipped =
      (ofDefinitions document tables' indexes').skipped := by
    show (tables.foldl (addTable document) {}).skipped =
      (tables'.foldl (addTable document) {}).skipped
    rw [foldl_addTable_eq, foldl_addTable_eq, htables]
  cases h : ofDefinitions document tables indexes
  cases h' : ofDefinitions document tables' indexes'
  rw [h, h'] at htablesEq hskipped
  rw [Extraction.mk.injEq]
  exact ⟨htablesEq, hskipped⟩

theorem hasWordAt_of_mem_findAll {p : Pattern} {word : String} (hled : p.LedByWords [word])
    {document : Text} {m : Match} (hm : m ∈ p.findAll document) :
    document.HasWordAt word m.start.offset := by
  obtain ⟨hreach, hmatch⟩ := of_mem_findAll hm
  obtain ⟨-, head, hhead, hstarts⟩ := hled m.start (by simp [hmatch])
  rw [List.mem_singleton.mp hhead] at hstarts
  have hat := atByte?_append m.start.before.reverse m.start.after
  have htext : m.start.before.reverse ++ m.start.after = document := hreach.text_eq
  rw [htext, size_reverse] at hat
  exact ⟨m.start.after, hat, hstarts⟩

theorem hasWordAt_of_mem_definitions {document : Text} {m : Match}
    (hm : m ∈ tableDefinitions document ++ indexDefinitions document) :
    document.HasWordAt "CREATE" m.start.offset := by
  rcases List.mem_append.mp hm with hm | hm
  · exact hasWordAt_of_mem_findAll (ledByWords_gap "CREATE" _) (List.mem_of_mem_filter hm)
  · exact hasWordAt_of_mem_findAll (ledByWords_gap "CREATE" _) (List.mem_of_mem_filter hm)

/-- Every table is given by its own definition, with indexes from definitions that name it. -/
theorem forall₂_tables_ofText (sql : Text) :
    List.Forall₂ (fun table m => table.name = owner m ∧
        table.line = (sql.blankComments false).lineAt m.start.offset ∧
        ∃ own : List Match, own.Sublist (indexDefinitions (sql.blankComments false)) ∧
          (∀ i ∈ own, sameName table.name (owner i) = true) ∧
          table.indexes = (definedTable (sql.blankComments false) m).1.indexes ++
            own.filterMap definedIndex?)
      (ofText sql).tables (tableDefinitions (sql.blankComments false)) := by
  rw [ofText_eq_ofDefinitions, tables_ofDefinitions, ← tableDefinitions, ← indexDefinitions]
  generalize sql.blankComments false = document
  rw [resolveReferences, List.forall₂_map_left_iff]
  have hrefl : List.Forall₂ (Attached [])
      ((tableDefinitions document).map fun m => (definedTable document m).1)
      ((tableDefinitions document).map fun m => (definedTable document m).1) :=
    List.forall₂_same.mpr fun table _ => attached_refl table
  have hattached := attached_foldl_addIndex (indexDefinitions document) hrefl
  rw [List.forall₂_map_left_iff, List.nil_append] at hattached
  refine (hattached.imp ?_).flip
  intro m result h
  obtain ⟨hname, hline⟩ := definedTable_place document m
  obtain ⟨own, hsub, hown, hindexes⟩ := h.indexes
  have hnameEq : result.name = (definedTable document m).1.name := h.name_eq
  have hlineEq : result.line = (definedTable document m).1.line := by rw [h.others]
  refine ⟨hnameEq.trans hname, hlineEq.trans hline, own, hsub, ?_, hindexes⟩
  intro i hi
  show sameName result.name (owner i) = true
  rw [hnameEq]
  exact hown i hi

/-- Leaving out the definitions in quoted runs makes no difference exactly if all that declare
something stand outside. -/
theorem ofText_eq_ofCode_iff (sql : Text) :
    ofText sql = ofCode sql ↔
      ∀ m ∈ tableDefinitions (sql.blankComments false) ++
          indexDefinitions (sql.blankComments false),
        (sql.blankComments false).isQuotedAt m.start.offset = false := by
  rw [ofText_eq_ofDefinitions, ofCode]
  generalize sql.blankComments false = document
  have hcode : ∀ m, startsInCode document m = true ↔
      document.isQuotedAt m.start.offset = false := by
    intro m
    rw [startsInCode, Bool.not_eq_true']
  simp only [List.forall_mem_append, ← hcode]
  constructor
  · intro heq
    -- Each definition that declares something adds one to a count, so none can be missing.
    have htables : ∀ m ∈ tableDefinitions document, startsInCode document m = true := by
      have hlength := congrArg (fun e => e.tables.length) heq
      rw [length_tables_ofDefinitions, length_tables_ofDefinitions, List.filter_comm] at hlength
      exact List.length_filter_eq_length_iff.mp hlength.symm
    refine ⟨htables, ?_⟩
    have hcount := congrArg (fun e => indexCount e.tables) heq
    rw [indexCount_ofDefinitions, indexCount_ofDefinitions, List.filter_comm declaresTable,
      ← tableDefinitions, List.filter_eq_self.mpr htables,
      List.filter_comm _ (startsInCode document)] at hcount
    exact List.length_filter_eq_length_iff.mp (Nat.add_left_cancel hcount).symm
  · rintro ⟨htables, hindexes⟩
    apply ofDefinitions_congr
    · rw [List.filter_comm]
      exact (List.filter_eq_self.mpr htables).symm
    · rw [List.filter_comm _ (startsInCode document)]
      exact (List.filter_eq_self.mpr hindexes).symm

/-- What every table and every attached index comes from: a definition of its own, which opens with
its first word.  The definitions in quoted runs are those that code does not declare; without the
first word in a quoted run there are none. -/
theorem ofText_origins (sql : Text) :
    List.Forall₂ (fun table m => table.name = owner m ∧
        table.line = (sql.blankComments false).lineAt m.start.offset ∧
        ∃ own : List Match, own.Sublist (indexDefinitions (sql.blankComments false)) ∧
          (∀ i ∈ own, sameName table.name (owner i) = true) ∧
          table.indexes = (definedTable (sql.blankComments false) m).1.indexes ++
            own.filterMap definedIndex?)
      (ofText sql).tables (tableDefinitions (sql.blankComments false)) ∧
    (∀ m ∈ tableDefinitions (sql.blankComments false) ++
        indexDefinitions (sql.blankComments false),
      (sql.blankComments false).HasWordAt "CREATE" m.start.offset) ∧
    ((∀ m ∈ tableDefinitions (sql.blankComments false) ++
        indexDefinitions (sql.blankComments false),
      (sql.blankComments false).isQuotedAt m.start.offset = false) ↔ ofText sql = ofCode sql) ∧
    ((∀ offset, (sql.blankComments false).HasWordAt "CREATE" offset →
        (sql.blankComments false).isQuotedAt offset = false) →
      ofText sql = ofCode sql) := by
  have hwords : ∀ m ∈ tableDefinitions (sql.blankComments false) ++
      indexDefinitions (sql.blankComments false),
      (sql.blankComments false).HasWordAt "CREATE" m.start.offset :=
    fun m hm => hasWordAt_of_mem_definitions hm
  refine ⟨forall₂_tables_ofText sql, hwords, (ofText_eq_ofCode_iff sql).symm, ?_⟩
  intro hquoted
  rw [ofText_eq_ofCode_iff]
  exact fun m hm => hquoted _ (hwords m hm)

/-- The definition in this literal declares a table, although no code does. -/
theorem ofText_reads_literal :
    (ofText "SELECT 'CREATE TABLE t (a INT)';".toList).tables.map Table.name = ["t"] ∧
    ¬ ∀ m ∈ tableDefinitions (blankComments "SELECT 'CREATE TABLE t (a INT)';".toList false) ++
        indexDefinitions (blankComments "SELECT 'CREATE TABLE t (a INT)';".toList false),
      isQuotedAt (blankComments "SELECT 'CREATE TABLE t (a INT)';".toList false)
        m.start.offset = false := by
  refine ⟨by decide +kernel, fun hcode => ?_⟩
  obtain ⟨-, -, hiff, -⟩ := ofText_origins "SELECT 'CREATE TABLE t (a INT)';".toList
  exact absurd (hiff.mp hcode) (by decide +kernel)

end Extraction
end SqlAudit
