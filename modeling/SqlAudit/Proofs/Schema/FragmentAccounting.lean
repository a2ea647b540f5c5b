import SqlAudit.Proofs.Lexical.SegmentRejoining
import SqlAudit.Proofs.Pattern.Extension
import SqlAudit.Proofs.Text.Trim
import SqlAudit.Schema.Extraction

/-!
What becomes of every fragment of a table definition.  A fragment gives a column, or it is skipped
with the reason, or it is a constraint; and whichever it is, it says by itself which key, which
references and which index it declares.  The table is put together from what its fragments say: of
the keys the last one counts, and everything else is kept in order.
-/

namespace SqlAudit

open Text Pattern

namespace Constraint

/-! ## Names before a constraint -/

/-- What stands after a name is shorter than the constraint. -/
theorem length_trim_body_lt {fragment : Text} {m : Match} (h : namedPattern.find? fragment = some m) :
    (trim (m.textOf .body)).length < fragment.length := by
  obtain ⟨hreach, hm⟩ := reaches_of_findFrom? h
  have hways : ⟨m.stop, m.captures⟩ ∈ (all ([start, word "CONSTRAINT", gap,
      capture .name Pattern.name, gap] ++ [capture .body (many fun _ => true)] ++ [stop])).ways
        ⟨m.start, []⟩ := (of_matchAt?_eq_some hm).2
  obtain ⟨v, hv, hstop⟩ := mem_ways_all_append.mp hways
  obtain ⟨u, hu, hbody⟩ := mem_ways_all_append.mp hv
  have hlead := minWidth_le_of_mem_ways hu
  have hwide : 0 < (all [start, word "CONSTRAINT", gap, capture .name Pattern.name, gap]).minWidth :=
    by decide
  have hstart := length_le_of_reaches hreach
  have hcaptures : m.captures = v.captures := congrArg Way.captures (mem_ways_stop.mp hstop).2
  obtain ⟨x, -, rfl⟩ := mem_ways_capture.mp hbody
  have htext : m.textOf .body = u.cursor.upTo x.cursor := by
    rw [Match.textOf, Match.textOf?, Match.part?, hcaptures]
    rfl
  have hshort : (m.textOf .body).length ≤ u.cursor.after.length := by
    rw [htext, Cursor.upTo, List.length_take]
    omega
  have htrim := length_trim_le (m.textOf .body)
  have hfirst : (Cursor.first fragment).after.length = fragment.length := rfl
  have hfrom : (⟨m.start, []⟩ : Way).cursor.after.length = m.start.after.length := rfl
  omega

def clause (fragment : Text) : Text :=
  match hm : namedPattern.find? fragment with
  | some m =>
    have := length_trim_body_lt hm
    clause (trim (m.textOf .body))
  | none => fragment
termination_by fragment.length

theorem clause_of_some {fragment : Text} {m : Match} (h : namedPattern.find? fragment = some m) :
    clause fragment = clause (trim (m.textOf .body)) := by
  rw [clause]
  split
  · rename_i found hfound
    rw [h] at hfound
    rw [Option.some.inj hfound]
  · rename_i hnone
    rw [h] at hnone
    cases hnone

theorem clause_of_none {fragment : Text} (h : namedPattern.find? fragment = none) :
    clause fragment = fragment := by
  rw [clause]
  split
  · rename_i found hfound
    rw [h] at hfound
    cases hfound
  · rfl

theorem exists_readUnder?_eq {names : Nat} {fragment : Text} (h : fragment.length < names)
    (name : Option String) :
    ∃ label, readUnder? names fragment name = readUnnamed? (clause fragment) label := by
  induction names generalizing fragment name with
  | zero => omega
  | succ names ih =>
    rw [readUnder?]
    split
    · rename_i m hm
      have hshorter := length_trim_body_lt hm
      rw [clause_of_some hm]
      exact ih (by omega) _
    · rename_i hm
      rw [clause_of_none hm]
      exact ⟨name, rfl⟩

/-- The names of a constraint decide nothing but the name of an index. -/
theorem exists_read?_eq (fragment : Text) :
    ∃ label, read? fragment = readUnnamed? (clause fragment) label :=
  exists_readUnder?_eq (Nat.lt_succ_self _) none

/-! ## Clauses -/

/-- A clause that declares references declares no key. -/
theorem find?_primaryKeyPattern_of_foreignKey {t : Text} {m : Match}
    (h : foreignKeyPattern.find? t = some m) : primaryKeyPattern.find? t = none := by
  apply find?_start_word_eq_none
  have hopens : opens "FOREIGN".toList t = true := by
    by_contra hother
    rw [foreignKeyPattern, find?_start_word_eq_none (by simpa using hother)] at h
    cases h
  cases t with
  | nil => rfl
  | cons c rest =>
    have hc : sameLetter 'F' c = true := by
      simp only [String.reduceToList, opens, Bool.and_eq_true] at hopens
      exact hopens.1
    have hlower : c.toLower = 'f' := by simpa [sameLetter] using hc
    simp [opens, sameLetter, hlower]

/-- The columns of a key, if the clause declares one and names any. -/
def keyOf? (clause : Text) : Option (List String) :=
  ((primaryKeyPattern.find? clause).map fun m => columnNames (m.textOf .columns)).filter
    (!·.isEmpty)

/-- Local columns, each with the remote column at its place; without one the target is open. -/
def paired (table : String) : (columns remote : List String) → List ForeignKey
  | [], _ => []
  | column :: columns, remote =>
    ⟨column, table, remote.headD ""⟩ :: paired table columns remote.tail

def referencesIn (clause : Text) : List ForeignKey :=
  match foreignKeyPattern.find? clause with
  | some m =>
    paired (bareName (m.textOf .table)) (columnNames (m.textOf .columns))
      (columnNames (m.textOf .remote))
  | none => []

theorem referencesOf_eq (m : Match) :
    referencesOf m = paired (bareName (m.textOf .table)) (columnNames (m.textOf .columns))
      (columnNames (m.textOf .remote)) := by
  have hpaired : ∀ (table : String) (columns remote : List String),
      (columns.mapIdx fun i column => (⟨column, table, remote.getD i ""⟩ : ForeignKey)) =
        paired table columns remote := by
    intro table columns
    induction columns with
    | nil => exact fun remote => rfl
    | cons column columns ih =>
      intro remote
      rw [List.mapIdx_cons, paired, ← ih]
      cases remote <;> rfl
  exact hpaired _ _ _

def key? : Constraint → Option (List String)
  | .primaryKey columns => some columns
  | _ => none

def references : Constraint → List ForeignKey
  | .foreignKeys keys => keys
  | _ => []

def index? : Constraint → Option Index
  | .index added => some added
  | _ => none

theorem key?_indexOf? (m : Match) (name : Option String) (unique : Bool) :
    (indexOf? m name unique).bind key? = none := by
  rw [indexOf?]
  split <;> rfl

theorem references_indexOf? (m : Match) (name : Option String) (unique : Bool) :
    (indexOf? m name unique).elim [] references = [] := by
  rw [indexOf?]
  split <;> rfl

theorem key?_readUnnamed? (t : Text) (name : Option String) :
    (readUnnamed? t name).bind key? = keyOf? t := by
  rw [readUnnamed?, keyOf?]
  cases primaryKeyPattern.find? t with
  | some m =>
    dsimp only [Option.map_some]
    split
    · rename_i hempty
      simp [Option.filter, hempty]
    · rename_i hnonempty
      simp [Option.filter, hnonempty, key?]
  | none =>
    dsimp only [Option.map_none]
    split
    · rfl
    · split
      · exact key?_indexOf? _ _ _
      · split
        · exact key?_indexOf? _ _ _
        · rfl

theorem references_readUnnamed? (t : Text) (name : Option String) :
    (readUnnamed? t name).elim [] references = referencesIn t := by
  rw [readUnnamed?, referencesIn]
  cases hforeign : foreignKeyPattern.find? t with
  | some m =>
    rw [find?_primaryKeyPattern_of_foreignKey hforeign]
    exact referencesOf_eq m
  | none =>
    dsimp only
    split
    · split <;> rfl
    · split
      · exact references_indexOf? _ _ _
      · split
        · exact references_indexOf? _ _ _
        · rfl

theorem key?_read? (fragment : Text) :
    (read? fragment).bind key? = keyOf? (clause fragment) := by
  obtain ⟨label, hread⟩ := exists_read?_eq fragment
  rw [hread, key?_readUnnamed?]

theorem references_read? (fragment : Text) :
    (read? fragment).elim [] references = referencesIn (clause fragment) := by
  obtain ⟨label, hread⟩ := exists_read?_eq fragment
  rw [hread, references_readUnnamed?]

end Constraint

namespace Column

theorem name_withArguments (column : Column) (arguments : Text) :
    (column.withArguments arguments).name = column.name := by
  unfold withArguments
  split
  · rfl
  · split <;> rfl
  · rfl

theorem parse_eq_constraint_iff (fragment : Text) :
    parse fragment = .error .constraint ↔ isConstraint (trim fragment) = true := by
  unfold parse
  dsimp only
  by_cases hempty : (trim fragment).isEmpty = true
  · rw [if_pos hempty, List.isEmpty_iff.mp hempty]
    decide
  · rw [if_neg hempty]
    by_cases hconstraint : isConstraint (trim fragment) = true
    · simp [hconstraint]
    · rw [if_neg hconstraint]
      refine ⟨fun h => ?_, fun h => absurd h hconstraint⟩
      split at h
      · cases h
      · split at h
        · cases h
        · split at h <;> cases h

theorem name_ne_empty_of_parse {fragment : Text} {column : Column}
    (h : parse fragment = .ok column) : column.name ≠ "" := by
  have hname : ∀ m, namePattern.find? (trim fragment) = some m →
      String.ofList (m.textOf .name) ≠ "" := by
    intro m hm
    have htext : m.textOf .name ≠ [] :=
      textOf_ne_nil (by decide) (by decide) (reaches_of_findFrom? hm).2
    simpa using htext
  unfold parse at h
  dsimp only at h
  split at h
  · cases h
  · split at h
    · cases h
    · split at h
      · cases h
      · rename_i m hm
        have hne := hname m hm
        split at h
        · cases h
        · split at h
          · rw [← Except.ok.inj h]
            exact (name_withArguments _ _).trans_ne hne
          · rw [← Except.ok.inj h]
            exact hne

end Column

/-! ## What a fragment says -/

namespace Fragment

def column? (fragment : Text) : Option Column := (Column.parse fragment).toOption

/-- Why a fragment is skipped. -/
def issue? (fragment : Text) : Option ColumnIssue :=
  match Column.parse fragment with
  | .error .empty => some .empty
  | .error (.unknownType column found) => some (.unknownType column found)
  | _ => none

/-- The key that a fragment declares: its own column, or the columns of a clause. -/
def key? (fragment : Text) : Option (List String) :=
  match Column.parse fragment with
  | .ok column => if column.isPrimaryKey then some [column.name] else none
  | .error .constraint => Constraint.keyOf? (Constraint.clause fragment)
  | _ => none

/-- The references that a fragment declares: the one of its own column, or those of a clause. -/
def references (fragment : Text) : List ForeignKey :=
  match Column.parse fragment with
  | .ok column => column.reference.toList.map fun reference =>
      ⟨column.name, reference.table, reference.column.getD ""⟩
  | .error .constraint => Constraint.referencesIn (Constraint.clause fragment)
  | _ => []

def index? (fragment : Text) : Option Index :=
  match Column.parse fragment with
  | .error .constraint => (Constraint.read? fragment).bind Constraint.index?
  | _ => none

/-- The entry for a fragment that is skipped. -/
def skipped? (document : Text) (table : String) (line : Nat) (fragment : Text × Option Nat) :
    Option SkippedFragment :=
  (issue? fragment.1).map fun issue =>
    ⟨table, (fragment.2.map document.lineAt).getD line, String.ofList fragment.1, issue⟩

end Fragment

namespace Extraction

/-- What a fragment adds to the table that is being built. -/
theorem addFragment_eq (document : Text) (table : Table) (skipped : List SkippedFragment)
    (fragment : Text × Option Nat) :
    addFragment document (table, skipped) fragment =
      ({ table with
          columns := table.columns ++ (Fragment.column? fragment.1).toList
          primaryKey := (Fragment.key? fragment.1).or table.primaryKey
          foreignKeys := table.foreignKeys ++ Fragment.references fragment.1
          indexes := table.indexes ++ (Fragment.index? fragment.1).toList },
        skipped ++ (Fragment.skipped? document table.name table.line fragment).toList) := by
  unfold addFragment Fragment.column? Fragment.key? Fragment.references Fragment.index?
    Fragment.skipped? Fragment.issue?
  cases hparse : Column.parse fragment.1 with
  | ok column =>
    by_cases hkey : column.isPrimaryKey = true
    · simp [Table.withColumn, Except.toOption, hkey]
    · simp [Table.withColumn, Except.toOption, hkey]
  | error issue =>
    cases issue with
    | empty => simp [Except.toOption]
    | unknownType column found => simp [Except.toOption]
    | constraint =>
      rw [← Constraint.key?_read?, ← Constraint.references_read?]
      cases Constraint.read? fragment.1 with
      | none => simp [Except.toOption]
      | some constraint =>
        cases constraint with
        | primaryKey columns =>
          simp [Except.toOption, Table.withConstraint, Constraint.key?, Constraint.references,
            Constraint.index?]
        | foreignKeys keys =>
          simp [Except.toOption, Table.withConstraint, Constraint.key?, Constraint.references,
            Constraint.index?]
        | index added =>
          simp [Except.toOption, Table.withConstraint, Constraint.key?, Constraint.references,
            Constraint.index?]

theorem filterMap_cons_eq {α β : Type} (f : α → Option β) (a : α) (l : List α) :
    (a :: l).filterMap f = (f a).toList ++ l.filterMap f := by
  rw [List.filterMap_cons]
  cases f a <;> rfl

theorem foldl_addFragment_eq (document : Text) (fragments : List (Text × Option Nat))
    (table : Table) (skipped : List SkippedFragment) :
    fragments.foldl (addFragment document) (table, skipped) =
      ({ table with
          columns := table.columns ++ (fragments.map Prod.fst).filterMap Fragment.column?
          primaryKey :=
            ((fragments.map Prod.fst).filterMap Fragment.key?).getLast?.or table.primaryKey
          foreignKeys := table.foreignKeys ++ (fragments.map Prod.fst).flatMap Fragment.references
          indexes := table.indexes ++ (fragments.map Prod.fst).filterMap Fragment.index? },
        skipped ++ fragments.filterMap (Fragment.skipped? document table.name table.line)) := by
  induction fragments generalizing table skipped with
  | nil => simp
  | cons fragment more ih =>
    have hkey : ((Fragment.key? fragment.1).toList ++
          (more.map Prod.fst).filterMap Fragment.key?).getLast?.or table.primaryKey =
        ((more.map Prod.fst).filterMap Fragment.key?).getLast?.or
          ((Fragment.key? fragment.1).or table.primaryKey) := by
      rw [List.getLast?_append, Option.or_assoc]
      cases Fragment.key? fragment.1 <;> rfl
    rw [List.foldl_cons, addFragment_eq, ih, List.map_cons]
    simp only [filterMap_cons_eq, hkey, List.flatMap_cons, List.append_assoc]

theorem map_fst_locate (offset : Nat) (rest : Text) (fragments : List Text) :
    (locate offset rest fragments).map Prod.fst = fragments := by
  induction fragments generalizing offset rest with
  | nil => rfl
  | cons fragment more ih =>
    rw [locate]
    split
    · rw [List.map_cons, ih]
    · split
      · rw [List.map_cons, ih]
      · rw [List.map_cons, ih]

/-- A table and its skipped fragments, put together from what each fragment says. -/
theorem buildTable_eq (document : Text) (name : String) (line start : Nat) (body : Text) :
    buildTable document name line start body =
      ({ name, line
         columns := (body.segments ',').filterMap Fragment.column?
         primaryKey := ((body.segments ',').filterMap Fragment.key?).getLast?
         foreignKeys := (body.segments ',').flatMap Fragment.references
         indexes := (body.segments ',').filterMap Fragment.index? },
        (locate start body (body.segments ',')).filterMap
          (Fragment.skipped? document name line)) := by
  rw [buildTable, foldl_addFragment_eq, map_fst_locate]
  simp

/-! ## Columns of keys and indexes -/

/-- There are columns, and all of them have a name. -/
def Named (columns : List String) : Prop := columns ≠ [] ∧ "" ∉ columns

/-- The key and the indexes of a table have columns, and all of them have a name. -/
structure WellKeyed (table : Table) : Prop where
  key : ∀ columns, table.primaryKey = some columns → Named columns
  indexes : ∀ index ∈ table.indexes, Named index.columns

theorem named_columnNames {t : Text} (h : (columnNames t).isEmpty = false) :
    Named (columnNames t) := by
  refine ⟨by simpa using h, fun hmem => ?_⟩
  have hnonempty := (List.mem_filter.mp hmem).2
  cases hnonempty

theorem named_of_key? {fragment : Text} {columns : List String}
    (h : Fragment.key? fragment = some columns) : Named columns := by
  unfold Fragment.key? at h
  split at h
  · rename_i column hparse
    split at h
    · have hname := Column.name_ne_empty_of_parse hparse
      rw [← Option.some.inj h]
      exact ⟨List.cons_ne_nil _ _, by simpa using hname.symm⟩
    · cases h
  · rw [Constraint.keyOf?, Option.filter_eq_some_iff, Option.map_eq_some_iff] at h
    obtain ⟨⟨m, -, rfl⟩, hnonempty⟩ := h
    exact named_columnNames (by simpa using hnonempty)
  · cases h

theorem named_of_indexOf? {m : Match} {name : Option String} {unique : Bool} {index : Index}
    (h : (Constraint.indexOf? m name unique).bind Constraint.index? = some index) :
    Named index.columns := by
  rw [Constraint.indexOf?] at h
  split at h
  · cases h
  · rename_i hnonempty
    rw [← Option.some.inj h]
    exact named_columnNames (by simpa using hnonempty)

theorem named_of_index? {fragment : Text} {index : Index}
    (h : Fragment.index? fragment = some index) : Named index.columns := by
  unfold Fragment.index? at h
  split at h
  · obtain ⟨label, hread⟩ := Constraint.exists_read?_eq fragment
    rw [hread, Constraint.readUnnamed?] at h
    split at h
    · dsimp only at h
      split at h <;> cases h
    · split at h
      · cases h
      · split at h
        · exact named_of_indexOf? h
        · split at h
          · exact named_of_indexOf? h
          · cases h
  · cases h

theorem wellKeyed_buildTable (document : Text) (name : String) (line start : Nat) (body : Text) :
    WellKeyed (buildTable document name line start body).1 := by
  rw [buildTable_eq]
  constructor
  · intro columns hcolumns
    obtain ⟨fragment, -, hkey⟩ := List.mem_filterMap.mp (List.mem_of_getLast? hcolumns)
    exact named_of_key? hkey
  · intro index hindex
    obtain ⟨fragment, -, hfragment⟩ := List.mem_filterMap.mp hindex
    exact named_of_index? hfragment

theorem wellKeyed_addTable {document : Text} {found : Extraction}
    (h : ∀ table ∈ found.tables, WellKeyed table) (m : Match) :
    ∀ table ∈ (addTable document found m).tables, WellKeyed table := by
  unfold addTable
  split
  · exact h
  · exact List.forall_mem_append.mpr
      ⟨h, List.forall_mem_singleton.mpr (wellKeyed_buildTable _ _ _ _ _)⟩

theorem forall_mem_modifyFirst {α : Type} {P : α → Prop} {test : α → Bool} {change : α → α}
    (hchange : ∀ a, P a → P (change a)) {l : List α} (h : ∀ a ∈ l, P a) :
    ∀ a ∈ modifyFirst test change l, P a := by
  induction l with
  | nil => exact h
  | cons a rest ih =>
    rw [List.forall_mem_cons] at h
    rw [modifyFirst]
    split
    · exact List.forall_mem_cons.mpr ⟨hchange a h.1, h.2⟩
    · exact List.forall_mem_cons.mpr ⟨h.1, ih h.2⟩

theorem wellKeyed_addIndex {tables : List Table} (h : ∀ table ∈ tables, WellKeyed table)
    (m : Match) : ∀ table ∈ addIndex tables m, WellKeyed table := by
  unfold addIndex
  dsimp only
  split
  · exact h
  · split
    · exact h
    · rename_i hnonempty
      refine forall_mem_modifyFirst (fun table htable => ⟨htable.key, ?_⟩) h
      refine List.forall_mem_append.mpr ⟨htable.indexes, List.forall_mem_singleton.mpr ?_⟩
      exact named_columnNames (by simpa using hnonempty)

theorem wellKeyed_resolveReferences {tables : List Table} (h : ∀ table ∈ tables, WellKeyed table) :
    ∀ table ∈ resolveReferences tables, WellKeyed table := by
  intro table htable
  obtain ⟨declared, hdeclared, rfl⟩ := List.mem_map.mp htable
  exact ⟨(h declared hdeclared).key, (h declared hdeclared).indexes⟩

theorem wellKeyed_ofText (sql : Text) : ∀ table ∈ (ofText sql).tables, WellKeyed table := by
  have hfound := List.foldlRecOn
    (motive := fun found : Extraction => ∀ table ∈ found.tables, WellKeyed table)
    (createTablePattern.findAll (sql.blankComments false)) (addTable (sql.blankComments false))
    (by simp : ∀ table ∈ ({} : Extraction).tables, WellKeyed table)
    fun found h m _ => wellKeyed_addTable h m
  apply wellKeyed_resolveReferences
  exact List.foldlRecOn (motive := fun tables => ∀ table ∈ tables, WellKeyed table) _ addIndex
    hfound fun tables h m _ => wellKeyed_addIndex h m

/-! ## The account of a table -/

theorem isConstraint_iff {t fragment : Text} (h : fragment ∈ t.segments ',') :
    Fragment.column? fragment = none ∧ Fragment.issue? fragment = none ↔
      Column.isConstraint fragment = true := by
  have hconstraint := Column.parse_eq_constraint_iff fragment
  rw [trim_of_mem_segments h] at hconstraint
  rw [← hconstraint]
  unfold Fragment.column? Fragment.issue?
  cases Column.parse fragment with
  | ok column => simp [Except.toOption]
  | error issue => cases issue <;> simp [Except.toOption]

theorem map_skipped_buildTable (document : Text) (name : String) (line start : Nat) (body : Text) :
    (buildTable document name line start body).2.map (fun s => (s.table, s.fragment, s.issue)) =
      (body.segments ',').filterMap fun fragment =>
        (Fragment.issue? fragment).map fun issue => (name, String.ofList fragment, issue) := by
  rw [buildTable_eq]
  conv_rhs => rw [← map_fst_locate start body (body.segments ',')]
  rw [List.map_filterMap, List.filterMap_map]
  congr 1
  funext fragment
  show ((Fragment.issue? fragment.1).map _).map _ = _
  rw [Option.map_map]
  rfl

/-- Every fragment of a definition is accounted for. -/
theorem buildTable_accounts :
    (∀ (document : Text) (name : String) (line start : Nat) (body : Text),
      (buildTable document name line start body).1 =
        { name, line
          columns := (body.segments ',').filterMap Fragment.column?
          primaryKey := ((body.segments ',').filterMap Fragment.key?).getLast?
          foreignKeys := (body.segments ',').flatMap Fragment.references
          indexes := (body.segments ',').filterMap Fragment.index? } ∧
      (buildTable document name line start body).2.map (fun s => (s.table, s.fragment, s.issue)) =
        ((body.segments ',').filterMap fun fragment =>
          (Fragment.issue? fragment).map fun issue => (name, String.ofList fragment, issue)) ∧
      (∀ fragment ∈ body.segments ',',
        Fragment.column? fragment = none ∧ Fragment.issue? fragment = none ↔
          Column.isConstraint fragment = true) ∧
      WellKeyed (buildTable document name line start body).1) ∧
    ∀ sql : Text, ∀ table ∈ (ofText sql).tables, WellKeyed table := by
  refine ⟨fun document name line start body => ⟨?_, ?_, ?_, ?_⟩, wellKeyed_ofText⟩
  · rw [buildTable_eq]
  · exact map_skipped_buildTable document name line start body
  · exact fun fragment h => isConstraint_iff h
  · exact wellKeyed_buildTable document name line start body

end Extraction
end SqlAudit
