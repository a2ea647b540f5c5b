import Mathlib.Data.List.FinRange
import Mathlib.Data.List.Forall2
import Mathlib.Data.List.Pairwise
import SqlAudit.Proofs.Text.Identifier
import SqlAudit.Schema.Extraction

/-!
References that do not name their target column.  They take it from the key of the table that they
refer to.  All keys are read from the tables as they were declared, so neither the order of the
tables nor a second pass makes a difference, as long as a name belongs to one table only.
-/

namespace SqlAudit

theorem sameName_of_findTable? {tables : List Table} {name : String} {table : Table}
    (h : findTable? tables name = some table) : sameName table.name name = true := by
  have hfound := List.find?_some h
  exact hfound

namespace Extraction

/-- No two tables have the same name, whatever the case. -/
def DistinctNames (tables : List Table) : Prop :=
  tables.Pairwise fun a b => sameName a.name b.name = false

instance (tables : List Table) : Decidable (DistinctNames tables) :=
  inferInstanceAs (Decidable (List.Pairwise _ _))

/-- Some table of a name has a column as its whole key. -/
def KeyedBy (tables : List Table) (name column : String) : Prop :=
  ∃ owner ∈ tables, sameName owner.name name = true ∧ owner.primaryKey = some [column]

/-- What becomes of a reference among some tables: an open target is filled by the column that is
the whole key of the table referred to, and by nothing else. -/
structure Completed (tables : List Table) (key completed : ForeignKey) : Prop where
  column_eq : completed.column = key.column
  table_eq : completed.table = key.table
  kept : key.target ≠ "" → completed.target = key.target
  filled : key.target = "" → ∀ column, column ≠ "" →
    (completed.target = column ↔ KeyedBy tables key.table column)

/-- A table whose references are completed among some tables. -/
def withCompleted (tables : List Table) (table : Table) : Table :=
  { table with foreignKeys := table.foreignKeys.map (resolveKey tables) }

theorem resolveReferences_eq_map (tables : List Table) :
    resolveReferences tables = tables.map (withCompleted tables) := rfl

/-! ## Looking up tables -/

section

variable {tables others : List Table} (hdistinct : DistinctNames tables)

include hdistinct

theorem eq_of_sameName {a b : Table} (ha : a ∈ tables) (hb : b ∈ tables)
    (hname : sameName a.name b.name = true) : a = b := by
  by_contra hne
  have : Std.Symm fun a b : Table => sameName a.name b.name = false :=
    ⟨fun x y h => by rwa [sameName_comm]⟩
  have hdiffer : sameName a.name b.name = false := List.Pairwise.forall hdistinct ha hb hne
  rw [hname] at hdiffer
  cases hdiffer

theorem findTable?_eq_some_iff (name : String) (table : Table) :
    findTable? tables name = some table ↔ table ∈ tables ∧ sameName table.name name = true := by
  constructor
  · intro h
    exact ⟨List.mem_of_find?_eq_some h, sameName_of_findTable? h⟩
  · rintro ⟨hmem, hname⟩
    cases hfind : findTable? tables name with
    | none => exact absurd hname (List.find?_eq_none.mp hfind table hmem)
    | some other =>
      rw [eq_of_sameName hdistinct (List.mem_of_find?_eq_some hfind) hmem
        (sameName_trans (sameName_of_findTable? hfind) (sameName_symm hname))]

theorem findTable?_perm (hperm : tables.Perm others) (name : String) :
    findTable? tables name = findTable? others name := by
  have hothers : DistinctNames others := by
    refine hperm.pairwise hdistinct fun h => ?_
    rwa [sameName_comm]
  apply Option.ext
  intro table
  rw [findTable?_eq_some_iff hdistinct, findTable?_eq_some_iff hothers, hperm.mem_iff]

theorem resolveKey_perm (hperm : tables.Perm others) : resolveKey tables = resolveKey others := by
  funext key
  rw [resolveKey, resolveKey, findTable?_perm hdistinct hperm]

theorem bind_soleKey?_eq_some_iff (name column : String) :
    (findTable? tables name).bind soleKey? = some column ↔ KeyedBy tables name column := by
  have hsole : ∀ table : Table, soleKey? table = some column ↔
      table.primaryKey = some [column] := by
    intro table
    unfold soleKey?
    split
    · rename_i key hkey
      simp [hkey]
    · rename_i hnone
      constructor
      · intro h
        cases h
      · exact fun h => absurd h (hnone column)
  rw [Option.bind_eq_some_iff]
  constructor
  · rintro ⟨owner, hfind, hkey⟩
    obtain ⟨hmem, hname⟩ := (findTable?_eq_some_iff hdistinct name owner).mp hfind
    exact ⟨owner, hmem, hname, (hsole owner).mp hkey⟩
  · rintro ⟨owner, hmem, hname, hkey⟩
    exact ⟨owner, (findTable?_eq_some_iff hdistinct name owner).mpr ⟨hmem, hname⟩,
      (hsole owner).mpr hkey⟩

theorem withCompleted_perm (hperm : tables.Perm others) :
    withCompleted tables = withCompleted others := by
  funext table
  rw [withCompleted, withCompleted, resolveKey_perm hdistinct hperm]

/-- One reference after the other is completed. -/
theorem completed_resolveKey (key : ForeignKey) : Completed tables key (resolveKey tables key) := by
  by_cases htarget : key.target = ""
  · have hresolve : resolveKey tables key =
        { key with target := ((findTable? tables key.table).bind soleKey?).getD "" } := by
      rw [resolveKey, if_pos (by rw [htarget]; rfl)]
    rw [hresolve]
    refine ⟨rfl, rfl, fun hne => absurd htarget hne, fun _ column hcolumn => ?_⟩
    show ((findTable? tables key.table).bind soleKey?).getD "" = column ↔ _
    rw [← bind_soleKey?_eq_some_iff hdistinct]
    cases (findTable? tables key.table).bind soleKey? with
    | none => simpa using Ne.symm hcolumn
    | some found => simp
  · have hresolve : resolveKey tables key = key := by
      rw [resolveKey, if_neg (by simpa using htarget)]
    rw [hresolve]
    exact ⟨rfl, rfl, fun _ => rfl, fun h => absurd h htarget⟩

theorem forall₂_completed_withCompleted (table : Table) :
    List.Forall₂ (Completed tables) table.foreignKeys (withCompleted tables table).foreignKeys := by
  rw [withCompleted, List.forall₂_map_right_iff, List.forall₂_same]
  exact fun key _ => completed_resolveKey hdistinct key

end

/-! ## A second pass -/

/-- References are completed by names and keys alone. -/
theorem resolveKey_congr {tables others : List Table}
    (h : tables.map (fun table => (table.name, table.primaryKey)) =
      others.map fun table => (table.name, table.primaryKey)) :
    resolveKey tables = resolveKey others := by
  have hkey : ∀ (l : List Table) (name : String), (findTable? l name).bind soleKey? =
      ((l.map fun table => (table.name, table.primaryKey)).find? fun entry =>
        sameName entry.1 name).bind fun entry =>
          soleKey? { name := entry.1, primaryKey := entry.2, line := 0 } := by
    intro l name
    rw [List.find?_map, Option.bind_map]
    rfl
  funext key
  rw [resolveKey, resolveKey, hkey, hkey, h]

theorem resolveKey_resolveKey (tables : List Table) (key : ForeignKey) :
    resolveKey tables (resolveKey tables key) = resolveKey tables key := by
  by_cases htarget : key.target.isEmpty = true
  · rw [resolveKey, resolveKey, if_pos htarget]
    split <;> rfl
  · have hresolve : resolveKey tables key = key := by rw [resolveKey, if_neg htarget]
    rw [hresolve, hresolve]

theorem resolveReferences_resolveReferences (tables : List Table) :
    resolveReferences (resolveReferences tables) = resolveReferences tables := by
  have hkeys : resolveKey (resolveReferences tables) = resolveKey tables := by
    apply resolveKey_congr
    rw [resolveReferences, List.map_map]
    rfl
  rw [resolveReferences, hkeys, resolveReferences, List.map_map]
  apply List.map_congr_left
  intro table _
  simp [Function.comp_def, resolveKey_resolveKey]

/-! ## The order of the tables -/

/-- What becomes of each table does not depend on the order in which the tables are declared, only
the open targets of its references are filled, and a second pass changes nothing. -/
theorem resolveReferences_comp_perm {n : Nat} (tables : Fin n → Table)
    (hdistinct : DistinctNames (List.ofFn tables)) :
    ∃ resolved : Fin n → Table,
      (∀ σ : Equiv.Perm (Fin n),
        resolveReferences (List.ofFn (tables ∘ σ)) = List.ofFn (resolved ∘ σ)) ∧
      (∀ i, resolved i = { tables i with foreignKeys := (resolved i).foreignKeys } ∧
        List.Forall₂ (Completed (List.ofFn tables)) (tables i).foreignKeys
          (resolved i).foreignKeys) ∧
      resolveReferences (List.ofFn resolved) = List.ofFn resolved := by
  have hperm : ∀ σ : Equiv.Perm (Fin n), resolveReferences (List.ofFn (tables ∘ σ)) =
      List.ofFn ((withCompleted (List.ofFn tables) ∘ tables) ∘ σ) := by
    intro σ
    rw [resolveReferences_eq_map,
      ← withCompleted_perm hdistinct (σ.ofFn_comp_perm tables).symm, List.map_ofFn]
    rfl
  have hself : resolveReferences (List.ofFn tables) =
      List.ofFn (withCompleted (List.ofFn tables) ∘ tables) := hperm (Equiv.refl _)
  refine ⟨withCompleted (List.ofFn tables) ∘ tables, hperm, fun i => ⟨rfl, ?_⟩, ?_⟩
  · exact forall₂_completed_withCompleted hdistinct (tables i)
  · rw [← hself, resolveReferences_resolveReferences]

/-- Two tables that refer to each other and to themselves, in names of another case. -/
def linkedTables : Fin 2 → Table
  | 0 => { name := "orders", primaryKey := some ["id", "line"], line := 1
           foreignKeys := [⟨"user", "USERS", ""⟩, ⟨"parent", "orders", ""⟩] }
  | 1 => { name := "Users", primaryKey := some ["uid"], line := 2
           foreignKeys := [⟨"boss", "users", ""⟩, ⟨"last", "Orders", "id"⟩] }

theorem resolveReferences_swapped_tables :
    DistinctNames (List.ofFn linkedTables) ∧
    (resolveReferences [linkedTables 1, linkedTables 0]).map Table.foreignKeys =
      [[⟨"boss", "users", "uid"⟩, ⟨"last", "Orders", "id"⟩],
       [⟨"user", "USERS", "uid"⟩, ⟨"parent", "orders", ""⟩]] := by
  have hdistinct : DistinctNames (List.ofFn linkedTables) := by decide +kernel
  obtain ⟨resolved, hperm, -, -⟩ := resolveReferences_comp_perm linkedTables hdistinct
  have hswap : resolveReferences [linkedTables 1, linkedTables 0] = [resolved 1, resolved 0] := by
    simpa using hperm (Equiv.swap 0 1)
  have hself : resolveReferences [linkedTables 0, linkedTables 1] = [resolved 0, resolved 1] := by
    simpa using hperm (Equiv.refl _)
  have hkeys : (resolveReferences [linkedTables 0, linkedTables 1]).map Table.foreignKeys =
      [[⟨"user", "USERS", "uid"⟩, ⟨"parent", "orders", ""⟩],
       [⟨"boss", "users", "uid"⟩, ⟨"last", "Orders", "id"⟩]] := by
    decide +kernel
  rw [hself] at hkeys
  simp only [List.map_cons, List.map_nil, List.cons.injEq, and_true] at hkeys
  rw [hswap, List.map_cons, List.map_cons, List.map_nil, hkeys.1, hkeys.2]
  exact ⟨hdistinct, rfl⟩

end Extraction
end SqlAudit
