import SqlAudit.Proofs.Text.CaseFolding
import SqlAudit.Report.IndexSuggestion

/-!
The indexes that a report suggests.  Two loops gather them: findings on missing indexes are tallied
column by column, then references are added that nothing covers yet.  For each loop an invariant says
that entries stay apart, that none is lost and where each one comes from; one step keeps it, and so
does a whole run.
-/

namespace SqlAudit

open Text

/-! ## Keys and indexes of tables -/

namespace Table

variable {table : Table} {name : String}

theorem leads_iff {columns : List String} : leads columns name = true ↔
    ∃ first rest, columns = first :: rest ∧ sameName first name = true := by
  cases columns <;> simp [leads]

/-- The columns of the key, whatever the case of their letters. -/
theorem isKeyColumn_iff : table.isKeyColumn name = true ↔
    ∃ key, table.primaryKey = some key ∧ ∃ column ∈ key, sameName column name = true := by
  simp only [isKeyColumn, Option.any_eq_true, List.any_eq_true]

theorem hasLeadingIndex_iff : table.hasLeadingIndex name = true ↔
    (∃ first rest, table.primaryKey = some (first :: rest) ∧ sameName first name = true) ∨
    (∃ index ∈ table.indexes, ∃ first rest, index.columns = first :: rest ∧
      sameName first name = true) ∨
    ∃ column, table.column? name = some column ∧
      (column.isUnique = true ∨ column.isPrimaryKey = true) := by
  have hkey : table.primaryKey.any (leads · name) = true ↔
      ∃ first rest, table.primaryKey = some (first :: rest) ∧ sameName first name = true := by
    rw [Option.any_eq_true]
    constructor
    · rintro ⟨key, hkey, hleads⟩
      obtain ⟨first, rest, rfl, hfirst⟩ := leads_iff.mp hleads
      exact ⟨first, rest, hkey, hfirst⟩
    · rintro ⟨first, rest, hkey, hfirst⟩
      exact ⟨first :: rest, hkey, hfirst⟩
  rw [hasLeadingIndex, Bool.or_eq_true, Bool.or_eq_true, or_assoc, hkey]
  simp only [List.any_eq_true, Option.any_eq_true, leads_iff, Bool.or_eq_true]

theorem isKeyColumn_congr (table : Table) {x y : String} (h : sameName x y = true) :
    table.isKeyColumn x = table.isKeyColumn y := by
  rw [Bool.eq_iff_iff, isKeyColumn_iff, isKeyColumn_iff]
  simp only [sameName_congr_right h]

theorem hasLeadingIndex_congr (table : Table) {x y : String} (h : sameName x y = true) :
    table.hasLeadingIndex x = table.hasLeadingIndex y := by
  simp only [hasLeadingIndex, leads, column?, sameName_congr_right h]

end Table

namespace IndexSuggestion

/-! ## Columns up to case -/

theorem sameTarget_iff (a b : Target) : sameTarget a b = true ↔
    sameName a.table b.table = true ∧ sameName a.column b.column = true := by
  rw [sameTarget, Bool.and_eq_true]

theorem sameTarget_refl (a : Target) : sameTarget a a = true := by
  rw [sameTarget, sameName_refl, sameName_refl]
  rfl

theorem sameTarget_symm {a b : Target} (h : sameTarget a b = true) : sameTarget b a = true := by
  rw [sameTarget_iff] at h ⊢
  exact ⟨sameName_symm h.1, sameName_symm h.2⟩

theorem sameTarget_trans {a b c : Target} (hab : sameTarget a b = true)
    (hbc : sameTarget b c = true) : sameTarget a c = true := by
  rw [sameTarget_iff] at hab hbc ⊢
  exact ⟨sameName_trans hab.1 hbc.1, sameName_trans hab.2 hbc.2⟩

theorem sameTarget_comm (a b : Target) : sameTarget a b = sameTarget b a :=
  Bool.eq_iff_iff.mpr ⟨sameTarget_symm, sameTarget_symm⟩

theorem sameTarget_congr_right {b c : Target} (h : sameTarget b c = true) (a : Target) :
    sameTarget a b = sameTarget a c := by
  rw [sameTarget_iff] at h
  rw [sameTarget, sameTarget, sameName_congr_right h.1, sameName_congr_right h.2]

theorem covers_iff (s : IndexSuggestion) (table column : String) :
    s.covers table column = true ↔
      ∃ own, s.columns = [own] ∧ sameTarget ⟨s.table, own⟩ ⟨table, column⟩ = true := by
  obtain ⟨owner, columns, reason⟩ := s
  match columns with
  | [] => simp [covers]
  | [own] => simp [covers, sameTarget]
  | _ :: _ :: _ => simp [covers]

/-- No column is covered by both. -/
def Apart (s s' : IndexSuggestion) : Prop :=
  ∀ table column, s.covers table column = true → s'.covers table column = false

theorem apart_of_sameTarget_eq_false {s s' : IndexSuggestion} {own own' : String}
    (hs : s.columns = [own]) (hs' : s'.columns = [own'])
    (h : sameTarget ⟨s.table, own⟩ ⟨s'.table, own'⟩ = false) : Apart s s' := by
  intro table column hcovers
  rw [Bool.eq_false_iff]
  intro hcovers'
  obtain ⟨_, hown, hsame⟩ := (covers_iff s table column).mp hcovers
  obtain ⟨_, hown', hsame'⟩ := (covers_iff s' table column).mp hcovers'
  rw [hs, List.singleton_inj] at hown
  rw [hs', List.singleton_inj] at hown'
  subst hown hown'
  rw [sameTarget_trans hsame (sameTarget_symm hsame')] at h
  cases h

/-! ## Tallies -/

/-- Each column of some targets is counted once, in the spelling of one of them, with the number of
targets that name it. -/
structure Tallies (targets : List Target) (counts : List (Target × Nat)) : Prop where
  distinct : (counts.map Prod.fst).Pairwise fun a b => sameTarget a b = false
  counted : ∀ entry ∈ counts,
    entry.1 ∈ targets ∧ entry.2 = targets.countP (sameTarget entry.1)
  complete : ∀ target ∈ targets, ∃ entry ∈ counts, sameTarget entry.1 target = true

/-- A target is added at the end, or it raises the count of the one entry that names it. -/
theorem countTarget_cases (counts : List (Target × Nat)) (target : Target) :
    ((∀ entry ∈ counts, sameTarget entry.1 target = false) ∧
      countTarget counts target = counts ++ [(target, 1)]) ∨
    ∃ front known count back, counts = front ++ (known, count) :: back ∧
      sameTarget known target = true ∧
      countTarget counts target = front ++ (known, count + 1) :: back := by
  induction counts with
  | nil => exact .inl ⟨by simp, rfl⟩
  | cons entry rest ih =>
    obtain ⟨known, count⟩ := entry
    rw [countTarget]
    by_cases hknown : sameTarget known target = true
    · rw [if_pos hknown]
      exact .inr ⟨[], known, count, rest, rfl, hknown, rfl⟩
    · rw [if_neg hknown]
      rcases ih with ⟨hnew, heq⟩ | ⟨front, other, count', back, rfl, hother, heq⟩
      · rw [heq]
        exact .inl ⟨List.forall_mem_cons.mpr ⟨Bool.eq_false_iff.mpr hknown, hnew⟩, rfl⟩
      · rw [heq]
        exact .inr ⟨(known, count) :: front, other, count', back, rfl, hother, rfl⟩

namespace Tallies

variable {targets : List Target} {counts : List (Target × Nat)}

/-- A column that no entry names is named by none of the targets. -/
theorem countP_eq_zero (h : Tallies targets counts) {target : Target}
    (hnew : ∀ entry ∈ counts, sameTarget entry.1 target = false) :
    targets.countP (sameTarget target) = 0 := by
  rw [List.countP_eq_zero]
  intro other hother hsame
  obtain ⟨entry, hentry, hnamed⟩ := h.complete other hother
  have hknown := sameTarget_trans hnamed (sameTarget_symm hsame)
  rw [hnew entry hentry] at hknown
  cases hknown

theorem countP_append_singleton (targets : List Target) (own target : Target) :
    (targets ++ [target]).countP (sameTarget own) =
      targets.countP (sameTarget own) + if sameTarget own target then 1 else 0 := by
  rw [List.countP_append, List.countP_singleton]

/-- An entry that does not name the new target keeps its count. -/
theorem counted_append (h : Tallies targets counts) {target : Target} {entry : Target × Nat}
    (hentry : entry ∈ counts) (hother : sameTarget entry.1 target = false) :
    entry.1 ∈ targets ++ [target] ∧
      entry.2 = (targets ++ [target]).countP (sameTarget entry.1) := by
  obtain ⟨hmem, hvalue⟩ := h.counted entry hentry
  refine ⟨List.mem_append_left _ hmem, ?_⟩
  rw [countP_append_singleton, hother, hvalue]
  rfl

theorem add (h : Tallies targets counts) {target : Target}
    (hnew : ∀ entry ∈ counts, sameTarget entry.1 target = false) :
    Tallies (targets ++ [target]) (counts ++ [(target, 1)]) where
  distinct := by
    rw [List.map_append, List.pairwise_append]
    refine ⟨h.distinct, List.pairwise_singleton _ _, ?_⟩
    simpa using fun a n hentry => hnew (a, n) hentry
  counted := by
    simp only [List.mem_append, List.mem_singleton]
    rintro entry (hentry | rfl)
    · simpa using h.counted_append hentry (hnew entry hentry)
    · rw [countP_append_singleton, h.countP_eq_zero hnew, sameTarget_refl]
      exact ⟨.inr rfl, rfl⟩
  complete := by
    simp only [List.mem_append, List.mem_singleton]
    rintro other (hother | rfl)
    · obtain ⟨entry, hentry, hnamed⟩ := h.complete other hother
      exact ⟨entry, .inl hentry, hnamed⟩
    · exact ⟨(other, 1), .inr rfl, sameTarget_refl other⟩

theorem raise {front back : List (Target × Nat)} {known target : Target} {count : Nat}
    (h : Tallies targets (front ++ (known, count) :: back))
    (hknown : sameTarget known target = true) :
    Tallies (targets ++ [target]) (front ++ (known, count + 1) :: back) where
  distinct := by simpa using h.distinct
  counted := by
    have hdistinct := h.distinct
    rw [List.map_append, List.map_cons, List.pairwise_append, List.pairwise_cons] at hdistinct
    obtain ⟨-, ⟨hback, -⟩, hfront⟩ := hdistinct
    simp only [List.mem_append, List.mem_cons]
    rintro entry (hentry | rfl | hentry)
    · have hother := hfront entry.1 (List.mem_map_of_mem hentry) known List.mem_cons_self
      rw [sameTarget_congr_right hknown] at hother
      simpa using h.counted_append (List.mem_append_left _ hentry) hother
    · obtain ⟨hmem, hvalue⟩ := h.counted (known, count) (by simp)
      rw [countP_append_singleton, hknown, ← hvalue]
      exact ⟨.inl hmem, rfl⟩
    · have hother := hback entry.1 (List.mem_map_of_mem hentry)
      rw [sameTarget_comm, sameTarget_congr_right hknown] at hother
      simpa using h.counted_append
        (List.mem_append_right _ (List.mem_cons_of_mem _ hentry)) hother
  complete := by
    intro other hother
    rcases List.mem_append.mp hother with hother | hother
    · obtain ⟨entry, hentry, hnamed⟩ := h.complete other hother
      -- The names of the entries are the same as before.
      have hname : entry.1 ∈ (front ++ (known, count + 1) :: back).map Prod.fst := by
        simpa using List.mem_map_of_mem (f := Prod.fst) hentry
      obtain ⟨entry', hentry', hsame⟩ := List.mem_map.mp hname
      exact ⟨entry', hentry', hsame ▸ hnamed⟩
    · rw [List.mem_singleton.mp hother]
      exact ⟨(known, count + 1), by simp, hknown⟩

theorem step (h : Tallies targets counts) (target : Target) :
    Tallies (targets ++ [target]) (countTarget counts target) := by
  rcases countTarget_cases counts target with
    ⟨hnew, heq⟩ | ⟨front, known, count, back, rfl, hknown, heq⟩
  · rw [heq]
    exact h.add hnew
  · rw [heq]
    exact h.raise hknown

theorem foldl (h : Tallies targets counts) (more : List Target) :
    Tallies (targets ++ more) (more.foldl countTarget counts) := by
  induction more generalizing targets counts with
  | nil =>
    rw [List.append_nil]
    exact h
  | cons target more ih =>
    have hrest := ih (h.step target)
    rwa [List.append_assoc, List.singleton_append] at hrest

end Tallies

def missedTargets (findings : List Finding) : List Target :=
  (findings.filter fun f => f.rule == SchemaCheck.missingIndex.id).filterMap Finding.target

theorem mem_missedTargets {findings : List Finding} {target : Target} :
    target ∈ missedTargets findings ↔
      ∃ f ∈ findings, f.rule = SchemaCheck.missingIndex.id ∧ f.target = some target := by
  simp [missedTargets, and_assoc]

theorem tallies_filteredColumns (findings : List Finding) :
    Tallies (missedTargets findings) (filteredColumns findings) := by
  have hnone : Tallies [] [] := ⟨.nil, by simp, by simp⟩
  exact hnone.foldl (missedTargets findings)

/-- How many findings on missing indexes are about a column, whatever the case of its letters. -/
def countAbout (findings : List Finding) (target : Target) : Nat :=
  findings.countP fun f =>
    f.rule == SchemaCheck.missingIndex.id && f.target.any (sameTarget target)

theorem countP_missedTargets (findings : List Finding) (target : Target) :
    (missedTargets findings).countP (sameTarget target) = countAbout findings target := by
  rw [missedTargets, List.countP_filterMap, List.countP_filter, countAbout]
  congr 1
  funext f
  cases f.target <;> simp [Bool.and_comm]

/-! ## References -/

/-- A reference to which an index belongs: its column is declared, and no index starts with it. -/
def Unserved (entry : Table × ForeignKey) : Prop :=
  (entry.1.column? entry.2.column).isSome = true ∧
    entry.1.hasLeadingIndex entry.2.column = false

/-- Suggestions that go on from those for filtered columns with one for each reference that needs
it. -/
structure Gathers (filtered : List IndexSuggestion) (entries : List (Table × ForeignKey))
    (found : List IndexSuggestion) : Prop where
  apart : found.Pairwise Apart
  single : ∀ s ∈ found, ∃ own, s.columns = [own]
  kept : ∀ s ∈ filtered, s ∈ found
  justified : ∀ s ∈ found,
    s ∈ filtered ∨ ∃ entry ∈ entries, Unserved entry ∧ s = ofReference entry.1 entry.2
  complete : ∀ entry ∈ entries, Unserved entry →
    ∃ s ∈ found, s.covers entry.1.name entry.2.column = true

/-- A reference is added exactly if it needs an index and nothing covers it. -/
theorem addReference_cases (found : List IndexSuggestion) (entry : Table × ForeignKey) :
    (addReference found entry.1 entry.2 = found ∧ (Unserved entry →
      ∃ s ∈ found, s.covers entry.1.name entry.2.column = true)) ∨
    (addReference found entry.1 entry.2 = found ++ [ofReference entry.1 entry.2] ∧
      Unserved entry ∧ ∀ s ∈ found, s.covers entry.1.name entry.2.column = false) := by
  rw [addReference]
  split
  · rename_i hcond
    refine .inl ⟨rfl, fun hunserved => ?_⟩
    rw [Bool.or_eq_true, Bool.or_eq_true, hunserved.2] at hcond
    rcases hcond with (hnone | hindex) | hcovered
    · rw [Option.isNone_iff_eq_none] at hnone
      rw [Unserved, hnone] at hunserved
      cases hunserved.1
    · cases hindex
    · exact List.any_eq_true.mp hcovered
  · rename_i hcond
    simp only [Bool.or_eq_true, not_or, Bool.not_eq_true, List.any_eq_false] at hcond
    refine .inr ⟨rfl, ⟨?_, hcond.1.2⟩, hcond.2⟩
    rw [← Option.not_isNone, hcond.1.1]
    rfl

namespace Gathers

variable {filtered found : List IndexSuggestion} {entries : List (Table × ForeignKey)}

theorem step (h : Gathers filtered entries found) (entry : Table × ForeignKey) :
    Gathers filtered (entries ++ [entry]) (addReference found entry.1 entry.2) := by
  have hjustified : ∀ s ∈ found, s ∈ filtered ∨
      ∃ other ∈ entries ++ [entry], Unserved other ∧ s = ofReference other.1 other.2 := by
    intro s hs
    rcases h.justified s hs with hs | ⟨other, hother, hs⟩
    · exact .inl hs
    · exact .inr ⟨other, List.mem_append_left _ hother, hs⟩
  rcases addReference_cases found entry with ⟨heq, hcovered⟩ | ⟨heq, hunserved, hfree⟩
  · rw [heq]
    refine ⟨h.apart, h.single, h.kept, hjustified, fun other hother hneeds => ?_⟩
    rcases List.mem_append.mp hother with hother | hother
    · exact h.complete other hother hneeds
    · rw [List.mem_singleton.mp hother] at hneeds ⊢
      exact hcovered hneeds
  · rw [heq]
    refine ⟨?_, ?_, fun s hs => List.mem_append_left _ (h.kept s hs), ?_, ?_⟩
    · rw [List.pairwise_append]
      refine ⟨h.apart, List.pairwise_singleton _ _, fun s hs new hnew => ?_⟩
      rw [List.mem_singleton.mp hnew]
      obtain ⟨own, hown⟩ := h.single s hs
      apply apart_of_sameTarget_eq_false hown rfl
      have hnone := hfree s hs
      rw [Bool.eq_false_iff] at hnone ⊢
      exact fun hsame => hnone ((covers_iff s _ _).mpr ⟨own, hown, hsame⟩)
    · intro s hs
      rcases List.mem_append.mp hs with hs | hs
      · exact h.single s hs
      · rw [List.mem_singleton.mp hs]
        exact ⟨entry.2.column, rfl⟩
    · intro s hs
      rcases List.mem_append.mp hs with hs | hs
      · exact hjustified s hs
      · exact .inr ⟨entry, List.mem_append_right _ List.mem_cons_self, hunserved,
          List.mem_singleton.mp hs⟩
    · intro other hother hneeds
      rcases List.mem_append.mp hother with hother | hother
      · obtain ⟨s, hs, hcovers⟩ := h.complete other hother hneeds
        exact ⟨s, List.mem_append_left _ hs, hcovers⟩
      · rw [List.mem_singleton.mp hother]
        refine ⟨_, List.mem_append_right _ List.mem_cons_self, ?_⟩
        exact (covers_iff _ _ _).mpr ⟨entry.2.column, rfl, sameTarget_refl _⟩

theorem foldl (h : Gathers filtered entries found) (more : List (Table × ForeignKey)) :
    Gathers filtered (entries ++ more)
      (more.foldl (fun found entry => addReference found entry.1 entry.2) found) := by
  induction more generalizing entries found with
  | nil =>
    rw [List.append_nil]
    exact h
  | cons entry more ih =>
    have hrest := ih (h.step entry)
    rwa [List.append_assoc, List.singleton_append] at hrest

end Gathers

/-! ## All suggestions -/

def references (tables : List Table) : List (Table × ForeignKey) :=
  tables.flatMap fun table => table.foreignKeys.map fun key => (table, key)

theorem mem_references {tables : List Table} {entry : Table × ForeignKey} :
    entry ∈ references tables ↔ entry.1 ∈ tables ∧ entry.2 ∈ entry.1.foreignKeys := by
  obtain ⟨table, key⟩ := entry
  simp only [references, List.mem_flatMap, List.mem_map, Prod.mk.injEq]
  constructor
  · rintro ⟨table, htable, key, hkey, rfl, rfl⟩
    exact ⟨htable, hkey⟩
  · rintro ⟨htable, hkey⟩
    exact ⟨table, htable, key, hkey, rfl, rfl⟩

def ofFindings (tables : List Table) (findings : List Finding) : List IndexSuggestion :=
  ((filteredColumns findings).filter fun entry => !isKey tables entry.1).map
    fun entry => ofFiltered entry.1 entry.2

theorem pairwise_apart_ofFindings (tables : List Table) (findings : List Finding) :
    (ofFindings tables findings).Pairwise Apart := by
  have hdistinct := (tallies_filteredColumns findings).distinct
  rw [List.pairwise_map] at hdistinct
  rw [ofFindings, List.pairwise_map]
  refine (hdistinct.filter _).imp fun {a b} hab => ?_
  exact apart_of_sameTarget_eq_false rfl rfl hab

theorem gathers_all (tables : List Table) (findings : List Finding) :
    Gathers (ofFindings tables findings) (references tables) (all tables findings) := by
  have hstart : Gathers (ofFindings tables findings) [] (ofFindings tables findings) := by
    refine ⟨pairwise_apart_ofFindings tables findings, fun s hs => ?_, fun s hs => hs,
      fun s hs => .inl hs, by simp⟩
    obtain ⟨entry, -, rfl⟩ := List.mem_map.mp hs
    exact ⟨entry.1.column, rfl⟩
  exact hstart.foldl (references tables)

theorem exists_of_mem_ofFindings {tables : List Table} {findings : List Finding}
    {s : IndexSuggestion} (h : s ∈ ofFindings tables findings) :
    ∃ f ∈ findings, f.rule = SchemaCheck.missingIndex.id ∧ ∃ target, f.target = some target ∧
      s = ofFiltered target (countAbout findings target) := by
  obtain ⟨entry, hentry, rfl⟩ := List.mem_map.mp h
  obtain ⟨htarget, hcount⟩ :=
    (tallies_filteredColumns findings).counted entry (List.mem_filter.mp hentry).1
  obtain ⟨f, hf, hrule, htarget⟩ := mem_missedTargets.mp htarget
  refine ⟨f, hf, hrule, entry.1, htarget, ?_⟩
  rw [hcount, countP_missedTargets]

/-- Whether a column is a key does not depend on the case in which it is written. -/
theorem isKey_congr (tables : List Table) {a b : Target} (h : sameTarget a b = true) :
    isKey tables a = isKey tables b := by
  rw [sameTarget_iff] at h
  simp only [isKey, lower_eq_of_sameName h.1, Table.isKeyColumn_congr _ h.2]

theorem exists_of_isKey {tables : List Table} {target : Target} (h : isKey tables target = true) :
    ∃ table ∈ tables, lower table.name.toList = lower target.table.toList ∧
      table.isKeyColumn target.column = true := by
  simp only [isKey] at h
  cases hfound : tables.reverse.find? fun table =>
      lower table.name.toList == lower target.table.toList with
  | none =>
    rw [hfound] at h
    cases h
  | some table =>
    rw [hfound] at h
    refine ⟨table, List.mem_reverse.mp (List.mem_of_find?_eq_some hfound), ?_, h⟩
    have hname := List.find?_some hfound
    exact beq_iff_eq.mp hname

theorem exists_covers_of_mem_missedTargets {tables : List Table} {findings : List Finding}
    {target : Target} (h : target ∈ missedTargets findings)
    (hkey : isKey tables target = false) :
    ∃ s ∈ ofFindings tables findings, s.covers target.table target.column = true := by
  obtain ⟨entry, hentry, hsame⟩ := (tallies_filteredColumns findings).complete target h
  have hopen : isKey tables entry.1 = false := by rwa [isKey_congr tables hsame]
  refine ⟨ofFiltered entry.1 entry.2, ?_, ?_⟩
  · exact List.mem_map_of_mem (List.mem_filter.mpr ⟨hentry, by rw [hopen]; rfl⟩)
  · exact (covers_iff _ _ _).mpr ⟨entry.1.column, rfl, hsame⟩

/-! ## Reasons -/

/-- The reason for an index on a column that is filtered on. -/
def filterReason (count : Nat) : String :=
  s!"Used in {count} predicate(s) without a covering index"

theorem toList_filterReason (count : Nat) : (filterReason count).toList =
    "Used in ".toList ++ (count.repr.toList ++
      " predicate(s) without a covering index".toList) := by
  have happend : ∀ x y : String, (x ++ y).toList = x.toList ++ y.toList :=
    fun _ _ => String.toList_append
  show ("Used in " ++ count.repr ++ " predicate(s) without a covering index").toList = _
  rw [happend, happend, List.append_assoc]

theorem filterReason_inj {m n : Nat} (h : filterReason m = filterReason n) : m = n := by
  have hlist := congrArg String.toList h
  rw [toList_filterReason, toList_filterReason, List.append_cancel_left_eq,
    List.append_cancel_right_eq, Nat.toList_repr, Nat.toList_repr] at hlist
  exact toDigits_inj hlist

/-- The reason for an index on a reference opens with another letter. -/
theorem reason_ofReference_ne (table : Table) (key : ForeignKey) (count : Nat) :
    (ofReference table key).reason ≠ filterReason count := by
  intro h
  have hlist := congrArg (fun s => s.toList.head?) h
  rw [toList_filterReason] at hlist
  simp only [ofReference, String.toList_append] at hlist
  cases hlist

/-- Suggestions are for one column each, and no two of them for the same one, whatever the case of
its letters.  A column is suggested if a finding says that it has no index, unless it belongs to the
key of a table of its name, and if it is a reference without an index; nothing else is suggested.  A
suggestion that counts predicates counts the findings about its column. -/
theorem all_covers_needs_once (tables : List Table) (findings : List Finding) :
    (∀ s ∈ all tables findings, ∃ column, s.columns = [column]) ∧
    ((all tables findings).Pairwise fun s s' => ∀ table column,
      s.covers table column = true → s'.covers table column = false) ∧
    (∀ f ∈ findings, f.rule = "SCH011" → ∀ target, f.target = some target →
      (∃ s ∈ all tables findings, s.covers target.table target.column = true) ∨
      ∃ table ∈ tables, lower table.name.toList = lower target.table.toList ∧
        table.isKeyColumn target.column = true) ∧
    (∀ table ∈ tables, ∀ key ∈ table.foreignKeys, (table.column? key.column).isSome = true →
      table.hasLeadingIndex key.column = false →
      ∃ s ∈ all tables findings, s.covers table.name key.column = true) ∧
    (∀ s ∈ all tables findings,
      (∃ f ∈ findings, f.rule = "SCH011" ∧ ∃ target, f.target = some target ∧
        s = ofFiltered target (countAbout findings target)) ∨
      ∃ table ∈ tables, ∃ key ∈ table.foreignKeys, (table.column? key.column).isSome = true ∧
        table.hasLeadingIndex key.column = false ∧ s = ofReference table key) ∧
    ∀ s ∈ all tables findings, ∀ count,
      s.reason = s!"Used in {count} predicate(s) without a covering index" →
      ∀ column ∈ s.columns, count = countAbout findings ⟨s.table, column⟩ := by
  have hall := gathers_all tables findings
  refine ⟨hall.single, hall.apart, ?_, ?_, ?_, ?_⟩
  · intro f hf hrule target htarget
    have hmissed : target ∈ missedTargets findings := mem_missedTargets.mpr ⟨f, hf, hrule, htarget⟩
    cases hkey : isKey tables target with
    | true => exact .inr (exists_of_isKey hkey)
    | false =>
      obtain ⟨s, hs, hcovers⟩ := exists_covers_of_mem_missedTargets hmissed hkey
      exact .inl ⟨s, hall.kept s hs, hcovers⟩
  · intro table htable key hkey hcolumn hindex
    exact hall.complete (table, key) (mem_references.mpr ⟨htable, hkey⟩) ⟨hcolumn, hindex⟩
  · intro s hs
    rcases hall.justified s hs with hs | ⟨entry, hentry, ⟨hcolumn, hindex⟩, rfl⟩
    · exact .inl (exists_of_mem_ofFindings hs)
    · obtain ⟨htable, hkey⟩ := mem_references.mp hentry
      exact .inr ⟨entry.1, htable, entry.2, hkey, hcolumn, hindex, rfl⟩
  · intro s hs count hreason column hcolumn
    rcases hall.justified s hs with hs | ⟨entry, -, -, rfl⟩
    · obtain ⟨f, hf, hrule, target, htarget, rfl⟩ := exists_of_mem_ofFindings hs
      rw [List.mem_singleton.mp hcolumn]
      exact (filterReason_inj hreason).symm
    · exact absurd hreason (reason_ofReference_ne entry.1 entry.2 count)

/-- Two findings about a column in different case make one suggestion, the key of the table makes
none, and a reference that is filtered on is not suggested twice. -/
example :
    let table : Table :=
      { name := "T", line := 1, primaryKey := some ["id"],
        columns := ["id", "a", "b"].map fun name => { name, type := "INT" },
        foreignKeys := [⟨"a", "u", "id"⟩, ⟨"b", "u", ""⟩] }
    let about (column : String) : Finding :=
      { rule := "SCH011", concern := .performance, severity := .medium, line := none,
        message := "", target := some ⟨"t", column⟩ }
    all [table] [about "A", about "id", about "a"] =
      [⟨"t", ["A"], "Used in 2 predicate(s) without a covering index"⟩,
       ⟨"T", ["b"], "Foreign key to u has no supporting index"⟩] := by
  decide +kernel

end IndexSuggestion
end SqlAudit
