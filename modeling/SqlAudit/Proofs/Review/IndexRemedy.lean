import SqlAudit.Proofs.Report.SuggestedIndexes
import SqlAudit.Proofs.Review.Anchoring
import SqlAudit.Proofs.Review.RuleConfiguration
import SqlAudit.Proofs.Schema.IndexAppending

/-!
Creating a suggested index settles its finding.  A finding on a filtered column says that no index
of the first table of its name starts with the column; where the name needs no quotes, the suggested
definition at the end of the text gives that table such an index.
-/

namespace SqlAudit

open Text Pattern

/-! ## Names up to case -/

/-- A name that a word equals up to case has word characters only. -/
theorem isBareName_of_sameName {x y : String} (h : sameName x y = true) (hne : y.toList ≠ [])
    (hy : ∀ c ∈ y.toList, isWordChar c = true) : isBareName x.toList = true := by
  rw [sameName, sameLetters, beq_iff_eq] at h
  rw [isBareName, Bool.and_eq_true, Bool.not_eq_true', List.isEmpty_eq_false_iff,
    List.all_eq_true]
  refine ⟨fun hnil => hne ?_, fun c hc => ?_⟩
  · rw [hnil, List.map_nil, eq_comm, List.map_eq_nil_iff] at h
    exact h
  · have hlower : c.toLower ∈ y.toList.map Char.toLower := h ▸ List.mem_map_of_mem hc
    obtain ⟨d, hd, hcd⟩ := List.mem_map.mp hlower
    rw [isNameChar, isWordChar_of_toLower_eq hcd.symm (hy d hd), Bool.true_or]

namespace Table

theorem sameName_of_column? {table : Table} {name : String} {column : Column}
    (h : table.column? name = some column) : sameName column.name name = true := by
  have hfound := List.find?_some h
  exact hfound

end Table

/-! ## Columns of predicates -/

namespace PredicateCheck

theorem isWordChar_of_isWordStart {c : Char} (h : isWordStart c = true) : isWordChar c = true := by
  have hcode : ∀ {n}, c.toNat = n → c = Char.ofNat n := by
    rintro n rfl
    exact (Char.ofNat_toNat c).symm
  simp only [isWordStart, Bool.or_eq_true, beq_iff_eq] at h
  rcases h with ((h | h) | h) | h
  · apply isWordChar_of_isIdentifierChar
    rw [isIdentifierChar, Char.isAlphanum, h]
    rfl
  · rw [h]
    decide
  · rw [hcode h]
    decide +kernel
  · rw [hcode h]
    decide +kernel

theorem isWordChar_of_readBy {c : Capture} (h : ReadBy [plainWord] c) :
    c.text ≠ [] ∧ ∀ d ∈ c.text, isWordChar d = true := by
  obtain ⟨p, hp, w, v, hv, hstart, hstop⟩ := h
  rw [List.mem_singleton.mp hp, plainWord] at hv
  obtain ⟨u, hu, hv⟩ := mem_ways_seq.mp hv
  obtain ⟨d, hd, hfirst⟩ := exists_of_mem_ways_char hu
  obtain ⟨x, hx, hmore⟩ := exists_of_mem_ways_run hv
  have htext : c.text = d :: x := by
    have hafter : w.cursor = ⟨w.cursor.before, (d :: x) ++ v.cursor.after⟩ := by
      rw [List.cons_append, ← hmore, ← hfirst]
    rw [Capture.text, hstart, hstop, hafter]
    exact Cursor.upTo_append _ _ _ _
  rw [htext]
  exact ⟨List.cons_ne_nil d x, List.forall_mem_cons.mpr ⟨isWordChar_of_isWordStart hd, hx⟩⟩

theorem isWordChar_of_mem_columnUses {predicates : Text} {u : ColumnUse}
    (h : u ∈ columnUses predicates) :
    u.column.toList ≠ [] ∧ ∀ c ∈ u.column.toList, isWordChar c = true := by
  obtain ⟨c, hread, -, -, -, hcolumn⟩ := exists_capture_of_mem_columnUses h
  rw [hcolumn, String.toList_ofList]
  exact isWordChar_of_readBy hread

theorem exists_findTable?_of_mem_tableUses {tables : List Table} {statement : Text} {u : TableUse}
    (h : u ∈ tableUses tables statement) : ∃ name, findTable? tables name = some u.table := by
  have hfrom : ∀ (count : Nat) (c : Cursor), u ∈ tableUsesFrom tables count c →
      ∃ name, findTable? tables name = some u.table := by
    intro count
    induction count with
    | zero =>
      intro c hu
      cases hu
    | succ count ih =>
      intro c hu
      rw [tableUsesFrom] at hu
      split at hu
      · cases hu
      · rename_i m _
        rcases List.mem_append.mp hu with hu | hu
        · rw [Option.mem_toList, tableUse?, Option.map_eq_some_iff] at hu
          obtain ⟨table, htable, rfl⟩ := hu
          exact ⟨_, htable⟩
        · exact ih _ hu
  exact hfrom _ _ h

theorem exists_mem_of_owner? {uses : List TableUse} {qualifier : Option String} {column : String}
    {table : Table} (h : owner? uses qualifier column = some table) :
    ∃ u ∈ uses, u.table = table := by
  cases qualifier with
  | some q =>
    rw [owner?, Option.filter_eq_some_iff, Option.map_eq_some_iff] at h
    obtain ⟨⟨u, hu, rfl⟩, -⟩ := h
    exact ⟨u, List.mem_of_find?_eq_some hu, rfl⟩
  | none =>
    have hmem := List.mem_of_find?_eq_some h
    exact List.mem_map.mp hmem

/-! ## What a finding says -/

/-- The definition of an index that is suggested for a column. -/
def remedy (table column : String) : String :=
  let owner := String.ofList (table.toList.map fun c => if c = '.' then '_' else c)
  s!"CREATE INDEX idx_{owner}_{column} ON {table} ({column})"

theorem toList_remedy (table column : String) : (remedy table column).toList =
    "CREATE INDEX idx_".toList ++ (table.toList.map (fun c => if c = '.' then '_' else c) ++
      ("_".toList ++ (column.toList ++ (" ON ".toList ++ (table.toList ++ (" (".toList ++
        (column.toList ++ ")".toList))))))) := by
  have happend : ∀ x y : String, (x ++ y).toList = x.toList ++ y.toList :=
    fun _ _ => String.toList_append
  have hparts : ∀ owner : String,
      (s!"CREATE INDEX idx_{owner}_{column} ON {table} ({column})").toList =
        "CREATE INDEX idx_".toList ++ (owner.toList ++ ("_".toList ++ (column.toList ++
          (" ON ".toList ++ (table.toList ++ (" (".toList ++ (column.toList ++ ")".toList))))))) := by
    intro owner
    rw [happend, happend, happend, happend, happend, happend, happend, happend]
    simp only [List.append_assoc]
    rfl
  refine (hparts _).trans ?_
  congr 2
  exact String.toList_ofList

/-- A finding is about a column of the first table of some name that no index starts with. -/
structure Reports (tables : List Table) (f : Finding) (table : Table) (column : String) : Prop where
  first : ∃ name, findTable? tables name = some table
  bare : isBareName column.toList = true
  unindexed : table.hasLeadingIndex column = false
  target : f.target = some ⟨table.name, column⟩
  suggestion : f.suggestion = some (remedy table.name column)

theorem reports_of_mem_check {document source : Text} {tables : List Table} {statement : Statement}
    {f : Finding} (h : f ∈ check document source tables statement) :
    ∃ table column, Reports tables f table column := by
  obtain ⟨m, -, use, huse, table, column, howner, hcolumn, hindex, rfl⟩ := of_mem_check h
  obtain ⟨u, hu, rfl⟩ := exists_mem_of_owner? howner
  obtain ⟨hne, hchars⟩ := isWordChar_of_mem_columnUses huse
  have hsame := Table.sameName_of_column? hcolumn
  refine ⟨u.table, column.name, exists_findTable?_of_mem_tableUses hu,
    isBareName_of_sameName hsame hne hchars, ?_, rfl, rfl⟩
  rw [u.table.hasLeadingIndex_congr hsame]
  exact hindex

theorem reports_of_mem_checkAll {document source : Text} {tables : List Table} {f : Finding}
    (h : f ∈ checkAll document source tables) : ∃ table column, Reports tables f table column := by
  rw [checkAll] at h
  split at h
  · cases h
  · obtain ⟨statement, -, h⟩ := List.mem_flatMap.mp h
    exact reports_of_mem_check h

end PredicateCheck

namespace Analyzer

/-- What is found besides missing indexes. -/
def besidesIndexes (a : Analyzer) (source : Text) (e : Extraction) : List Finding :=
  a.scan (a.withoutComments source) source ++
  (e.tables.flatMap (fun table =>
    SchemaCheck.checkKeys source e.tables table ++
    SchemaCheck.checkColumns source a.registry a.dialect.target? table) ++
  e.skipped.filterMap SchemaCheck.checkSkipped)

theorem found_eq_besidesIndexes (a : Analyzer) (source : Text) (e : Extraction) :
    a.found source e = a.besidesIndexes source e ++
      PredicateCheck.checkAll (a.withoutComments source) source e.tables := by
  simp only [found, checkSchema, besidesIndexes, List.append_assoc]

theorem rule_ne_of_mem_besidesIndexes {a : Analyzer} (hrules : a.extraRules = []) {source : Text}
    {e : Extraction} {f : Finding} (h : f ∈ a.besidesIndexes source e) :
    f.rule ≠ SchemaCheck.missingIndex.id := by
  simp only [besidesIndexes, List.mem_append, List.mem_flatMap, List.mem_filterMap] at h
  rcases h with h | ⟨table, -, h⟩ | ⟨skipped, -, h⟩
  · obtain ⟨line, hf⟩ := exists_quotes_of_mem_scan hrules h
    exact hf.rule_ne (by decide)
  · exact (SchemaCheck.quotes_of_mem_checkTable h).rule_ne (by decide)
  · rw [(SchemaCheck.of_checkSkipped h).1.1]
    decide

/-- Only the check of predicates finds missing indexes. -/
theorem mem_checkAll_of_mem_found {a : Analyzer} (hrules : a.extraRules = []) {source : Text}
    {e : Extraction} {f : Finding} (h : f ∈ a.found source e)
    (hrule : f.rule = SchemaCheck.missingIndex.id) :
    f ∈ PredicateCheck.checkAll (a.withoutComments source) source e.tables := by
  rw [found_eq_besidesIndexes, List.mem_append] at h
  exact h.resolve_left fun h => rule_ne_of_mem_besidesIndexes hrules h hrule

@[simp] theorem rule_adjust (a : Analyzer) (f : Finding) : (a.adjust f).rule = f.rule := rfl

@[simp] theorem line_adjust (a : Analyzer) (f : Finding) : (a.adjust f).line = f.line := rfl

@[simp] theorem target_adjust (a : Analyzer) (f : Finding) : (a.adjust f).target = f.target := rfl

@[simp] theorem suggestion_adjust (a : Analyzer) (f : Finding) :
    (a.adjust f).suggestion = f.suggestion := rfl

theorem mem_findings_review {a : Analyzer} {source : Text} {f : Finding} :
    f ∈ (a.review source).findings ↔ ∃ found ∈ a.found source (Extraction.ofText source),
      a.settings.rules.isDisabled found.rule = false ∧ a.adjust found = f := by
  rw [review, Report.ofFindings, analyzeWithSchema_eq_finish, Finding.sort, List.mem_mergeSort,
    mem_finish]

theorem reports_of_mem_review {a : Analyzer} (hrules : a.extraRules = []) {source : Text}
    {f : Finding} (hf : f ∈ (a.review source).findings)
    (hrule : f.rule = SchemaCheck.missingIndex.id) :
    ∃ table column, PredicateCheck.Reports (Extraction.ofText source).tables f table column := by
  obtain ⟨found, hfound, -, rfl⟩ := mem_findings_review.mp hf
  rw [rule_adjust] at hrule
  obtain ⟨table, column, hreports⟩ :=
    PredicateCheck.reports_of_mem_checkAll (mem_checkAll_of_mem_found hrules hfound hrule)
  exact ⟨table, column, { hreports with }⟩

end Analyzer

/-! ## Suggested indexes -/

namespace IndexSuggestion

/-- An index on a column is suggested if a finding is about the column, or if it is a reference that
no index starts with. -/
theorem exists_of_covers {tables : List Table} {findings : List Finding} {s : IndexSuggestion}
    (h : s ∈ all tables findings) {table column : String} (hcovers : s.covers table column = true) :
    (∃ f ∈ findings, f.rule = SchemaCheck.missingIndex.id ∧
      ∃ target, f.target = some target ∧ sameTarget target ⟨table, column⟩ = true) ∨
    ∃ declared ∈ tables, sameName declared.name table = true ∧
      declared.hasLeadingIndex column = false := by
  rcases (gathers_all tables findings).justified s h with hmem | ⟨entry, hentry, ⟨-, hindex⟩, rfl⟩
  · obtain ⟨f, hf, hrule, target, htarget, rfl⟩ := exists_of_mem_ofFindings hmem
    refine .inl ⟨f, hf, hrule, target, htarget, ?_⟩
    simpa [covers, ofFiltered, sameTarget] using hcovers
  · obtain ⟨hdeclared, -⟩ := mem_references.mp hentry
    have hsame : sameName entry.1.name table = true ∧ sameName entry.2.column column = true := by
      simpa [covers, ofReference] using hcovers
    refine .inr ⟨entry.1, hdeclared, hsame.1, ?_⟩
    rw [← entry.1.hasLeadingIndex_congr hsame.2]
    exact hindex

end IndexSuggestion

/-! ## Tables with the suggested index -/

/-- A table that is alone with its name is the first of the name. -/
theorem findTable?_of_countP_le_one {tables : List Table} {name : String}
    (h : tables.countP (fun table => sameName table.name name) ≤ 1) {table : Table}
    (htable : table ∈ tables) (hname : sameName table.name name = true) :
    findTable? tables name = some table := by
  obtain ⟨front, back, rfl⟩ := List.append_of_mem htable
  rw [List.countP_append,
    List.countP_cons_of_pos (p := fun table : Table => sameName table.name name) hname] at h
  have hfront : front.countP (fun table => sameName table.name name) = 0 := by omega
  have hnone : ∀ other ∈ front, ¬ sameName other.name name = true := List.countP_eq_zero.mp hfront
  rw [findTable?, List.find?_append, List.find?_eq_none.mpr hnone, Option.none_or,
    List.find?_cons_of_pos (p := fun table : Table => sameName table.name name) hname]

namespace PlainIndex

variable (i : PlainIndex) {tables : List Table} {table : Table}

/-- Of the tables that are looked up by name, the one with the name of the index has it. -/
theorem index_mem_of_findTable? {name : String}
    (h : findTable? (i.addTo tables) name = some table)
    (htable : sameName table.name (String.ofList i.table) = true) : i.index ∈ table.indexes := by
  by_cases hany : tables.any (fun table => sameName table.name (String.ofList i.table)) = true
  · obtain ⟨front, first, back, rfl, hfront, hfirst, hadd⟩ := Extraction.exists_modifyFirst_eq
      (fun table => { table with indexes := table.indexes ++ [i.index] }) hany
    rw [addTo, hadd, findTable?, List.find?_append, Option.or_eq_some_iff] at h
    rcases h with h | ⟨-, h⟩
    · rw [hfront table (List.mem_of_find?_eq_some h)] at htable
      cases htable
    · rw [List.find?_cons] at h
      split at h
      · rw [← Option.some.inj h]
        exact List.mem_append_right _ (List.mem_singleton_self _)
      · -- A later table of the name is looked up under no name.
        rename_i hskipped
        have hname : sameName table.name name = true := sameName_of_findTable? h
        have hother : sameName first.name name = true :=
          sameName_trans hfirst (sameName_trans (sameName_symm htable) hname)
        rw [hother] at hskipped
        cases hskipped
  · have hnone : ∀ table ∈ tables, sameName table.name (String.ofList i.table) = false := by
      simpa using hany
    rw [addTo, Extraction.modifyFirst_eq_self hnone] at h
    rw [hnone table (List.mem_of_find?_eq_some h)] at htable
    cases htable

theorem hasLeadingIndex_of_findTable? {name column : String}
    (h : findTable? (i.addTo tables) name = some table)
    (htable : sameName table.name (String.ofList i.table) = true)
    (hcolumn : sameName (String.ofList i.column) column = true) :
    table.hasLeadingIndex column = true :=
  Table.hasLeadingIndex_iff.mpr
    (.inr (.inl ⟨_, i.index_mem_of_findTable? h htable, _, [], rfl, hcolumn⟩))

theorem hasLeadingIndex_of_countP_le_one
    (honce : tables.countP (fun table => sameName table.name (String.ofList i.table)) ≤ 1)
    (h : table ∈ i.addTo tables) (htable : sameName table.name (String.ofList i.table) = true) :
    table.hasLeadingIndex (String.ofList i.column) = true := by
  have hcount : (i.addTo tables).countP
      (fun table => sameName table.name (String.ofList i.table)) ≤ 1 := by
    have hnames := Extraction.map_addTo i (f := Table.name) (fun _ _ => rfl) tables
    have hcounts := congrArg (List.countP (sameName · (String.ofList i.table))) hnames
    rw [List.countP_map, List.countP_map] at hcounts
    exact le_of_eq_of_le hcounts honce
  have hfirst := findTable?_of_countP_le_one hcount h htable
  exact i.hasLeadingIndex_of_findTable? hfirst htable (sameName_refl _)

/-- Nothing is reported about the column of an index that was added. -/
theorem sameTarget_eq_false_of_reports {f : Finding} {column : String}
    (h : PredicateCheck.Reports (i.addTo tables) f table column) {target : Target}
    (htarget : f.target = some target) :
    IndexSuggestion.sameTarget target ⟨String.ofList i.table, String.ofList i.column⟩ = false := by
  rw [h.target, Option.some.injEq] at htarget
  subst htarget
  rw [Bool.eq_false_iff]
  intro hsame
  rw [IndexSuggestion.sameTarget, Bool.and_eq_true] at hsame
  obtain ⟨name, hname⟩ := h.first
  have hindexed := i.hasLeadingIndex_of_findTable? hname hsame.1 (sameName_symm hsame.2)
  rw [h.unindexed] at hindexed
  cases hindexed

end PlainIndex

/-! ## The suggested index -/

namespace PlainIndex

/-- The index that is suggested for a column of a table. -/
def suggested (table column : String) (htable : isPlainName table.toList = true)
    (hcolumn : isBareName column.toList = true) : PlainIndex where
  name := "idx_".toList ++ (table.toList.map (fun c => if c = '.' then '_' else c) ++
    '_' :: column.toList)
  table := table.toList
  column := column.toList
  name_bare := by
    have howner : ∀ c ∈ table.toList, isNameChar (if c = '.' then '_' else c) = true := by
      intro c hc
      split
      · rfl
      · rename_i hdot
        exact (isNameChar_or_dot_of_isPlainName htable c hc).resolve_right hdot
    have hchars := (of_isBareName hcolumn).2
    rw [isBareName, Bool.and_eq_true, List.all_eq_true]
    refine ⟨rfl, ?_⟩
    simp only [List.forall_mem_append, List.forall_mem_cons, List.forall_mem_map]
    exact ⟨List.all_eq_true.mp (by decide), howner, rfl, hchars⟩
  table_plain := htable
  column_bare := hcolumn

theorem print_suggested {table column : String} (htable : isPlainName table.toList = true)
    (hcolumn : isBareName column.toList = true) :
    (suggested table column htable hcolumn).print =
      (PredicateCheck.remedy table column).toList := by
  rw [PredicateCheck.toList_remedy]
  show joined ["CREATE", "INDEX"] ++ ' ' :: ("idx_".toList ++
      (table.toList.map (fun c => if c = '.' then '_' else c) ++ '_' :: column.toList) ++ ' ' ::
        (joined ["ON"] ++ ' ' :: (table.toList ++ ' ' :: '(' :: (column.toList ++ [')'])))) = _
  simp only [List.append_assoc, List.cons_append]
  rfl

end PlainIndex

namespace Analyzer

/-- Behind a text that does not end in a block comment, the definition of an index that a finding
suggests settles the finding, if the name of the table needs no quotes: nothing is found about the
column any more.  If the table is declared once, no index is suggested for it either. -/
theorem review_settled_by_suggestion (registry : Registry) (settings : Settings)
    (parser : Dialect → Text → Option String) {sql : Text} (hblock : sql.endsInBlock false = false)
    {f : Finding} (hf : f ∈ (review { registry, settings, parser } sql).findings)
    (hrule : f.rule = "SCH011") {table column suggestion : String}
    (htarget : f.target = some ⟨table, column⟩) (hsuggestion : f.suggestion = some suggestion)
    (hplain : isPlainName table.toList = true) :
    (∀ g ∈ (review { registry, settings, parser }
        (sql ++ "\n;\n".toList ++ suggestion.toList ++ ";\n".toList)).findings,
      g.rule = "SCH011" → ∀ target, g.target = some target →
        IndexSuggestion.sameTarget target ⟨table, column⟩ = false) ∧
    ((review { registry, settings, parser } sql).tables.countP
        (fun declared => sameName declared.name table) ≤ 1 →
      ∀ s ∈ (review { registry, settings, parser }
        (sql ++ "\n;\n".toList ++ suggestion.toList ++ ";\n".toList)).indexes,
        s.covers table column = false) := by
  obtain ⟨found, named, hreports⟩ := reports_of_mem_review rfl hf hrule
  rw [hreports.target, Option.some.injEq, Target.mk.injEq] at htarget
  obtain ⟨rfl, rfl⟩ := htarget
  rw [hreports.suggestion, Option.some.injEq] at hsuggestion
  subst hsuggestion
  have htext : sql ++ "\n;\n".toList ++ (PredicateCheck.remedy found.name named).toList ++
      ";\n".toList =
        sql ++ '\n' :: (PlainIndex.suggested found.name named hplain hreports.bare).statement := by
    rw [← PlainIndex.print_suggested hplain hreports.bare]
    simp [PlainIndex.statement]
  rw [htext]
  generalize hi : PlainIndex.suggested found.name named hplain hreports.bare = i
  have htable : String.ofList i.table = found.name := by
    rw [← hi]
    exact String.ofList_toList
  have hcolumn : String.ofList i.column = named := by
    rw [← hi]
    exact String.ofList_toList
  have hadd : (Extraction.ofText (sql ++ '\n' :: i.statement)).tables =
      i.addTo (Extraction.ofText sql).tables := by
    rw [Extraction.ofText_append_statement i hblock]
  have hsettled : ∀ g ∈ (review { registry, settings, parser } (sql ++ '\n' :: i.statement)).findings,
      g.rule = "SCH011" → ∀ target, g.target = some target →
        IndexSuggestion.sameTarget target ⟨found.name, named⟩ = false := by
    intro g hg hrule target htarget
    obtain ⟨other, used, hother⟩ := reports_of_mem_review rfl hg hrule
    rw [hadd] at hother
    have hfalse := i.sameTarget_eq_false_of_reports hother htarget
    rwa [htable, hcolumn] at hfalse
  refine ⟨hsettled, fun honce s hs => ?_⟩
  rw [Bool.eq_false_iff]
  intro hcovers
  rcases IndexSuggestion.exists_of_covers hs hcovers with
    ⟨g, hg, hrule, target, htarget, hsame⟩ | ⟨declared, hdeclared, hname, hindex⟩
  · rw [hsettled g hg hrule target htarget] at hsame
    cases hsame
  · -- A reference without an index would be one of the only table of the name.
    change declared ∈ (Extraction.ofText _).tables at hdeclared
    rw [hadd] at hdeclared
    rw [← htable] at honce hname
    have hindexed := i.hasLeadingIndex_of_countP_le_one honce hdeclared hname
    rw [hcolumn, hindex] at hindexed
    cases hindexed

/-- A filter on a column of a table with a dotted name. -/
def filteredScript : Text := "CREATE TABLE s.t (a INT);\nSELECT a FROM s.t WHERE A = 1;".toList

theorem review_settled_by_suggestion_dotted :
    (∃ f ∈ (review { registry := {} } filteredScript).findings, f.rule = "SCH011" ∧
      f.suggestion = some "CREATE INDEX idx_s_t_a ON s.t (a)") ∧
    (∀ g ∈ (review { registry := {} } (filteredScript ++ "\n;\n".toList ++
        "CREATE INDEX idx_s_t_a ON s.t (a)".toList ++ ";\n".toList)).findings,
      g.rule = "SCH011" → g.target ≠ some ⟨"s.t", "a"⟩) ∧
    ∀ s ∈ (review { registry := {} } (filteredScript ++ "\n;\n".toList ++
        "CREATE INDEX idx_s_t_a ON s.t (a)".toList ++ ";\n".toList)).indexes,
      s.covers "s.t" "a" = false := by
  have hchecked : ("SCH011", some ⟨"s.t", "a"⟩, some "CREATE INDEX idx_s_t_a ON s.t (a)") ∈
      (PredicateCheck.checkAll (withoutComments { registry := {} } filteredScript) filteredScript
        (Extraction.ofText filteredScript).tables).map
          (fun f => (f.rule, f.target, f.suggestion)) := by
    decide +kernel
  have hfinding : ∃ f ∈ (review { registry := {} } filteredScript).findings, f.rule = "SCH011" ∧
      f.target = some ⟨"s.t", "a"⟩ ∧ f.suggestion = some "CREATE INDEX idx_s_t_a ON s.t (a)" := by
    obtain ⟨f, hf, hvalues⟩ := List.mem_map.mp hchecked
    have hfound : f ∈ found { registry := {} } filteredScript (Extraction.ofText filteredScript) :=
      List.mem_append_right _ (List.mem_append_right _ hf)
    refine ⟨_, mem_findings_review.mpr ⟨f, hfound, rfl, rfl⟩, ?_⟩
    simpa using hvalues
  obtain ⟨f, hf, hrule, htarget, hsuggestion⟩ := hfinding
  have honce : ((review { registry := {} } filteredScript).tables.countP
      (fun declared => sameName declared.name "s.t")) ≤ 1 := by
    decide +kernel
  obtain ⟨hsettled, hindexes⟩ := review_settled_by_suggestion {} {} StrictParser.verdict
    (by decide +kernel) hf hrule htarget hsuggestion (by decide +kernel)
  refine ⟨⟨f, hf, hrule, hsuggestion⟩, fun g hg hgrule hgtarget => ?_, hindexes honce⟩
  have hother := hsettled g hg hgrule _ hgtarget
  rw [IndexSuggestion.sameTarget, sameName_refl, sameName_refl] at hother
  cases hother

end Analyzer
end SqlAudit
