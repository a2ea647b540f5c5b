import SqlAudit.Proofs.Lexical.Occurrence
import SqlAudit.Proofs.Review.CommentInsensitivity
import SqlAudit.Proofs.Review.IndexRemedy
import SqlAudit.Proofs.Text.CaseFolding

/-!
Findings on missing indexes.  Each one is about a declared column with which no index starts, and it
stands on a line of the source that names the column.  The offset of the name is counted in the
predicates of a statement, in the statement with its literals masked, in the text without comments
and in the source; the name is a run without blanks, so it stands at the same place in all of them.
One statement gives no two findings on the same column.
-/

namespace SqlAudit

open Text

def Target.folded (t : Target) : Text × Text := (lower t.table.toList, lower t.column.toList)

theorem Target.folded_congr {s t : Target} (h : IndexSuggestion.sameTarget s t = true) :
    s.folded = t.folded := by
  rw [IndexSuggestion.sameTarget, Bool.and_eq_true] at h
  rw [folded, folded, lower_eq_of_sameName h.1, lower_eq_of_sameName h.2]

namespace PredicateCheck

/-! ## Where a finding stands -/

theorem standsAt_of_mem_columnUses {predicates : Text} {u : ColumnUse}
    (h : u ∈ columnUses predicates) : StandsAt u.column.toList u.offset predicates := by
  obtain ⟨c, -, ⟨front, hfront, hbefore⟩, ⟨x, hx, -⟩, hoffset, hcolumn⟩ :=
    exists_capture_of_mem_columnUses h
  have htext : c.text = x := by
    have hstart : c.start = ⟨c.start.before, x ++ c.stop.after⟩ := by rw [← hx]
    rw [Capture.text, hstart]
    exact Cursor.upTo_append _ _ _ _
  refine ⟨front, c.stop.after, ?_, ?_⟩
  · rw [hcolumn, String.toList_ofList, htext, ← hx]
    exact hfront
  · rw [hoffset, Cursor.offset, hbefore, size_append, size_reverse]
    rfl

theorem standsAt_of_find? {p : Pattern} {t : Text} {m : Match} (h : p.find? t = some m) :
    StandsAt m.start.after m.start.offset t := by
  obtain ⟨⟨front, hfront, hbefore⟩, -⟩ := Pattern.reaches_of_findFrom? h
  refine ⟨front, [], ?_, ?_⟩
  · rw [List.append_nil]
    exact hfront
  · rw [Cursor.offset, hbefore, size_append, size_reverse]
    rfl

/-- A finding is about a column of a declared table, the first of its name, with which no index of
the table starts; the line of the finding holds the column in some spelling. -/
structure Locates (tables : List Table) (source : Text) (f : Finding) (table : Table)
    (column : Column) (line : Nat) : Prop where
  target : f.target = some ⟨table.name, column.name⟩
  declared : findTable? tables table.name = some table
  column_eq : table.column? column.name = some column
  unindexed : table.hasLeadingIndex column.name = false
  line_eq : f.line = some line
  written : ∃ x, sameLetters x column.name.toList = true ∧ x <:+: source.line line

/-- What is found first under one spelling is found first under its own. -/
theorem find?_sameName_self {α : Type} {name : α → String} {xs : List α} {spelling : String} {x : α}
    (h : xs.find? (fun y => sameName (name y) spelling) = some x) :
    xs.find? (fun y => sameName (name y) (name x)) = some x := by
  have hsame := List.find?_some h
  simpa only [sameName_congr_right hsame] using h

theorem locates_of_mem_check {document source : Text} (hblanking : Blanking source document)
    {tables : List Table} {statement : Statement} (hstatement : statement ∈ document.statements)
    {f : Finding} (h : f ∈ check document source tables statement) :
    ∃ table column line, Locates tables source f table column line := by
  obtain ⟨m, hm, use, huse, table, column, howner, hcolumn, hindex, rfl⟩ := of_mem_check h
  obtain ⟨u, hu, rfl⟩ := exists_mem_of_owner? howner
  obtain ⟨name, hname⟩ := exists_findTable?_of_mem_tableUses hu
  have hsame := Table.sameName_of_column? hcolumn
  obtain ⟨hne, hchars⟩ := isWordChar_of_mem_columnUses huse
  have hblank : ∀ c ∈ use.column.toList, isBlank c = false :=
    fun c hc => isBlank_eq_false_of_isWordChar (hchars c hc)
  have hspace : ' ' ∉ use.column.toList := fun hmem => absurd (hblank _ hmem) (by decide)
  -- The name is followed from the predicates back to the source.
  have hmasked := (standsAt_of_mem_columnUses huse).trans (standsAt_of_find? hm)
  have hwritten := (spaced_maskFrom _ _ _).standsAt hne hspace hmasked
  have hdocument := hwritten.trans (standsAt_of_mem_statements hstatement)
  have hsource := hblanking.spaced.standsAt hne hspace hdocument
  refine ⟨u.table, column, _, rfl, find?_sameName_self hname, find?_sameName_self hcolumn, ?_, rfl,
    use.column.toList, ?_, ?_⟩
  · rw [u.table.hasLeadingIndex_congr hsame]
    exact hindex
  · exact sameName_symm hsame
  · rw [hblanking.lineAt_eq, Nat.add_assoc]
    exact hsource.isInfix_line hne hblank

/-! ## Findings of one statement -/

/-- The key under which a column is remembered is that of the finding's target, whose names are
spelled as they were declared. -/
theorem folded_eq_reportKey {table : Table} {column : Column} {name : String}
    (h : table.column? name = some column) :
    Target.folded ⟨table.name, column.name⟩ = reportKey table name := by
  rw [Target.folded, reportKey, lower_eq_of_sameName (Table.sameName_of_column? h)]

/-- Two findings are about different columns, whatever the case. -/
def Apart (f g : Finding) : Prop :=
  ∀ s t, f.target = some s → g.target = some t → s.folded ≠ t.folded

theorem folded_not_mem_of_mem_findingsFrom {source : Text} {place : Nat → Nat}
    {uses : List TableUse} {reported : List (Text × Text)} {columns : List ColumnUse} {f : Finding}
    (h : f ∈ findingsFrom source place uses reported columns) {t : Target}
    (ht : f.target = some t) : t.folded ∉ reported := by
  induction columns generalizing reported with
  | nil => simp [findingsFrom] at h
  | cons use rest ih =>
    rcases findingsFrom_cons source place uses reported use rest with
      heq | ⟨table, column, -, hcolumn, -, hnew, heq⟩
    · rw [heq] at h
      exact ih h
    · rw [heq] at h
      rcases List.mem_cons.mp h with rfl | h
      · rw [← Option.some.inj ht, folded_eq_reportKey hcolumn]
        exact hnew
      · exact fun hmem => ih h (List.mem_cons_of_mem _ hmem)

theorem pairwise_findingsFrom (source : Text) (place : Nat → Nat) (uses : List TableUse)
    (reported : List (Text × Text)) (columns : List ColumnUse) :
    (findingsFrom source place uses reported columns).Pairwise Apart := by
  induction columns generalizing reported with
  | nil => exact .nil
  | cons use rest ih =>
    rcases findingsFrom_cons source place uses reported use rest with
      heq | ⟨table, column, -, hcolumn, -, -, heq⟩
    · rw [heq]
      exact ih reported
    · rw [heq]
      refine .cons ?_ (ih _)
      intro g hg s t hs ht hsame
      rw [← Option.some.inj hs, folded_eq_reportKey hcolumn] at hsame
      apply folded_not_mem_of_mem_findingsFrom hg ht
      rw [← hsame]
      exact List.mem_cons_self

theorem pairwise_check (document source : Text) (tables : List Table) (statement : Statement) :
    (check document source tables statement).Pairwise Apart := by
  rw [check]
  split
  · exact .nil
  · dsimp only
    split
    · exact .nil
    · exact pairwise_findingsFrom _ _ _ _ _

theorem check_nil (document source : Text) (statement : Statement) :
    check document source [] statement = [] := by
  rw [List.eq_nil_iff_forall_not_mem]
  intro f h
  obtain ⟨m, -, use, -, table, column, howner, -⟩ := of_mem_check h
  obtain ⟨u, hu, -⟩ := exists_mem_of_owner? howner
  obtain ⟨name, hname⟩ := exists_findTable?_of_mem_tableUses hu
  cases hname

theorem checkAll_eq (document source : Text) (tables : List Table) :
    checkAll document source tables = document.statements.flatMap (check document source tables) := by
  rw [checkAll]
  split
  · rename_i hempty
    rw [List.isEmpty_iff.mp hempty]
    simp [check_nil]
  · rfl

end PredicateCheck

/-! ## The findings of an analysis -/

namespace Analyzer

open PredicateCheck

/-- What a statement adds to the findings on missing indexes. -/
def missingIndexes (a : Analyzer) (source : Text) (tables : List Table) (statement : Statement) :
    List Finding :=
  ((check (a.withoutComments source) source tables statement).filter fun f =>
    !a.settings.rules.isDisabled f.rule).map a.adjust

theorem pairwise_missingIndexes (a : Analyzer) (source : Text) (tables : List Table)
    (statement : Statement) : (a.missingIndexes source tables statement).Pairwise Apart :=
  List.pairwise_map.mpr ((pairwise_check _ source tables statement).filter _)

theorem filter_missingIndex_found {a : Analyzer} (hrules : a.extraRules = []) (source : Text)
    (e : Extraction) : (a.found source e).filter (·.rule == SchemaCheck.missingIndex.id) =
      checkAll (a.withoutComments source) source e.tables := by
  have hothers : (a.besidesIndexes source e).filter (·.rule == SchemaCheck.missingIndex.id) = [] := by
    rw [List.filter_eq_nil_iff]
    intro f hf
    simpa using rule_ne_of_mem_besidesIndexes hrules hf
  have hown : ∀ f ∈ checkAll (a.withoutComments source) source e.tables,
      (f.rule == SchemaCheck.missingIndex.id) = true := by
    intro f hf
    rw [checkAll_eq] at hf
    obtain ⟨statement, -, hf⟩ := List.mem_flatMap.mp hf
    obtain ⟨m, -, use, -, table, column, -, -, -, rfl⟩ := of_mem_check hf
    exact beq_self_eq_true _
  rw [found_eq_besidesIndexes, List.filter_append, hothers, List.nil_append,
    List.filter_eq_self.mpr hown]

theorem filter_missingIndex_analyzeWithSchema {a : Analyzer} (hrules : a.extraRules = [])
    (source : Text) (e : Extraction) :
    (a.analyzeWithSchema source e).filter (·.rule == SchemaCheck.missingIndex.id) =
      Finding.sort ((a.withoutComments source).statements.flatMap
        (a.missingIndexes source e.tables)) := by
  rw [analyzeWithSchema_eq_finish, filter_rule_finish a (· == SchemaCheck.missingIndex.id),
    filter_missingIndex_found hrules, checkAll_eq, finish, List.filter_flatMap, List.map_flatMap]
  rfl

theorem locates_of_mem_analyzeWithSchema {a : Analyzer} (hrules : a.extraRules = [])
    {source : Text} {e : Extraction} {f : Finding} (hf : f ∈ a.analyzeWithSchema source e)
    (hrule : f.rule = SchemaCheck.missingIndex.id) :
    ∃ table column line, Locates e.tables source f table column line := by
  rw [analyzeWithSchema_eq_finish] at hf
  obtain ⟨found, hfound, rfl⟩ := exists_of_mem_finish hf
  have hmem := mem_checkAll_of_mem_found hrules hfound hrule
  rw [checkAll_eq] at hmem
  obtain ⟨statement, hstatement, hcheck⟩ := List.mem_flatMap.mp hmem
  obtain ⟨table, column, line, hlocates⟩ :=
    locates_of_mem_check (blanking_blankComments source _) hstatement hcheck
  exact ⟨table, column, line, { hlocates with }⟩

/-- Every finding on a missing index is about a column of a declared table, the first of its name,
with which no index of the table starts, and its line of the source holds the name of the column.
The findings of an analysis on missing indexes are those of its statements in order, and no two
findings of a statement are about the same column, whatever the case. -/
theorem analyzeWithSchema_missing_indexes_sound (registry : Registry) (settings : Settings)
    (parser : Dialect → Text → Option String) (source : Text) :
    (∀ f ∈ analyzeWithSchema { registry, settings, parser } source (Extraction.ofText source),
      f.rule = "SCH011" → ∃ table column line,
        f.target = some ⟨table.name, column.name⟩ ∧
        findTable? (Extraction.ofText source).tables table.name = some table ∧
        table.column? column.name = some column ∧
        table.hasLeadingIndex column.name = false ∧
        f.line = some line ∧
        ∃ x, sameName (String.ofList x) column.name = true ∧ x <:+: source.line line) ∧
    (analyzeWithSchema { registry, settings, parser } source
        (Extraction.ofText source)).filter (·.rule == "SCH011") =
      Finding.sort ((withoutComments { registry, settings, parser } source).statements.flatMap
        (missingIndexes { registry, settings, parser } source (Extraction.ofText source).tables)) ∧
    ∀ statement, (missingIndexes { registry, settings, parser } source
        (Extraction.ofText source).tables statement).Pairwise fun f g =>
      ∀ s t, f.target = some s → g.target = some t →
        s.folded ≠ t.folded ∧ IndexSuggestion.sameTarget s t = false := by
  refine ⟨fun f hf hrule => ?_, filter_missingIndex_analyzeWithSchema rfl source _,
    fun statement => ?_⟩
  · obtain ⟨table, column, line, h⟩ := locates_of_mem_analyzeWithSchema rfl hf hrule
    obtain ⟨x, hx, hline⟩ := h.written
    refine ⟨table, column, line, h.target, h.declared, h.column_eq, h.unindexed, h.line_eq, x, ?_,
      hline⟩
    rwa [sameName, String.toList_ofList]
  · refine (pairwise_missingIndexes _ source _ statement).imp ?_
    intro f g h s t hs ht
    refine ⟨h s t hs ht, ?_⟩
    rw [Bool.eq_false_iff]
    exact fun hsame => h s t hs ht (Target.folded_congr hsame)

/-- A filter behind comments, a literal over two lines and letters of two bytes. -/
def scatteredScript : Text :=
  ("CREATE TABLE t (Name TEXT); -- \u00e9\n" ++
    "SELECT '\u00e9\n;' /* \u00fc */ FROM t AS x\nWHERE\n  x.NAME = '\u00e9';").toList

theorem analyzeWithSchema_missing_indexes_scattered :
    ∃ f ∈ analyzeWithSchema { registry := {} } scatteredScript (Extraction.ofText scatteredScript),
      f.rule = "SCH011" ∧ f.target = some ⟨"t", "Name"⟩ ∧ f.line = some 5 ∧
      ∃ x, sameName (String.ofList x) "Name" = true ∧ x <:+: scatteredScript.line 5 := by
  have hchecked : ("SCH011", some ⟨"t", "Name"⟩, some 5) ∈
      (checkAll (withoutComments { registry := {} } scatteredScript) scatteredScript
        (Extraction.ofText scatteredScript).tables).map (fun f => (f.rule, f.target, f.line)) := by
    decide +kernel
  have hreported : ∃ f ∈ analyzeWithSchema { registry := {} } scatteredScript
      (Extraction.ofText scatteredScript),
      f.rule = "SCH011" ∧ f.target = some ⟨"t", "Name"⟩ ∧ f.line = some 5 := by
    obtain ⟨found, hfound, hvalues⟩ := List.mem_map.mp hchecked
    refine ⟨_, mem_finish.mpr ⟨found, ?_, rfl, rfl⟩, by simpa using hvalues⟩
    exact List.mem_append_right _ (List.mem_append_right _ hfound)
  obtain ⟨f, hf, hrule, htarget, hline⟩ := hreported
  obtain ⟨table, column, line, htarget', -, -, -, hline', x, hx, hwritten⟩ :=
    (analyzeWithSchema_missing_indexes_sound {} {} StrictParser.verdict scatteredScript).1 f hf hrule
  rw [htarget, Option.some.injEq, Target.mk.injEq] at htarget'
  rw [hline, Option.some.injEq] at hline'
  refine ⟨f, hf, hrule, htarget, hline, x, ?_, ?_⟩
  · rwa [htarget'.2]
  · rwa [hline']

end Analyzer
end SqlAudit
