import Mathlib.Data.List.Basic
import SqlAudit.Proofs.Lexical.Blanking
import SqlAudit.Proofs.Review.Provenance
import SqlAudit.Proofs.Sorting
import SqlAudit.Report.Basic

/-!
What comments can change in a report.  Every check reads the text without comments, and the source
only to quote it; so two texts that are equal without comments get the same findings up to the
quoted fragments.  Tables are recovered from a text in which a number sign opens a comment only at
the start of a line, whatever the dialect.  The reports agree exactly when this makes no difference.
-/

namespace SqlAudit

open Text

namespace Finding

def withoutFragment (f : Finding) : Finding := { f with fragment := "" }

theorem before_withoutFragment (f g : Finding) :
    before f g = before f.withoutFragment g.withoutFragment := rfl

theorem map_withoutFragment_sort (fs : List Finding) :
    (sort fs).map withoutFragment = sort (fs.map withoutFragment) :=
  List.map_mergeSort fun f _ g _ => before_withoutFragment f g

end Finding

def Report.withoutFragments (r : Report) : Report :=
  { r with findings := r.findings.map Finding.withoutFragment }

open Finding

/-! ## The source is only quoted -/

def SourceLine.withoutSource (line : SourceLine) : SourceLine := { line with source := [] }

theorem LineRule.withoutFragment_check (rule : LineRule) (line : SourceLine) :
    (rule.check line).map withoutFragment =
      (rule.check line.withoutSource).map withoutFragment := by
  have hfires : rule.fires line.withoutSource = rule.fires line := rfl
  rw [LineRule.check, LineRule.check, hfires]
  by_cases h : rule.fires line = true
  · simp only [h, if_true, Option.map_some]
    rfl
  · simp [h]

namespace StatementCheck

theorem withoutFragment_balanceFinding? (b : Balance) (line : Nat) (fragment other : Text) :
    (balanceFinding? b line fragment).map withoutFragment =
      (balanceFinding? b line other).map withoutFragment := by
  obtain ⟨found, -, heq⟩ := exists_balanceFinding?_eq b
  rw [heq, heq, Option.map_map, Option.map_map]
  rfl

theorem withoutFragment_placeFindings (document source other : Text) (statement : Statement)
    (pattern : Pattern) (rule : RuleInfo) (message suggestion : String) :
    (placeFindings document source statement pattern rule message suggestion).map withoutFragment =
      (placeFindings document other statement pattern rule message suggestion).map
        withoutFragment := by
  rw [placeFindings, placeFindings, List.map_map, List.map_map]
  rfl

theorem withoutFragment_check (document source other : Text)
    (parser : Option (Text → Option String)) (statement : Statement) :
    (check document source parser statement).map withoutFragment =
      (check document other parser statement).map withoutFragment := by
  simp only [check, List.map_append, ← Option.toList_map]
  rw [withoutFragment_balanceFinding? _ _ _ (other.line (document.lineAt statement.offset)),
    withoutFragment_placeFindings document source other,
    withoutFragment_placeFindings document source other]
  split
  · simp only [← Option.toList_map, Option.map_map]
    rfl
  · rfl

theorem withoutFragment_checkAll (document source other : Text)
    (parser : Option (Text → Option String)) :
    (checkAll document source parser).map withoutFragment =
      (checkAll document other parser).map withoutFragment := by
  simp only [checkAll, List.map_flatMap, withoutFragment_check document source other]

end StatementCheck

namespace SchemaCheck

theorem withoutFragment_checkKeys (source other : Text) (tables : List Table) (table : Table) :
    (checkKeys source tables table).map withoutFragment =
      (checkKeys other tables table).map withoutFragment := by
  simp only [checkKeys, List.map_append, List.map_flatMap]
  congr 1
  · rw [checkPrimaryKey, checkPrimaryKey]
    split
    · rfl
    · rw [List.map_map, List.map_map]
      rfl
  · congr 1
    funext key
    congr 1
    · rw [checkReferenceColumn, checkReferenceColumn]
      split <;> rfl
    · rw [checkReferencedTable, checkReferencedTable]
      split
      · rfl
      · split <;> rfl

theorem withoutFragment_checkType (source other : Text) (registry : Registry)
    (dialect : Option Dialect) (table : Table) (column : Column) :
    (checkType source registry dialect table column).map withoutFragment =
      (checkType other registry dialect table column).map withoutFragment := by
  rw [checkType, checkType]
  split
  · rfl
  · simp only [List.map_append]
    refine congrArg₂ (· ++ ·) ?_ ?_
    · unfold checkSupport
      split
      · rfl
      · split <;> rfl
    · rw [checkMoney, checkMoney]
      split <;> rfl

theorem withoutFragment_checkColumnsFrom (source other : Text) (registry : Registry)
    (dialect : Option Dialect) (table : Table) (earlier columns : List Column) :
    (checkColumnsFrom source registry dialect table earlier columns).map withoutFragment =
      (checkColumnsFrom other registry dialect table earlier columns).map withoutFragment := by
  induction columns generalizing earlier with
  | nil => rfl
  | cons column rest ih =>
    simp only [checkColumnsFrom, List.map_append]
    rw [withoutFragment_checkType source other, ih]
    congr 2
    rw [checkDuplicate, checkDuplicate]
    dsimp only
    split <;> rfl

end SchemaCheck

namespace PredicateCheck

theorem withoutFragment_findingsFrom (source other : Text) (place : Nat → Nat)
    (uses : List TableUse) (reported : List (Text × Text)) (columns : List ColumnUse) :
    (findingsFrom source place uses reported columns).map withoutFragment =
      (findingsFrom other place uses reported columns).map withoutFragment := by
  induction columns generalizing reported with
  | nil => rfl
  | cons use rest ih =>
    rw [findingsFrom, findingsFrom]
    split
    · exact ih reported
    · dsimp only
      split
      · exact ih reported
      · rw [List.map_cons, List.map_cons, ih]
        rfl

theorem withoutFragment_checkAll (document source other : Text) (tables : List Table) :
    (checkAll document source tables).map withoutFragment =
      (checkAll document other tables).map withoutFragment := by
  rw [checkAll, checkAll]
  split
  · rfl
  · simp only [List.map_flatMap]
    congr 1
    funext statement
    rw [check, check]
    split
    · rfl
    · dsimp only
      split
      · rfl
      · exact withoutFragment_findingsFrom source other _ _ _ _

end PredicateCheck

namespace Analyzer

/-- The lines of a document that are looked at, without their source. -/
def documentLines (document : Text) : List SourceLine :=
  (document.lines.zipIdx 1).filterMap fun (raw, number) =>
    if (trim raw).isEmpty then none
    else some { number, raw, code := mask raw, source := [] }

theorem map_withoutSource_sourceLines {document source : Text}
    (h : document.lines.length = source.lines.length) :
    (sourceLines document source).map SourceLine.withoutSource = documentLines document := by
  have hraw : (document.lines.zip source.lines).map Prod.fst = document.lines :=
    List.map_fst_zip (Nat.le_of_eq h)
  rw [documentLines, sourceLines, ← hraw, List.zipIdx_map, List.filterMap_map,
    List.map_filterMap, hraw]
  congr 1
  funext entry
  obtain ⟨⟨raw, written⟩, number⟩ := entry
  by_cases hblank : trim raw = [] <;> simp [hblank, SourceLine.withoutSource]

theorem withoutFragment_checkLines {a : Analyzer} (hrules : a.extraRules = [])
    {document source : Text} (h : document.lines.length = source.lines.length) :
    (a.checkLines document source).map withoutFragment =
      (documentLines document).flatMap fun line =>
        (a.rules.filterMap (·.check line)).map withoutFragment := by
  rw [checkLines, List.map_flatMap, ← map_withoutSource_sourceLines h, List.flatMap_map]
  congr 1
  funext line
  rw [List.map_filterMap, List.map_filterMap]
  apply List.filterMap_congr
  intro rule hrule
  simp only [rules, hrules, List.append_nil, List.mem_filter, List.mem_map] at hrule
  obtain ⟨⟨lineRule, -, rfl⟩, -⟩ := hrule
  exact lineRule.withoutFragment_check line

/-- What is found without tables depends on the source only in what it quotes. -/
theorem withoutFragment_scan {a : Analyzer} (hrules : a.extraRules = [])
    {document s₁ s₂ : Text} (h₁ : document.lines.length = s₁.lines.length)
    (h₂ : document.lines.length = s₂.lines.length) :
    (a.scan document s₁).map withoutFragment = (a.scan document s₂).map withoutFragment := by
  rw [scan, scan, List.map_append, List.map_append, withoutFragment_checkLines hrules h₁,
    withoutFragment_checkLines hrules h₂, StatementCheck.withoutFragment_checkAll document s₁ s₂]

theorem withoutFragment_checkTable (a : Analyzer) (s₁ s₂ : Text) (tables : List Table) :
    (tables.flatMap fun table => SchemaCheck.checkKeys s₁ tables table ++
        SchemaCheck.checkColumns s₁ a.registry a.dialect.target? table).map withoutFragment =
      (tables.flatMap fun table => SchemaCheck.checkKeys s₂ tables table ++
        SchemaCheck.checkColumns s₂ a.registry a.dialect.target? table).map withoutFragment := by
  simp only [List.map_flatMap, List.map_append, SchemaCheck.checkColumns,
    SchemaCheck.withoutFragment_checkKeys s₁ s₂,
    SchemaCheck.withoutFragment_checkColumnsFrom s₁ s₂]

/-! ## Adjustment and report -/

/-- The findings of enabled rules, adjusted, without fragments and before they are put in order. -/
def reported (a : Analyzer) (fs : List Finding) : List Finding :=
  ((fs.filter fun f => !a.settings.rules.isDisabled f.rule).map a.adjust).map withoutFragment

theorem map_withoutFragment_finish (a : Analyzer) (fs : List Finding) :
    (a.finish fs).map withoutFragment = sort (a.reported fs) :=
  map_withoutFragment_sort _

theorem reported_append (a : Analyzer) (fs gs : List Finding) :
    a.reported (fs ++ gs) = a.reported fs ++ a.reported gs := by
  simp [reported]

theorem withoutFragment_adjust (a : Analyzer) (f : Finding) :
    (a.adjust f.withoutFragment).withoutFragment = (a.adjust f).withoutFragment := by
  simp only [adjust, withoutFragment]

theorem reported_map_withoutFragment (a : Analyzer) (fs : List Finding) :
    a.reported (fs.map withoutFragment) = a.reported fs := by
  simp only [reported, List.filter_map, List.map_map, Function.comp_def, withoutFragment_adjust]
  rfl

theorem reported_congr (a : Analyzer) {fs gs : List Finding}
    (h : fs.map withoutFragment = gs.map withoutFragment) : a.reported fs = a.reported gs := by
  rw [← reported_map_withoutFragment, h, reported_map_withoutFragment]

/-- Findings that are in order stay as they are. -/
theorem sort_finish (a : Analyzer) (fs : List Finding) : sort (a.finish fs) = a.finish fs :=
  sort_sort _

/-- Choosing findings by their rule commutes with adjusting and ordering them. -/
theorem filter_rule_finish (a : Analyzer) (p : String → Bool) (fs : List Finding) :
    (a.finish fs).filter (p ·.rule) = a.finish (fs.filter (p ·.rule)) := by
  rw [finish, finish, sort, filter_mergeSort before_trans before_total, sort, List.filter_map,
    List.filter_filter, List.filter_filter]
  congr 2
  exact List.filter_congr fun f _ => Bool.and_comm _ _

end Analyzer

namespace Finding

theorem totalPenalty_map_withoutFragment (fs : List Finding) :
    totalPenalty (fs.map withoutFragment) = totalPenalty fs := by
  induction fs with
  | nil => rfl
  | cons f rest ih =>
    rw [List.map_cons, totalPenalty, totalPenalty, ih]
    rfl

theorem summary_map_withoutFragment (fs : List Finding) :
    Summary.ofFindings (fs.map withoutFragment) = Summary.ofFindings fs := by
  simp only [Summary.ofFindings, countSeverity, countConcern, List.countP_map, List.length_map]
  rfl

theorem indexSuggestions_map_withoutFragment (tables : List Table) (fs : List Finding) :
    IndexSuggestion.all tables (fs.map withoutFragment) = IndexSuggestion.all tables fs := by
  have hcolumns : IndexSuggestion.filteredColumns (fs.map withoutFragment) =
      IndexSuggestion.filteredColumns fs := by
    rw [IndexSuggestion.filteredColumns, IndexSuggestion.filteredColumns, List.filter_map,
      List.filterMap_map]
    rfl
  simp only [IndexSuggestion.all, hcolumns]

end Finding

/-- A report draws on its findings, but not on the source that they quote. -/
theorem Report.withoutFragments_ofFindings (registry : Registry) (dialect : Option Dialect)
    (tables : List Table) (fs : List Finding) :
    (ofFindings registry dialect tables fs).withoutFragments =
      (ofFindings registry dialect tables (fs.map withoutFragment)).withoutFragments := by
  simp only [withoutFragments, ofFindings, ← map_withoutFragment_sort, Finding.score,
    totalPenalty_map_withoutFragment, summary_map_withoutFragment,
    indexSuggestions_map_withoutFragment, List.map_map]
  rfl

/-! ## Two texts that are equal without comments -/

namespace Analyzer

/-- What is reported about the fragments that a text leaves unread. -/
def skippedFindings (source : Text) : List Finding :=
  (Extraction.ofText source).skipped.filterMap SchemaCheck.checkSkipped

/-- Two texts give the same tables, and the same is reported about what they leave unread. -/
def SameSchema (a : Analyzer) (s₁ s₂ : Text) : Prop :=
  (Extraction.ofText s₁).tables = (Extraction.ofText s₂).tables ∧
    (a.finish (skippedFindings s₁)).map withoutFragment =
      (a.finish (skippedFindings s₂)).map withoutFragment

/-- What is found besides unread fragments: on lines and statements, then about tables. -/
def besidesSkipped (a : Analyzer) (document source : Text) (tables : List Table) :
    List Finding × List Finding :=
  (a.scan document source ++ tables.flatMap fun table =>
      SchemaCheck.checkKeys source tables table ++
      SchemaCheck.checkColumns source a.registry a.dialect.target? table,
    PredicateCheck.checkAll document source tables)

theorem analyzeWithSchema_eq (a : Analyzer) (source : Text) (e : Extraction) :
    a.analyzeWithSchema source e =
      let found := a.besidesSkipped (a.withoutComments source) source e.tables
      a.finish (found.1 ++ e.skipped.filterMap SchemaCheck.checkSkipped ++ found.2) := by
  simp [analyzeWithSchema, checkSchema, besidesSkipped]

theorem rule_ne_of_mem_besidesSkipped {a : Analyzer} (hrules : a.extraRules = [])
    {document source : Text} {tables : List Table} {f : Finding}
    (h : f ∈ (a.besidesSkipped document source tables).1 ++
      (a.besidesSkipped document source tables).2) :
    f.rule ≠ SchemaCheck.unreadableColumn.id := by
  simp only [besidesSkipped, List.mem_append, List.mem_flatMap] at h
  rcases h with (h | ⟨table, -, h⟩) | h
  · obtain ⟨line, hf⟩ := exists_quotes_of_mem_scan hrules h
    exact hf.rule_ne (by decide)
  · exact (SchemaCheck.quotes_of_mem_checkTable h).rule_ne (by decide)
  · obtain ⟨line, hf⟩ := PredicateCheck.exists_quotes_of_mem_checkAll h
    exact hf.rule_ne (by decide)

/-- Of what is finally reported, the part about unread fragments. -/
theorem filter_unreadable_analyzeWithSchema {a : Analyzer} (hrules : a.extraRules = [])
    (source : Text) (e : Extraction) :
    (a.analyzeWithSchema source e).filter (·.rule == SchemaCheck.unreadableColumn.id) =
      a.finish (e.skipped.filterMap SchemaCheck.checkSkipped) := by
  have hother : ∀ fs : List Finding, (∀ f ∈ fs, f.rule ≠ SchemaCheck.unreadableColumn.id) →
      fs.filter (·.rule == SchemaCheck.unreadableColumn.id) = [] := by
    intro fs h
    simpa using h
  have hskipped : (e.skipped.filterMap SchemaCheck.checkSkipped).filter
      (·.rule == SchemaCheck.unreadableColumn.id) =
        e.skipped.filterMap SchemaCheck.checkSkipped := by
    rw [List.filter_eq_self]
    intro f hf
    obtain ⟨skipped, -, hf⟩ := List.mem_filterMap.mp hf
    simp [(SchemaCheck.of_checkSkipped hf).1.1]
  rw [analyzeWithSchema_eq, filter_rule_finish a (· == SchemaCheck.unreadableColumn.id),
    List.filter_append, List.filter_append, hskipped,
    hother _ fun f hf => rule_ne_of_mem_besidesSkipped hrules (List.mem_append_left _ hf),
    hother _ fun f hf => rule_ne_of_mem_besidesSkipped hrules (List.mem_append_right _ hf),
    List.nil_append, List.append_nil]

/-- Texts that are equal without comments have lines of one number. -/
theorem length_lines_withoutComments (a : Analyzer) (source : Text) :
    (a.withoutComments source).lines.length = source.lines.length :=
  (blanking_blankComments source _).length_lines_eq

theorem map_withoutFragment_analyzeWithSchema {a : Analyzer} (hrules : a.extraRules = [])
    {s₁ s₂ : Text} (h : a.withoutComments s₁ = a.withoutComments s₂)
    (hschema : a.SameSchema s₁ s₂) :
    (a.analyzeWithSchema s₁ (Extraction.ofText s₁)).map withoutFragment =
      (a.analyzeWithSchema s₂ (Extraction.ofText s₂)).map withoutFragment := by
  obtain ⟨htables, hskipped⟩ := hschema
  have hlines₁ := a.length_lines_withoutComments s₁
  have hlines₂ := a.length_lines_withoutComments s₂
  rw [h] at hlines₁
  have hfront : a.reported (a.besidesSkipped (a.withoutComments s₂) s₁
        (Extraction.ofText s₂).tables).1 =
      a.reported (a.besidesSkipped (a.withoutComments s₂) s₂ (Extraction.ofText s₂).tables).1 := by
    apply reported_congr
    simp only [besidesSkipped, List.map_append]
    rw [withoutFragment_scan hrules hlines₁ hlines₂, withoutFragment_checkTable a s₁ s₂]
  have hback : a.reported (a.besidesSkipped (a.withoutComments s₂) s₁
        (Extraction.ofText s₂).tables).2 =
      a.reported (a.besidesSkipped (a.withoutComments s₂) s₂ (Extraction.ofText s₂).tables).2 :=
    a.reported_congr (PredicateCheck.withoutFragment_checkAll _ s₁ s₂ _)
  rw [map_withoutFragment_finish, map_withoutFragment_finish] at hskipped
  rw [analyzeWithSchema_eq, analyzeWithSchema_eq, h, htables]
  dsimp only
  rw [map_withoutFragment_finish, map_withoutFragment_finish]
  simp only [reported_append, hfront, hback]
  -- The unread fragments are only known to agree in order, which is enough under the sort.
  rw [sort, sort, mergeSort_eq_iff_ties before_trans before_total]
  intro f
  simp only [List.filter_append]
  rw [sort, sort, mergeSort_eq_iff_ties before_trans before_total] at hskipped
  have hties := hskipped f
  simp only [skippedFindings] at hties
  rw [hties]

theorem review_withoutFragments (a : Analyzer) (source : Text) :
    (a.review source).withoutFragments =
      (Report.ofFindings a.registry a.reportTarget? (Extraction.ofText source).tables
        ((a.analyzeWithSchema source (Extraction.ofText source)).map
          withoutFragment)).withoutFragments :=
  Report.withoutFragments_ofFindings _ _ _ _

theorem sameSchema_of_review_eq {a : Analyzer} (hrules : a.extraRules = []) {s₁ s₂ : Text}
    (h : (a.review s₁).withoutFragments = (a.review s₂).withoutFragments) :
    a.SameSchema s₁ s₂ := by
  have hfindings : ∀ s, (a.review s).withoutFragments.findings =
      (a.analyzeWithSchema s (Extraction.ofText s)).map withoutFragment := by
    intro s
    have hsorted : sort (a.analyzeWithSchema s (Extraction.ofText s)) =
        a.analyzeWithSchema s (Extraction.ofText s) := sort_finish a _
    rw [review, Report.withoutFragments, Report.ofFindings]
    dsimp only
    rw [hsorted]
  have hfilter : ∀ fs : List Finding,
      (fs.map withoutFragment).filter (·.rule == SchemaCheck.unreadableColumn.id) =
        (fs.filter (·.rule == SchemaCheck.unreadableColumn.id)).map withoutFragment := by
    intro fs
    rw [List.filter_map]
    rfl
  refine ⟨congrArg Report.tables h, ?_⟩
  have hall := congrArg Report.findings h
  rw [hfindings, hfindings] at hall
  have hunread := congrArg (List.filter (·.rule == SchemaCheck.unreadableColumn.id)) hall
  rw [hfilter, hfilter, filter_unreadable_analyzeWithSchema hrules,
    filter_unreadable_analyzeWithSchema hrules] at hunread
  exact hunread

/-- Unless the dialect is MySQL, tables are recovered from the text without comments that all other
checks read. -/
theorem sameSchema_of_ne_mysql {a : Analyzer} (hdialect : a.dialect ≠ .mysql) {s₁ s₂ : Text}
    (h : a.withoutComments s₁ = a.withoutComments s₂) : a.SameSchema s₁ s₂ := by
  have hextraction : Extraction.ofText s₁ = Extraction.ofText s₂ := by
    simp only [withoutComments, hdialect, decide_false] at h
    simp only [Extraction.ofText, h]
  rw [SameSchema, skippedFindings, skippedFindings, hextraction]
  exact ⟨rfl, rfl⟩

/-- Two texts that are equal without comments get reports that are equal up to quoted fragments
exactly when tables are recovered from them alike; for every dialect but MySQL this is so. -/
theorem review_withoutFragments_eq_iff (registry : Registry) (settings : Settings)
    (parser : Dialect → Text → Option String) (s₁ s₂ : Text)
    (h : withoutComments { registry, settings, parser } s₁ =
      withoutComments { registry, settings, parser } s₂) :
    (review { registry, settings, parser } s₁).withoutFragments =
        (review { registry, settings, parser } s₂).withoutFragments ↔
      settings.analysis.dialect ≠ .mysql ∨
        SameSchema { registry, settings, parser } s₁ s₂ := by
  constructor
  · intro hreview
    exact .inr (sameSchema_of_review_eq rfl hreview)
  · intro hcases
    have hschema : SameSchema { registry, settings, parser } s₁ s₂ := by
      rcases hcases with hdialect | hschema
      · exact sameSchema_of_ne_mysql (a := { registry, settings, parser }) hdialect h
      · exact hschema
    rw [review_withoutFragments, review_withoutFragments, hschema.1,
      map_withoutFragment_analyzeWithSchema rfl h hschema]

/-- For MySQL a comment after a statement can declare a table: the two texts are equal without
comments, and their reports differ. -/
theorem review_differs_by_trailing_comment :
    withoutComments { registry := {}, settings := { analysis := { dialect := .mysql } } }
        "SELECT 1; # CREATE TABLE t (a INT);".toList =
      withoutComments { registry := {}, settings := { analysis := { dialect := .mysql } } }
        "SELECT 1;                          ".toList ∧
    (review { registry := {}, settings := { analysis := { dialect := .mysql } } }
        "SELECT 1; # CREATE TABLE t (a INT);".toList).withoutFragments ≠
      (review { registry := {}, settings := { analysis := { dialect := .mysql } } }
        "SELECT 1;                          ".toList).withoutFragments := by
  have hcomments : withoutComments
      { registry := {}, settings := { analysis := { dialect := .mysql } } }
        "SELECT 1; # CREATE TABLE t (a INT);".toList =
      withoutComments { registry := {}, settings := { analysis := { dialect := .mysql } } }
        "SELECT 1;                          ".toList := by decide +kernel
  refine ⟨hcomments, fun hreview => ?_⟩
  rcases (review_withoutFragments_eq_iff _ _ _ _ _ hcomments).mp hreview with hdialect | hschema
  · exact hdialect rfl
  · exact absurd hschema.1 (by decide +kernel)

end Analyzer
end SqlAudit
