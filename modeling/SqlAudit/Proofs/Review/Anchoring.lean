import SqlAudit.Proofs.Lexical.Blanking
import SqlAudit.Proofs.Review.Provenance
import SqlAudit.Proofs.Schema.Placement
import SqlAudit.Report.Basic

/-!
Every finding points at a line of the source.  The lines come from offsets in the text without
comments, in statements of it, in statements with masked literals, and in lists of columns; none of
these moves a byte or a newline, so each offset lies on a line of the source.
-/

namespace SqlAudit

open Text

/-! ## Offsets of filtered columns -/

namespace PredicateCheck

/-- A column in use is a plain word that some pattern captured. -/
theorem exists_capture_of_mem_columnUses {predicates : Text} {u : ColumnUse}
    (h : u ∈ columnUses predicates) :
    ∃ c : Capture, Pattern.ReadBy [Pattern.plainWord] c ∧
      (Cursor.first predicates).Reaches c.start ∧ c.start.Reaches c.stop ∧
      u.offset = c.start.offset ∧ u.column = String.ofList c.text := by
  have hcapture : ∀ {p : Pattern} {owner use : Part} {m : Match},
      p.bodies use = [Pattern.plainWord] → m ∈ p.findAll predicates →
      columnUse? m owner use = some u →
      ∃ c : Capture, Pattern.ReadBy [Pattern.plainWord] c ∧
        (Cursor.first predicates).Reaches c.start ∧ c.start.Reaches c.stop ∧
        u.offset = c.start.offset ∧ u.column = String.ofList c.text := by
    intro p owner use m hp hm hu
    obtain ⟨hreach, hmatch⟩ := Pattern.of_mem_findAll hm
    obtain ⟨c, hc, rfl⟩ := Option.map_eq_some_iff.mp hu
    have hread := Pattern.readBy_of_part? hmatch hc
    rw [hp] at hread
    rcases Pattern.reaches_of_mem_captures (Pattern.of_matchAt?_eq_some hmatch).2
      (List.mem_of_find?_eq_some hc) with hold | ⟨hstart, hmid, -⟩
    · simp at hold
    · exact ⟨c, hread, hreach.trans hstart, hmid, rfl, rfl⟩
  simp only [columnUses, List.mem_mergeSort, List.mem_append, List.mem_flatMap,
    Option.mem_toList] at h
  rcases h with ⟨m, hm, h | h⟩ | ⟨m, hm, h⟩
  · exact hcapture rfl hm h
  · exact hcapture rfl hm h
  · exact hcapture rfl hm h

theorem offset_lt_of_mem_columnUses {predicates : Text} {u : ColumnUse}
    (h : u ∈ columnUses predicates) : u.offset < size predicates := by
  obtain ⟨c, ⟨p, hp, w, v, hv, hstart, -⟩, hreach, -, hoffset, -⟩ :=
    exists_capture_of_mem_columnUses h
  have hwide : 0 < p.minWidth := by
    rw [List.mem_singleton.mp hp]
    decide
  have hlt := Cursor.offset_lt_size (Pattern.after_ne_nil_of_mem_ways hwide hv)
  rwa [← hstart, hreach.text_eq, Cursor.text_first, ← hoffset] at hlt

theorem isLineOf_of_mem_check {document source : Text} {tables : List Table}
    {statement : Statement} (hstatement : statement ∈ document.statements) {f : Finding}
    (h : f ∈ check document source tables statement) :
    ∃ n, document.IsLineOf n ∧ f.Quotes [SchemaCheck.missingIndex] source n := by
  obtain ⟨m, hm, use, huse, hf⟩ := quotes_of_mem_check h
  obtain ⟨hreach, -⟩ := Pattern.reaches_of_findFrom? hm
  have hoffset : m.start.offset + use.offset < size statement.text := by
    have htext := hreach.text_eq
    have huse := offset_lt_of_mem_columnUses huse
    rw [← size_mask, ← Cursor.text_first statement.text.mask, ← htext, Cursor.text, size_append,
      size_reverse, Cursor.offset]
    omega
  have hinside := offset_add_lt_size hstatement hoffset
  rw [← Nat.add_assoc] at hinside
  exact ⟨_, ⟨_, hinside, rfl⟩, hf⟩

end PredicateCheck

namespace StatementCheck

theorem isLineOf_of_mem_check {document source : Text} {parser : Option (Text → Option String)}
    {statement : Statement} (hstatement : statement ∈ document.statements) {f : Finding}
    (h : f ∈ check document source parser statement) :
    ∃ n, document.IsLineOf n ∧ f.Quotes rules source n := by
  obtain ⟨offset, hf, hplace⟩ := quotes_of_mem_check h
  have hoffset : offset < size statement.text := by
    rcases hplace with rfl | ⟨pattern, hpattern, m, hm, rfl⟩
    · exact size_pos_of_ne_nil (text_ne_nil_of_mem_statements hstatement)
    · obtain ⟨hreach, hmatch⟩ := Pattern.of_mem_findAll hm
      have hwide : 0 < pattern.minWidth := by
        rcases List.mem_cons.mp hpattern with rfl | hpattern
        · decide
        · rw [List.mem_singleton.mp hpattern]
          decide
      have hlt := Pattern.start_offset_lt hwide hreach hmatch
      rwa [size_mask] at hlt
  exact ⟨_, ⟨_, offset_add_lt_size hstatement hoffset, rfl⟩, hf⟩

end StatementCheck

/-! ## Lines of the source -/

/-- A line on which a byte of the text without comments lies is a line of the source. -/
theorem Blanking.bounds {source document : Text} (h : Blanking source document) {n : Nat}
    (hn : document.IsLineOf n) : 1 ≤ n ∧ n ≤ source.lines.length := by
  obtain ⟨offset, hoffset, rfl⟩ := hn
  have hlast := lineAt_le_length_lines hoffset
  rw [h.length_lines_eq] at hlast
  exact ⟨one_le_lineAt document offset, hlast⟩

theorem Text.snippet_congr {t u : Text} (h : trim t = trim u) (width : Nat) :
    snippet t width = snippet u width := by
  simp only [snippet, h]

namespace Analyzer

/-- A finding quotes a line of the source, or it is about a fragment that was skipped. -/
def Anchored (source : Text) (f : Finding) : Prop :=
  (∃ infos n, (∀ info ∈ infos, info.id ≠ SchemaCheck.unreadableColumn.id) ∧ 1 ≤ n ∧
    n ≤ source.lines.length ∧ f.Quotes infos source n) ∨
  ∃ skipped ∈ (Extraction.ofText source).skipped, SchemaCheck.checkSkipped skipped = some f

theorem quotes_of_mem_scan {a : Analyzer} (hrules : a.extraRules = []) {source : Text}
    {f : Finding} (h : f ∈ a.scan (a.withoutComments source) source) :
    ∃ infos n, (∀ info ∈ infos, info.id ≠ SchemaCheck.unreadableColumn.id) ∧ 1 ≤ n ∧
      n ≤ source.lines.length ∧ f.Quotes infos source n := by
  rw [scan, List.mem_append] at h
  rcases h with h | h
  · obtain ⟨n, hone, hlast, hf⟩ := quotes_of_mem_checkLines hrules h
    exact ⟨_, n, by decide, hone, hlast, hf⟩
  · obtain ⟨statement, hstatement, h⟩ := List.mem_flatMap.mp h
    obtain ⟨n, hn, hf⟩ := StatementCheck.isLineOf_of_mem_check hstatement h
    obtain ⟨hone, hlast⟩ := (blanking_blankComments source _).bounds hn
    exact ⟨_, n, by decide, hone, hlast, hf⟩

theorem anchored_of_mem_checkSchema {a : Analyzer} {source : Text} {f : Finding}
    (h : f ∈ a.checkSchema (a.withoutComments source) source (Extraction.ofText source)) :
    Anchored source f := by
  obtain ⟨htables, -⟩ := Extraction.allPlaced_ofText source
  simp only [checkSchema, List.mem_append, List.mem_flatMap, List.mem_filterMap] at h
  rcases h with (⟨table, htable, h⟩ | h) | h
  · obtain ⟨hone, hlast⟩ := (blanking_blankComments source _).bounds (htables table htable)
    exact .inl ⟨_, _, by decide, hone, hlast, SchemaCheck.quotes_of_mem_checkTable h⟩
  · exact .inr h
  · obtain ⟨statement, hstatement, h⟩ := PredicateCheck.exists_of_mem_checkAll h
    obtain ⟨n, hn, hf⟩ := PredicateCheck.isLineOf_of_mem_check hstatement h
    obtain ⟨hone, hlast⟩ := (blanking_blankComments source _).bounds hn
    exact .inl ⟨_, n, by decide, hone, hlast, hf⟩

theorem mem_finish {a : Analyzer} {fs : List Finding} {f : Finding} :
    f ∈ a.finish fs ↔
      ∃ found ∈ fs, a.settings.rules.isDisabled found.rule = false ∧ a.adjust found = f := by
  simp only [finish, Finding.sort, List.mem_mergeSort, List.mem_map, List.mem_filter,
    Bool.not_eq_true', and_assoc]

theorem exists_of_mem_finish {a : Analyzer} {fs : List Finding} {f : Finding}
    (h : f ∈ a.finish fs) : ∃ found ∈ fs, f = a.adjust found := by
  obtain ⟨found, hfound, -, rfl⟩ := mem_finish.mp h
  exact ⟨found, hfound, rfl⟩

/-- What is reported was found, anchored, and then adjusted. -/
theorem exists_anchored_of_mem_review {a : Analyzer} (hrules : a.extraRules = []) {source : Text}
    {f : Finding} (h : f ∈ (a.review source).findings) :
    ∃ found ∈ a.scan (a.withoutComments source) source ++
        a.checkSchema (a.withoutComments source) source (Extraction.ofText source),
      Anchored source found ∧ f = a.adjust found := by
  have hreported : f ∈ a.analyzeWithSchema source (Extraction.ofText source) := by
    simpa [review, Report.ofFindings, Finding.sort] using h
  obtain ⟨found, hfound, rfl⟩ := exists_of_mem_finish hreported
  refine ⟨found, hfound, ?_, rfl⟩
  rcases List.mem_append.mp hfound with hscan | hschema
  · exact .inl (quotes_of_mem_scan hrules hscan)
  · exact anchored_of_mem_checkSchema hschema

/-- Every finding of a report names a line of the source.  It quotes that line, cut to the width of
a snippet; a finding about a fragment that was skipped quotes the fragment instead. -/
theorem review_findings_anchored (registry : Registry) (settings : Settings)
    (parser : Dialect → Text → Option String) (source : Text) (f : Finding)
    (h : f ∈ (review { registry, settings, parser } source).findings) :
    ∃ n, f.line = some n ∧ 1 ≤ n ∧ n ≤ source.lines.length ∧
      (f.rule ≠ "SCH006" → f.fragment =
        String.ofList (snippet (source.line n) settings.analysis.snippetWidth)) ∧
      (f.rule = "SCH006" → ∃ skipped ∈ (Extraction.ofText source).skipped, skipped.line = n ∧
        f.fragment =
          String.ofList (snippet skipped.fragment.toList settings.analysis.snippetWidth)) := by
  obtain ⟨found, -, hanchored, rfl⟩ := exists_anchored_of_mem_review rfl h
  rcases hanchored with ⟨infos, n, hinfos, hone, hlast, hquotes⟩ | ⟨skipped, hskipped, hcheck⟩
  · refine ⟨n, hquotes.line_eq, hone, hlast, fun _ => ?_, fun hrule => ?_⟩
    · exact congrArg String.ofList (snippet_congr hquotes.fragment _)
    · exact absurd hrule (hquotes.rule_ne hinfos)
  · obtain ⟨⟨hrule, -⟩, hline, hfragment⟩ := SchemaCheck.of_checkSkipped hcheck
    obtain ⟨hone, hlast⟩ := (blanking_blankComments source false).bounds
      ((Extraction.allPlaced_ofText source).2 skipped hskipped)
    refine ⟨skipped.line, hline, hone, hlast, fun hother => absurd hrule hother, fun _ => ?_⟩
    exact ⟨skipped, hskipped, rfl, by rw [← hfragment]; rfl⟩

theorem review_anchors_skipped_fragment :
    ∃ f ∈ (review { registry := {} } "SELECT 1;\nCREATE TABLE t (a MYTYPE);".toList).findings,
      ∃ n, f.line = some n ∧ 1 ≤ n ∧ n ≤ 2 := by
  -- The findings are counted before they are sorted, so that nothing evaluates the sort.
  have hcount : (review { registry := {} }
      "SELECT 1;\nCREATE TABLE t (a MYTYPE);".toList).findings.length = 2 := by
    simp only [review, Report.ofFindings, analyzeWithSchema, finish, Finding.sort,
      List.length_mergeSort, List.length_map]
    decide +kernel
  obtain ⟨f, hf⟩ := List.exists_mem_of_length_pos (hcount ▸ Nat.two_pos)
  obtain ⟨n, hline, hone, hlast, -⟩ := review_findings_anchored _ _ _ _ f hf
  exact ⟨f, hf, n, hline, hone, hlast⟩

end Analyzer
end SqlAudit
