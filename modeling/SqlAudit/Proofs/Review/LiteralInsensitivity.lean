import SqlAudit.Proofs.Lexical.Literals
import SqlAudit.Proofs.Review.CommentInsensitivity

/-!
What the contents of literals can change in the findings of rules that do not look at them.  Such a
rule sees the number of a line and the line with its literals masked, and nothing else.  So two texts
with the same masked lines get the same findings from it; texts that differ only inside literals have
the same masked lines if the literals close on their lines.
-/

namespace SqlAudit

open Text Finding

namespace Text

theorem maskFrom_outside_of_no_quote {t : Text} (ht : '\x27' ∉ t) :
    maskFrom .standard .outside t = t := by
  induction t with
  | nil => rfl
  | cons c rest ih =>
    rw [List.mem_cons, not_or] at ht
    rw [maskFrom, if_neg (Ne.symm ht.1), ih ht.2]

theorem quote_mem_maskFrom_outside {t : Text} (ht : '\x27' ∈ t) :
    '\x27' ∈ maskFrom .standard .outside t := by
  induction t with
  | nil => cases ht
  | cons c rest ih =>
    rw [maskFrom]
    by_cases hc : c = '\x27'
    · rw [hc]
      exact List.mem_cons_self
    · rw [if_neg hc]
      rcases List.mem_cons.mp ht with rfl | ht
      · exact absurd rfl hc
      · exact List.mem_cons_of_mem c (ih ht)

theorem isEmpty_trim_mask {t : Text} (ht : '\\' ∉ t) :
    (trim (mask t)).isEmpty = (trim t).isEmpty := by
  rw [mask_of_no_backslash ht]
  by_cases hquote : '\x27' ∈ t
  · have hne : ∀ u : Text, '\x27' ∈ u → (trim u).isEmpty = false := by
      intro u hu
      rw [List.isEmpty_eq_false_iff, ne_eq, trim_eq_nil_iff]
      exact fun h => absurd (h _ hu) (by decide)
    rw [hne _ (quote_mem_maskFrom_outside hquote), hne t hquote]
  · rw [maskFrom_outside_of_no_quote hquote]

end Text

/-- A line as a rule sees it that does not look at literals. -/
def SourceLine.codeOnly (line : SourceLine) : SourceLine := { line with raw := [] }

theorem LineRule.check_codeOnly {rule : LineRule} (hrule : rule.seesLiterals = false)
    (line : SourceLine) : rule.check line.codeOnly = rule.check line := by
  have hfires : rule.fires line.codeOnly = rule.fires line := by
    rw [LineRule.fires, LineRule.fires, hrule]
    rfl
  rw [LineRule.check, LineRule.check, hfires]
  rfl

namespace Analyzer

/-- The lines of a document that are looked at, numbered and with their literals masked. -/
def codeLines (masked : List Text) : List SourceLine :=
  (masked.zipIdx 1).filterMap fun (code, number) =>
    if (trim code).isEmpty then none else some { number, raw := [], code, source := [] }

theorem map_codeOnly_documentLines {document : Text} (h : '\\' ∉ document) :
    (documentLines document).map SourceLine.codeOnly = codeLines (document.lines.map mask) := by
  rw [documentLines, codeLines, List.zipIdx_map, List.filterMap_map, List.map_filterMap]
  apply List.filterMap_congr
  rintro ⟨raw, number⟩ hmem
  rw [List.mk_mem_zipIdx_iff_le_and_getElem?_sub] at hmem
  have hraw : '\\' ∉ raw := fun hc => h (mem_of_mem_lines (List.mem_of_getElem? hmem.2) hc)
  have hblank := isEmpty_trim_mask hraw
  simp only [Function.comp_apply, Prod.map_apply, id_eq, hblank]
  split <;> rfl

theorem seesLiterals_eq_of_id_eq : ∀ rule ∈ lineRules, ∀ other ∈ lineRules,
    rule.info.id = other.info.id → rule.seesLiterals = other.seesLiterals := by
  decide +kernel

/-- What a rule that does not look at literals finds on the lines of a document. -/
theorem filter_checkLines {a : Analyzer} (hrules : a.extraRules = []) {rule : LineRule}
    (hrule : rule ∈ lineRules) (hcode : rule.seesLiterals = false) {source : Text}
    (h : '\\' ∉ source) :
    ((a.checkLines source source).map withoutFragment).filter (·.rule == rule.info.id) =
      (codeLines (source.lines.map mask)).flatMap fun line =>
        ((a.rules.filterMap (·.check line)).map withoutFragment).filter
          (·.rule == rule.info.id) := by
  rw [withoutFragment_checkLines hrules rfl, List.filter_flatMap, ← map_codeOnly_documentLines h,
    List.flatMap_map]
  congr 1
  funext line
  rw [List.map_filterMap, List.map_filterMap, List.filter_filterMap, List.filter_filterMap]
  apply List.filterMap_congr
  intro other hother
  simp only [rules, hrules, List.append_nil, List.mem_filter, List.mem_map] at hother
  obtain ⟨⟨lineRule, hmem, rfl⟩, -⟩ := hother
  show Option.filter _ ((lineRule.check line).map withoutFragment) =
    Option.filter _ ((lineRule.check line.codeOnly).map withoutFragment)
  by_cases hid : lineRule.info.id = rule.info.id
  · have hlineRule : lineRule.seesLiterals = false := by
      rw [seesLiterals_eq_of_id_eq lineRule hmem rule hrule hid, hcode]
    rw [LineRule.check_codeOnly hlineRule]
  · have hnone : ∀ line', Option.filter (·.rule == rule.info.id)
        ((lineRule.check line').map withoutFragment) = none := by
      intro line'
      rw [Option.filter_eq_none_iff]
      intro f hf
      obtain ⟨f, hcheck, rfl⟩ := Option.map_eq_some_iff.mp hf
      have hrule : f.rule = lineRule.info.id := LineRule.rule_of_check hcheck
      simpa [withoutFragment, hrule] using hid
    rw [hnone, hnone]

theorem rule_ne_of_mem_checkStatements {document source : Text}
    {parser : Option (Text → Option String)} {f : Finding}
    (h : f ∈ StatementCheck.checkAll document source parser) {rule : LineRule}
    (hrule : rule ∈ lineRules) : f.rule ≠ rule.info.id := by
  obtain ⟨line, hquotes⟩ := StatementCheck.exists_quotes_of_mem_checkAll h
  apply hquotes.rule_ne
  have hids : ∀ rule ∈ lineRules, ∀ info ∈ StatementCheck.rules, info.id ≠ rule.info.id := by
    decide +kernel
  exact hids rule hrule

/-- Texts with the same masked lines get the same findings from rules that do not look at
literals. -/
theorem filter_analyze_eq {a : Analyzer} (hrules : a.extraRules = []) {rule : LineRule}
    (hrule : rule ∈ lineRules) (hcode : rule.seesLiterals = false) {s₁ s₂ : Text}
    (h₁ : '\\' ∉ s₁) (h₂ : '\\' ∉ s₂) (hcomments₁ : a.withoutComments s₁ = s₁)
    (hcomments₂ : a.withoutComments s₂ = s₂) (h : s₁.lines.map mask = s₂.lines.map mask) :
    ((a.analyze s₁).filter (·.rule == rule.info.id)).map withoutFragment =
      ((a.analyze s₂).filter (·.rule == rule.info.id)).map withoutFragment := by
  have hscan : ∀ s : Text, '\\' ∉ s →
      ((a.scan s s).filter (·.rule == rule.info.id)).map withoutFragment =
        (codeLines (s.lines.map mask)).flatMap fun line =>
          ((a.rules.filterMap (·.check line)).map withoutFragment).filter
            (·.rule == rule.info.id) := by
    intro s hs
    have hstatements : (StatementCheck.checkAll s s
        (if a.settings.analysis.strict then some (a.parser a.dialect) else none)).filter
          (·.rule == rule.info.id) = [] := by
      rw [List.filter_eq_nil_iff]
      intro f hf
      simpa using rule_ne_of_mem_checkStatements hf hrule
    rw [← filter_checkLines hrules hrule hcode hs, scan, List.filter_append, hstatements,
      List.append_nil, List.filter_map]
    rfl
  rw [analyze, analyze, hcomments₁, hcomments₂, filter_rule_finish a (· == rule.info.id),
    filter_rule_finish a (· == rule.info.id), map_withoutFragment_finish,
    map_withoutFragment_finish]
  have hreported := reported_congr a ((hscan s₁ h₁).trans (by rw [hscan s₂ h₂, h]))
  rw [hreported]

/-- Two texts without comments and backslashes that differ only inside single-quoted literals get the
same findings, up to the source that they quote, from every rule on lines that does not look at
literals, if the literals close on their lines. -/
theorem analyze_eq_of_outline_eq (registry : Registry) (settings : Settings)
    (parser : Dialect → Text → Option String) (s₁ s₂ : Text) (hback₁ : '\\' ∉ s₁)
    (hback₂ : '\\' ∉ s₂) (hcomments₁ : withoutComments { registry, settings, parser } s₁ = s₁)
    (hcomments₂ : withoutComments { registry, settings, parser } s₂ = s₂)
    (houtline : s₁.outline = s₂.outline) (hcloses : s₁.ClosesOnLines) (rule : LineRule)
    (hrule : rule ∈ lineRules) (hcode : rule.seesLiterals = false) :
    ((analyze { registry, settings, parser } s₁).filter (·.rule == rule.info.id)).map
        withoutFragment =
      ((analyze { registry, settings, parser } s₂).filter (·.rule == rule.info.id)).map
        withoutFragment :=
  filter_analyze_eq rfl hrule hcode hback₁ hback₂ hcomments₁ hcomments₂
    (map_mask_lines_eq hback₁ hback₂ hcloses houtline)

/-- A rule against dropping tables finds nothing in a literal on one line.  If the literal spans
lines, what stands on a line of its own is found, although it can be replaced without a change to the
outline. -/
theorem analyze_eq_of_outline_eq_dropping :
    (∀ rule ∈ lineRules, rule.seesLiterals = false →
      ((analyze { registry := {} } "SELECT 'DROP TABLE x';".toList).filter
          (·.rule == rule.info.id)).map withoutFragment =
        ((analyze { registry := {} } "SELECT 'aaaaaaaaaaaa';".toList).filter
          (·.rule == rule.info.id)).map withoutFragment) ∧
    outline "SELECT 'a\nDROP TABLE x\n';".toList = outline "SELECT 'a\naaaaaaaaaaaa\n';".toList ∧
    (analyze { registry := {} } "SELECT 'a\nDROP TABLE x\n';".toList).length = 1 ∧
    (analyze { registry := {} } "SELECT 'a\naaaaaaaaaaaa\n';".toList).length = 0 := by
  refine ⟨fun rule hrule hcode => ?_, by decide +kernel, ?_, ?_⟩
  · exact analyze_eq_of_outline_eq {} {} StrictParser.verdict "SELECT 'DROP TABLE x';".toList
      "SELECT 'aaaaaaaaaaaa';".toList (by decide +kernel) (by decide +kernel) (by decide +kernel)
      (by decide +kernel) (by decide +kernel) (by decide +kernel) rule hrule hcode
  · simp only [analyze, finish, sort, List.length_mergeSort, List.length_map]
    decide +kernel
  · simp only [analyze, finish, sort, List.length_mergeSort, List.length_map]
    decide +kernel

end Analyzer
end SqlAudit
