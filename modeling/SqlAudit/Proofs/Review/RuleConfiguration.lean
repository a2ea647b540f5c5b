import Mathlib.Data.List.Basic
import SqlAudit.Proofs.Review.Provenance
import SqlAudit.Proofs.Sorting
import SqlAudit.Proofs.Text.Identifier

/-!
What the configuration of rules changes in an analysis.  Rules on lines are left out before they
look at anything, the findings of all other rules are dropped at the end, and severities are replaced
before the findings are put in order.  This comes to the same as taking the findings of an analysis
that is not configured, dropping and changing them one by one, and sorting them again: findings that
tie after the change belong to one rule, and a rule has one severity, so they tied before it.
-/

namespace SqlAudit

open Text

/-! ## Sorting again after a change -/

namespace Finding

theorem ties_before_iff (a b : Finding) : ties before a b = true ↔
    a.place = b.place ∧ a.severity.rank = b.severity.rank ∧ a.rule = b.rule := by
  rw [ties, Bool.and_eq_true, before_iff, before_iff]
  constructor
  · rintro ⟨hab, hba⟩
    have hplace : a.place = b.place := by omega
    have hrank : a.severity.rank = b.severity.rank := by omega
    simp only [hplace, hrank, Nat.lt_irrefl, false_or, true_and] at hab hba
    exact ⟨hplace, hrank, String.le_antisymm hab hba⟩
  · rintro ⟨hplace, hrank, hrule⟩
    simp [hplace, hrank, hrule]

/-- If the severity of findings follows from their rule, sorting before a change of severities makes
no difference to sorting after it. -/
theorem sort_map_filter_sort {fs : List Finding}
    (hfs : ∀ f ∈ fs, ∀ g ∈ fs, f.rule = g.rule → f.severity = g.severity) (p : Finding → Bool)
    (change : Finding → Finding) (hplace : ∀ f, (change f).place = f.place)
    (hrule : ∀ f, (change f).rule = f.rule) :
    sort (((sort fs).filter p).map change) = sort ((fs.filter p).map change) := by
  show List.mergeSort _ before = List.mergeSort _ before
  rw [mergeSort_eq_iff_ties before_trans before_total]
  intro a
  rw [List.filter_map, List.filter_map, List.filter_filter, List.filter_filter, sort,
    filter_mergeSort before_trans before_total, List.mergeSort_of_pairwise]
  -- What ties with `a` after the change is in order already, whatever order it is found in.
  apply List.pairwise_of_forall_mem_list
  intro f hf g hg
  rw [List.mem_filter, Bool.and_eq_true, Function.comp_apply, ties_before_iff, hplace, hrule]
    at hf hg
  obtain ⟨hf, ⟨hfplace, -, hfrule⟩, -⟩ := hf
  obtain ⟨hg, ⟨hgplace, -, hgrule⟩, -⟩ := hg
  have hsame : f.rule = g.rule := hfrule.symm.trans hgrule
  rw [before_iff]
  refine .inr ⟨hfplace.symm.trans hgplace, .inr ⟨?_, hsame ▸ String.le_refl _⟩⟩
  rw [hfs f hf g hg hsame]

theorem totalPenalty_perm {fs gs : List Finding} (h : fs.Perm gs) :
    totalPenalty fs = totalPenalty gs := by
  induction h with
  | nil => rfl
  | cons f _ ih => rw [totalPenalty, totalPenalty, ih]
  | swap f g rest =>
    simp only [totalPenalty]
    omega
  | trans _ _ ih₁ ih₂ => exact ih₁.trans ih₂

theorem totalPenalty_le_of_sublist {fs gs : List Finding} (h : fs.Sublist gs) :
    totalPenalty fs ≤ totalPenalty gs := by
  induction h with
  | slnil => exact Nat.le_refl _
  | cons g _ ih =>
    rw [totalPenalty]
    omega
  | cons_cons f _ ih =>
    rw [totalPenalty, totalPenalty]
    omega

theorem score_sort (fs : List Finding) : score (sort fs) = score fs := by
  rw [score, score, sort, totalPenalty_perm (List.mergeSort_perm fs before)]

theorem score_le_of_sublist {fs gs : List Finding} (h : fs.Sublist gs) : score gs ≤ score fs := by
  have := totalPenalty_le_of_sublist h
  rw [score, score]
  omega

end Finding

open Finding

/-! ## Severities by rule -/

namespace RuleSettings

def override (rules : RuleSettings) (f : Finding) : Finding :=
  { f with severity := (rules.severity? f.rule).getD f.severity }

def DistinctKeys (rules : RuleSettings) : Prop :=
  rules.severities.Pairwise fun a b => sameName a.1 b.1 = false

instance (rules : RuleSettings) : Decidable rules.DistinctKeys :=
  inferInstanceAs (Decidable (List.Pairwise _ _))

theorem isDisabled_iff (rules : RuleSettings) (rule : String) :
    rules.isDisabled rule = true ↔ ∃ id ∈ rules.disabled, sameName id rule = true := by
  rw [isDisabled, List.any_eq_true]

theorem isDisabled_eq_false_iff (rules : RuleSettings) (rule : String) :
    rules.isDisabled rule = false ↔ ∀ id ∈ rules.disabled, sameName id rule = false := by
  simp [isDisabled]

theorem severity?_empty (rule : String) : severity? {} rule = none := rfl

theorem severity?_eq_some_iff {rules : RuleSettings} (h : rules.DistinctKeys) (rule : String)
    (severity : Severity) :
    rules.severity? rule = some severity ↔ ∃ entry ∈ rules.severities,
      sameName entry.1 rule = true ∧ Severity.ofName? entry.2 = some severity := by
  rw [DistinctKeys] at h
  rw [severity?]
  generalize rules.severities = entries at *
  induction entries with
  | nil => simp
  | cons entry rest ih =>
    obtain ⟨hfirst, hrest⟩ := List.pairwise_cons.mp h
    rw [List.findSome?_cons]
    by_cases hname : sameName entry.1 rule = true
    · have hother : ∀ other ∈ rest, sameName other.1 rule = false := by
        intro other hmem
        rw [Bool.eq_false_iff]
        intro hsame
        have hsame := sameName_trans hname (sameName_symm hsame)
        rw [hfirst other hmem] at hsame
        cases hsame
      have hnone : rest.findSome? (fun other =>
          if sameName other.1 rule then Severity.ofName? other.2 else none) = none := by
        rw [List.findSome?_eq_none_iff]
        intro other hmem
        rw [hother other hmem, if_neg (by simp)]
      rw [if_pos hname, hnone]
      constructor
      · intro hfound
        refine ⟨entry, List.mem_cons_self, hname, ?_⟩
        cases hread : Severity.ofName? entry.2 with
        | none => simp [hread] at hfound
        | some found => simpa [hread] using hfound
      · rintro ⟨other, hmem, hsame, hread⟩
        rcases List.mem_cons.mp hmem with rfl | hmem
        · rw [hread]
        · rw [hother other hmem] at hsame
          cases hsame
    · rw [if_neg hname]
      simp only [ih hrest, List.mem_cons, exists_eq_or_imp, hname, false_and, false_or,
        Bool.false_eq_true]

end RuleSettings

/-! ## Findings before they are adjusted -/

namespace Analyzer

def found (a : Analyzer) (source : Text) (e : Extraction) : List Finding :=
  a.scan (a.withoutComments source) source ++
    a.checkSchema (a.withoutComments source) source e

/-- What is found on statements and about tables. -/
def foundBesidesLines (a : Analyzer) (source : Text) (e : Extraction) : List Finding :=
  StatementCheck.checkAll (a.withoutComments source) source
      (if a.settings.analysis.strict then some (a.parser a.dialect) else none) ++
    a.checkSchema (a.withoutComments source) source e

theorem found_eq (a : Analyzer) (source : Text) (e : Extraction) :
    a.found source e =
      a.checkLines (a.withoutComments source) source ++ a.foundBesidesLines source e := by
  rw [found, scan, foundBesidesLines, List.append_assoc]

/-- Whatever is found belongs to a known rule and has its concern and severity. -/
theorem exists_info_of_mem_found {a : Analyzer} (hrules : a.extraRules = []) {source : Text}
    {e : Extraction} {f : Finding} (h : f ∈ a.found source e) :
    ∃ info ∈ knownRules, f.rule = info.id ∧ f.concern = info.concern ∧
      f.severity = info.severity := by
  have hknown : ∀ {infos line}, f.Quotes infos source line → (∀ info ∈ infos, info ∈ knownRules) →
      ∃ info ∈ knownRules, f.rule = info.id ∧ f.concern = info.concern ∧
        f.severity = info.severity := by
    intro infos line hf hsub
    obtain ⟨info, hinfo, hrule⟩ := hf.rule
    exact ⟨info, hsub info hinfo, hrule⟩
  simp only [found, checkSchema, List.mem_append, List.mem_flatMap, List.mem_filterMap] at h
  rcases h with h | (⟨table, -, h⟩ | ⟨skipped, -, h⟩) | h
  · obtain ⟨line, hf⟩ := exists_quotes_of_mem_scan hrules h
    exact hknown hf fun info => List.mem_append_left _
  · exact hknown (SchemaCheck.quotes_of_mem_checkTable h) (by decide +kernel)
  · exact ⟨SchemaCheck.unreadableColumn, by decide +kernel, (SchemaCheck.of_checkSkipped h).1⟩
  · obtain ⟨line, hf⟩ := PredicateCheck.exists_quotes_of_mem_checkAll h
    exact hknown hf (by decide +kernel)

theorem severity_eq_of_mem_found {a : Analyzer} (hrules : a.extraRules = []) {source : Text}
    {e : Extraction} {f g : Finding} (hf : f ∈ a.found source e) (hg : g ∈ a.found source e)
    (hrule : f.rule = g.rule) : f.severity = g.severity := by
  have hids : ∀ i ∈ knownRules, ∀ j ∈ knownRules, i.id = j.id → i.severity = j.severity := by
    decide +kernel
  obtain ⟨i, hi, hfi, -, hseverityi⟩ := exists_info_of_mem_found hrules hf
  obtain ⟨j, hj, hgj, -, hseverityj⟩ := exists_info_of_mem_found hrules hg
  rw [hseverityi, hseverityj]
  exact hids i hi j hj (by rw [← hfi, ← hgj, hrule])

theorem analyzeWithSchema_eq_finish (a : Analyzer) (source : Text) (e : Extraction) :
    a.analyzeWithSchema source e = a.finish (a.found source e) := rfl

section

variable (registry : Registry) (analysis : AnalysisSettings)
  (parser : Dialect → Text → Option String)

def configured (rules : RuleSettings) : Analyzer :=
  { registry, settings := { analysis, rules }, parser }

/-- Leaving a rule out beforehand drops the findings that would be dropped at the end. -/
theorem filter_checkLines_configured (rules : RuleSettings) (document source : Text) :
    ((configured registry analysis parser rules).checkLines document source).filter
        (!rules.isDisabled ·.rule) =
      ((configured registry analysis parser {}).checkLines document source).filter
        (!rules.isDisabled ·.rule) := by
  rw [checkLines, checkLines, List.filter_flatMap, List.filter_flatMap]
  congr 1
  funext line
  simp only [Analyzer.rules, configured, List.append_nil]
  rw [List.filter_filterMap, List.filter_filterMap, List.filterMap_filter, List.filterMap_filter]
  apply List.filterMap_congr
  intro rule hrule
  obtain ⟨lineRule, -, rfl⟩ := List.mem_map.mp hrule
  show _ = Option.filter _ (lineRule.check line)
  cases hcheck : lineRule.check line with
  | none => simp [LineRule.toRule, hcheck]
  | some f =>
    have hid : f.rule = lineRule.info.id := LineRule.rule_of_check hcheck
    cases hdisabled : rules.isDisabled lineRule.info.id with
    | false => simp [LineRule.toRule, hcheck, hid, hdisabled, Option.filter_some]
    | true => simp [LineRule.toRule, hid, hdisabled, Option.filter_some]

theorem filter_found_configured (rules : RuleSettings) (source : Text) (e : Extraction) :
    ((configured registry analysis parser rules).found source e).filter
        (!rules.isDisabled ·.rule) =
      ((configured registry analysis parser {}).found source e).filter
        (!rules.isDisabled ·.rule) := by
  have hdocument : (configured registry analysis parser rules).withoutComments source =
      (configured registry analysis parser {}).withoutComments source := rfl
  have hsecond : (configured registry analysis parser rules).foundBesidesLines source e =
      (configured registry analysis parser {}).foundBesidesLines source e := rfl
  rw [found_eq, found_eq, List.filter_append, List.filter_append, hdocument, hsecond,
    filter_checkLines_configured]

theorem adjust_configured (rules : RuleSettings) (f : Finding) :
    (configured registry analysis parser rules).adjust f =
      rules.override ((configured registry analysis parser {}).adjust f) := by
  simp only [adjust, configured, RuleSettings.override, RuleSettings.severity?_empty,
    Option.getD_none]

theorem severity_adjust_configured (f : Finding) :
    ((configured registry analysis parser {}).adjust f).severity = f.severity := by
  simp only [adjust, configured, RuleSettings.severity?_empty, Option.getD_none]

theorem finish_configured (fs : List Finding) :
    (configured registry analysis parser {}).finish fs =
      sort (fs.map (configured registry analysis parser {}).adjust) := by
  have hall : fs.filter (fun f =>
      !(configured registry analysis parser {}).settings.rules.isDisabled f.rule) = fs := by
    simp [configured, RuleSettings.isDisabled]
  rw [finish, hall]

/-- The configuration of rules acts on each finding apart; then the findings are sorted. -/
theorem analyzeWithSchema_eq_sort (rules : RuleSettings) (source : Text) (e : Extraction) :
    (configured registry analysis parser rules).analyzeWithSchema source e =
      sort ((((configured registry analysis parser {}).analyzeWithSchema source e).filter
        (!rules.isDisabled ·.rule)).map rules.override) := by
  generalize hplain : configured registry analysis parser {} = plain
  have hseverity : ∀ f ∈ (plain.found source e).map plain.adjust,
      ∀ g ∈ (plain.found source e).map plain.adjust, f.rule = g.rule →
        f.severity = g.severity := by
    intro f hf g hg hrule
    obtain ⟨f₀, hf₀, rfl⟩ := List.mem_map.mp hf
    obtain ⟨g₀, hg₀, rfl⟩ := List.mem_map.mp hg
    rw [← hplain, severity_adjust_configured, severity_adjust_configured]
    exact severity_eq_of_mem_found (by simp only [← hplain, configured]) hf₀ hg₀ hrule
  calc (configured registry analysis parser rules).analyzeWithSchema source e
    _ = sort ((((configured registry analysis parser rules).found source e).filter
          (!rules.isDisabled ·.rule)).map
            (configured registry analysis parser rules).adjust) := rfl
    _ = sort (((plain.found source e).filter (!rules.isDisabled ·.rule)).map
          (rules.override ∘ plain.adjust)) := by
        rw [filter_found_configured, hplain,
          funext (adjust_configured registry analysis parser rules), hplain]
        rfl
    _ = sort ((((plain.found source e).map plain.adjust).filter (!rules.isDisabled ·.rule)).map
          rules.override) := by
        rw [List.filter_map, List.map_map]
        rfl
    _ = sort (((plain.analyzeWithSchema source e).filter (!rules.isDisabled ·.rule)).map
          rules.override) := by
        rw [← sort_map_filter_sort hseverity _ rules.override (fun _ => rfl) (fun _ => rfl),
          analyzeWithSchema_eq_finish, ← hplain, finish_configured]

/-- The more rules are disabled, the higher the score. -/
theorem score_analyzeWithSchema_mono (rules more : RuleSettings)
    (hseverities : more.severities = rules.severities) (hdisabled : rules.disabled ⊆ more.disabled)
    (source : Text) (e : Extraction) :
    score ((configured registry analysis parser rules).analyzeWithSchema source e) ≤
      score ((configured registry analysis parser more).analyzeWithSchema source e) := by
  rw [analyzeWithSchema_eq_sort registry analysis parser rules,
    analyzeWithSchema_eq_sort registry analysis parser more, score_sort, score_sort]
  have hoverride : more.override = rules.override := by
    funext f
    rw [RuleSettings.override, RuleSettings.override, RuleSettings.severity?,
      RuleSettings.severity?, hseverities]
  rw [hoverride]
  apply score_le_of_sublist
  apply List.Sublist.map
  apply List.monotone_filter_right
  intro f hf
  rw [Bool.not_eq_true', RuleSettings.isDisabled_eq_false_iff] at hf ⊢
  intro id hid
  exact hf id (hdisabled hid)

/-- What a configuration of the known rules does to the findings without one: those of disabled
rules go, the others get the severity that is written for their rule, and all are sorted again.  So a
disabled rule reports nothing, and disabling more rules never lowers the score. -/
theorem analyzeWithSchema_pointwise (rules : RuleSettings) (hkeys : rules.DistinctKeys)
    (source : Text) (e : Extraction) :
    analyzeWithSchema { registry, settings := { analysis, rules }, parser } source e =
        sort (((analyzeWithSchema { registry, settings := { analysis }, parser } source e).filter
          (!rules.isDisabled ·.rule)).map rules.override) ∧
      (∀ rule, rules.isDisabled rule = true ↔
        ∃ id ∈ rules.disabled, sameName id rule = true) ∧
      (∀ rule severity, rules.severity? rule = some severity ↔
        ∃ entry ∈ rules.severities, sameName entry.1 rule = true ∧
          Severity.ofName? entry.2 = some severity) ∧
      (∀ f ∈ analyzeWithSchema { registry, settings := { analysis, rules }, parser } source e,
        ∀ id ∈ rules.disabled, sameName id f.rule = false) ∧
      ∀ disabled, rules.disabled ⊆ disabled →
        score (analyzeWithSchema { registry, settings := { analysis, rules }, parser } source e) ≤
          score (analyzeWithSchema
            { registry, settings := { analysis, rules := { rules with disabled } }, parser }
            source e) := by
  have hsort := analyzeWithSchema_eq_sort registry analysis parser rules source e
  refine ⟨hsort, rules.isDisabled_iff, RuleSettings.severity?_eq_some_iff hkeys, ?_, ?_⟩
  · intro f hf id hid
    -- A finding of the result is one of the plain findings that were kept, and the change of its
    -- severity leaves its rule as it is.
    rw [← configured, hsort, sort, List.mem_mergeSort, List.mem_map] at hf
    obtain ⟨f₀, hf₀, rfl⟩ := hf
    obtain ⟨-, hkept⟩ := List.mem_filter.mp hf₀
    rw [Bool.not_eq_true', RuleSettings.isDisabled_eq_false_iff] at hkept
    exact hkept id hid
  · intro disabled hdisabled
    exact score_analyzeWithSchema_mono registry analysis parser rules { rules with disabled } rfl
      hdisabled source e

end

/-- One rule is disabled under a name in small letters and the severity of another one is lowered:
of two findings the lowered one is left. -/
theorem analyzeWithSchema_pointwise_lowered :
    (analyzeWithSchema { registry := {} } "SELECT * FROM t;\nDROP TABLE t;".toList {}).length = 2 ∧
    (analyzeWithSchema { registry := {}, settings := { rules :=
          { disabled := ["perf001"], severities := [("sec003", "low")] } } }
        "SELECT * FROM t;\nDROP TABLE t;".toList {}).map (fun f => (f.rule, f.severity)) =
      [("SEC003", .low)] := by
  have hfound : (found { registry := {} } "SELECT * FROM t;\nDROP TABLE t;".toList {}).map
      (fun f => (f.rule, f.severity)) = [("PERF001", .medium), ("SEC003", .high)] := by
    decide +kernel
  have hplain : analyzeWithSchema { registry := {} } "SELECT * FROM t;\nDROP TABLE t;".toList {} =
      sort ((found { registry := {} } "SELECT * FROM t;\nDROP TABLE t;".toList {}).map
        (adjust { registry := {} })) :=
    finish_configured {} {} StrictParser.verdict _
  obtain ⟨hsort, -⟩ := analyzeWithSchema_pointwise {} {} StrictParser.verdict
    { disabled := ["perf001"], severities := [("sec003", "low")] } (by decide)
    "SELECT * FROM t;\nDROP TABLE t;".toList {}
  rw [hsort, hplain]
  generalize found { registry := {} } "SELECT * FROM t;\nDROP TABLE t;".toList {} = fs at hfound
  simp only [List.map_eq_cons_iff, List.map_eq_nil_iff, Prod.mk.injEq] at hfound
  obtain ⟨f, -, rfl, ⟨hf, -⟩, g, -, rfl, ⟨hg, -⟩, rfl⟩ := hfound
  refine ⟨by simp [sort], ?_⟩
  -- Sorting does not compute, but of the two findings only one is left to be sorted.
  have hkept : ([f, g].map (adjust { registry := {} })).filter
      (!RuleSettings.isDisabled
        { disabled := ["perf001"], severities := [("sec003", "low")] } ·.rule) =
      [adjust { registry := {} } g] := by
    have hfirst : sameName "perf001" "PERF001" = true := by decide
    have hsecond : sameName "perf001" "SEC003" = false := by decide
    simp [adjust, hf, hg, RuleSettings.isDisabled, hfirst, hsecond]
  have hlow : RuleSettings.severity?
      { disabled := ["perf001"], severities := [("sec003", "low")] } "SEC003" = some .low := by
    decide +kernel
  rw [sort, sort, filter_mergeSort before_trans before_total, hkept]
  simp [RuleSettings.override, adjust, hg, hlow]

end Analyzer
end SqlAudit
