import Mathlib.Data.List.Forall2
import SqlAudit.Proofs.Review.Anchoring
import SqlAudit.Proofs.Review.RuleConfiguration
import SqlAudit.Render.Basic

/-!
What a SARIF log says.  It has one run, with one result for each finding of each report.  Every rule
that a finding can belong to is described once in the driver of the run, whatever a configuration
makes of its severity, and every finding has a line for its result to point at.
-/

namespace SqlAudit

/-! ## Reading documents -/

namespace Document

def part? (name : String) : Document → Option Document
  | .record fields => fields.lookup name
  | _ => none

def at? (d : Document) (path : List String) : Option Document :=
  path.foldlM (fun d name => d.part? name) d

def textAt? (d : Document) (path : List String) : Option String :=
  match d.at? path with
  | some (.text value) => some value
  | _ => none

def itemsAt? (d : Document) (path : List String) : Option (List Document) :=
  match d.at? path with
  | some (.list items) => some items
  | _ => none

end Document

/-! ## Findings of reports -/

namespace Analyzer

open Text

theorem exists_line_of_anchored {source : Text} {f : Finding} (h : Anchored source f) :
    ∃ n, f.line = some n ∧ 1 ≤ n := by
  rcases h with ⟨infos, n, -, hone, -, hquotes⟩ | ⟨skipped, hskipped, hcheck⟩
  · exact ⟨n, hquotes.line_eq, hone⟩
  · obtain ⟨-, hline, -⟩ := SchemaCheck.of_checkSkipped hcheck
    exact ⟨skipped.line, hline, ((blanking_blankComments source false).bounds
      ((Extraction.allPlaced_ofText source).2 skipped hskipped)).1⟩

/-- A finding of a report belongs to a known rule and has its concern, and it has a line.  Its
severity is whatever the settings say. -/
theorem exists_info_and_line_of_mem_review {registry : Registry} {settings : Settings}
    {parser : Dialect → Text → Option String} {source : Text} {f : Finding}
    (h : f ∈ (review { registry, settings, parser } source).findings) :
    (∃ info ∈ knownRules, f.rule = info.id ∧ f.concern = info.concern) ∧
      ∃ n, f.line = some n ∧ 1 ≤ n := by
  obtain ⟨found, hfound, hanchored, rfl⟩ := exists_anchored_of_mem_review rfl h
  obtain ⟨info, hinfo, hrule, hconcern, -⟩ := exists_info_of_mem_found rfl hfound
  obtain ⟨n, hline, hone⟩ := exists_line_of_anchored hanchored
  exact ⟨⟨info, hinfo, hrule, hconcern⟩, n, hline, hone⟩

/-- The findings of a report, up to their order. -/
theorem findings_review_perm (a : Analyzer) (source : Text) :
    (a.review source).findings.Perm
      (((a.found source (Extraction.ofText source)).filter
        (!a.settings.rules.isDisabled ·.rule)).map a.adjust) :=
  (List.mergeSort_perm _ _).trans (List.mergeSort_perm _ _)

end Analyzer

/-! ## The log -/

namespace Sarif

/-- A result says what a finding from a source says, and the rule of the finding is described once
among the rules, with the same concern. -/
structure Describes (rules : List Document) (source : String) (f : Finding) (result : Document) :
    Prop where
  rule : result.textAt? ["ruleId"] = some f.rule
  listed : ∃ rule, rules.filter (fun r => r.textAt? ["id"] = some f.rule) = [rule] ∧
    rule.textAt? ["properties", "category"] = some f.concern.key
  category : result.textAt? ["properties", "category"] = some f.concern.key
  error : result.textAt? ["level"] = some "error" ↔ f.severity = .critical ∨ f.severity = .high
  warning : result.textAt? ["level"] = some "warning" ↔ f.severity = .medium
  note : result.textAt? ["level"] = some "note" ↔ f.severity = .low
  location : ∃ place n, result.itemsAt? ["locations"] = some [place] ∧
    place.textAt? ["physicalLocation", "artifactLocation", "uri"] = some source ∧
    place.at? ["physicalLocation", "region", "startLine"] = some (.natural n) ∧
    f.line = some n ∧ 1 ≤ n

/-- No two known rules have one name. -/
theorem filter_rules_id : ∀ info ∈ knownRules,
    knownRules.filter (fun other => other.id = info.id) = [info] := by
  decide +kernel

theorem filter_descriptions {info : RuleInfo} (hinfo : info ∈ knownRules) :
    (knownRules.map rule).filter (fun r => r.textAt? ["id"] = some info.id) = [rule info] := by
  have hid : ∀ other : RuleInfo, (rule other).textAt? ["id"] = some other.id := fun _ => rfl
  rw [List.filter_map]
  simp only [Function.comp_def, hid, Option.some.injEq]
  rw [filter_rules_id info hinfo, List.map_singleton]

theorem describes_result (source : String) {f : Finding} {n : Nat}
    (hrule : ∃ info ∈ knownRules, f.rule = info.id ∧ f.concern = info.concern)
    (hline : f.line = some n) (hone : 1 ≤ n) :
    Describes (knownRules.map rule) source f (result source f) := by
  have hlevel : (result source f).textAt? ["level"] = some (level f.severity) := rfl
  obtain ⟨info, hinfo, hid, hconcern⟩ := hrule
  refine ⟨rfl, ⟨rule info, ?_, ?_⟩, rfl, ?_, ?_, ?_, location source f, n, rfl, rfl, ?_, hline, hone⟩
  · rw [hid]
    exact filter_descriptions hinfo
  · rw [hconcern]
    rfl
  · rw [hlevel]
    cases f.severity <;> decide
  · rw [hlevel]
    cases f.severity <;> decide
  · rw [hlevel]
    cases f.severity <;> decide
  · simp only [location, hline]
    rfl

/-- Findings of reports with the sources that they are from, in the order of the reports. -/
def origins (reports : List SourceReport) : List (String × Finding) :=
  reports.flatMap fun s => s.report.findings.map (s.source, ·)

theorem flatMap_results (reports : List SourceReport) :
    reports.flatMap results = (origins reports).map fun origin => result origin.1 origin.2 := by
  rw [origins, List.map_flatMap]
  simp only [List.map_map]
  rfl

/-- Reports of the known rules, under whatever settings, are written as a log of one run that has, in
order, a result for each finding of each report. -/
theorem render_describes_findings (p : Presentation) (hp : p.format = .sarif)
    (reports : List SourceReport)
    (hreports : ∀ s ∈ reports, ∃ registry settings parser source,
      s.report = Analyzer.review { registry, settings, parser } source) :
    p.render reports = (log reports).json ∧
      ∃ (run : Document) (rules results : List Document),
        (log reports).itemsAt? ["runs"] = some [run] ∧
        run.itemsAt? ["tool", "driver", "rules"] = some rules ∧
        run.itemsAt? ["results"] = some results ∧
        List.Forall₂ (fun origin result => Describes rules origin.1 origin.2 result)
          (origins reports) results := by
  constructor
  · rw [Presentation.render, hp]
  · refine ⟨_, knownRules.map rule, reports.flatMap results, rfl, rfl, rfl, ?_⟩
    rw [flatMap_results, List.forall₂_map_right_iff, List.forall₂_same]
    rintro ⟨source, f⟩ horigin
    simp only [origins, List.mem_flatMap, List.mem_map, Prod.mk.injEq] at horigin
    obtain ⟨s, hs, _, hf, rfl, rfl⟩ := horigin
    obtain ⟨registry, settings, parser, text, hreport⟩ := hreports s hs
    rw [hreport] at hf
    obtain ⟨hrule, n, hline, hone⟩ := Analyzer.exists_info_and_line_of_mem_review hf
    exact describes_result s.source hrule hline hone

def quietSettings : Settings := { rules := { severities := [("sec001", "info")] } }

def deletionReports : List SourceReport :=
  [⟨"a.sql", Analyzer.review { registry := {} } "SELECT 1;".toList⟩,
   ⟨"b.sql", Analyzer.review { registry := {}, settings := quietSettings }
      "DELETE FROM t;".toList⟩]

/-- The log on two sources, of which the second one deletes every row of a table. -/
theorem render_describes_deletion :
    ∃ (reports : List SourceReport) (run result : Document), reports.length = 2 ∧
      ({ format := .sarif : Presentation }).render reports = (log reports).json ∧
      (log reports).itemsAt? ["runs"] = some [run] ∧ run.itemsAt? ["results"] = some [result] ∧
      result.textAt? ["ruleId"] = some "SEC001" ∧ result.textAt? ["level"] = some "note" := by
  have hreports : ∀ s ∈ deletionReports, ∃ registry settings parser source,
      s.report = Analyzer.review { registry, settings, parser } source := by
    intro s hs
    rcases List.mem_cons.mp hs with rfl | hs
    · exact ⟨_, _, _, _, rfl⟩
    · rw [List.mem_singleton.mp hs]
      exact ⟨_, _, _, _, rfl⟩
  obtain ⟨hrender, run, rules, results, hruns, -, hresults, hdescribes⟩ :=
    render_describes_findings { format := .sarif } rfl deletionReports hreports
  -- One finding is left in whatever order the findings are put.
  have hkinds : (origins deletionReports).map (fun o => (o.2.rule, o.2.severity)) = [("SEC001", .low)] := by
    have hfirst := (Analyzer.findings_review_perm { registry := {} } "SELECT 1;".toList).map
      fun f => (f.rule, f.severity)
    have hsecond := (Analyzer.findings_review_perm { registry := {}, settings := quietSettings }
      "DELETE FROM t;".toList).map fun f => (f.rule, f.severity)
    simp only [origins, deletionReports, List.flatMap_cons, List.flatMap_nil, List.map_append, List.map_map,
      Function.comp_def, List.append_nil]
    rw [List.perm_nil.mp (hfirst.trans (.of_eq (by decide +kernel))),
      List.perm_singleton.mp (hsecond.trans (.of_eq
        (show _ = [("SEC001", Severity.low)] by decide +kernel)))]
    rfl
  obtain ⟨⟨source, f⟩, horigins, hkind⟩ := List.map_eq_singleton_iff.mp hkinds
  rw [horigins] at hdescribes
  obtain ⟨result, _, hresult, hrest, rfl⟩ := List.forall₂_cons_left_iff.mp hdescribes
  obtain rfl := List.forall₂_nil_left_iff.mp hrest
  obtain ⟨hrule, hseverity⟩ := Prod.mk.inj hkind
  exact ⟨deletionReports, run, result, rfl, hrender, hruns, hresults, hrule ▸ hresult.rule,
    hresult.note.mpr hseverity⟩

end Sarif
end SqlAudit
