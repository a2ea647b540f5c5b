import Mathlib.Data.List.Nodup
import SqlAudit.Proofs.Review.Anchoring
import SqlAudit.Proofs.Review.LiteralInsensitivity

/-!
Which lines a rule reports.  No two rules on lines share a name, and no other check uses one of their
names; so a rule that is not disabled reports the lines on which it fires, and no others.  A text
without newlines is one line for it.
-/

namespace SqlAudit

open Text

namespace LineRule

variable {rule : LineRule} {line : SourceLine}

theorem of_check {f : Finding} (h : rule.check line = some f) :
    rule.fires line = true ∧ f.rule = rule.info.id ∧ f.line = some line.number := by
  rw [check] at h
  by_cases hfires : rule.fires line = true
  · rw [if_pos hfires, Option.some.injEq] at h
    subst h
    exact ⟨hfires, rfl, rfl⟩
  · rw [if_neg hfires] at h
    cases h

theorem exists_check (h : rule.fires line = true) : ∃ f, rule.check line = some f := by
  rw [check, if_pos h]
  exact ⟨_, rfl⟩

end LineRule

namespace Analyzer

theorem eq_of_id_eq {rule other : LineRule} (hrule : rule ∈ lineRules) (hother : other ∈ lineRules)
    (h : other.info.id = rule.info.id) : other = rule := by
  have hnodup : (lineRules.map (·.info.id)).Nodup := by decide
  exact List.inj_on_of_nodup_map hnodup hother hrule h

section

variable {a : Analyzer} (hrules : a.extraRules = []) {rule : LineRule} (hrule : rule ∈ lineRules)
  (henabled : a.settings.rules.isDisabled rule.info.id = false)

include hrules hrule henabled

theorem exists_mem_checkLines_iff (document source : Text) (n : Nat) :
    (∃ f ∈ a.checkLines document source, f.rule = rule.info.id ∧ f.line = some n) ↔
      ∃ line ∈ sourceLines document source, line.number = n ∧ rule.fires line = true := by
  simp only [checkLines, List.mem_flatMap, List.mem_filterMap, rules, hrules, List.append_nil,
    List.mem_filter, List.mem_map]
  constructor
  · rintro ⟨f, ⟨line, hline, _, ⟨⟨other, hother, rfl⟩, -⟩, hcheck⟩, hid, hn⟩
    obtain ⟨hfires, hown, hnumber⟩ := LineRule.of_check hcheck
    rw [eq_of_id_eq hrule hother (hown.symm.trans hid)] at hfires
    rw [hn, Option.some.injEq] at hnumber
    exact ⟨line, hline, hnumber.symm, hfires⟩
  · rintro ⟨line, hline, rfl, hfires⟩
    obtain ⟨f, hcheck⟩ := LineRule.exists_check hfires
    obtain ⟨-, hid, hnumber⟩ := LineRule.of_check hcheck
    refine ⟨f, ⟨line, hline, rule.toRule, ⟨⟨rule, hrule, rfl⟩, ?_⟩, hcheck⟩, hid, hnumber⟩
    show (!a.settings.rules.isDisabled rule.info.id) = true
    rw [henabled]
    rfl

theorem exists_mem_analyze_iff (source : Text) (n : Nat) :
    (∃ f ∈ a.analyze source, f.rule = rule.info.id ∧ f.line = some n) ↔
      ∃ line ∈ sourceLines (a.withoutComments source) source,
        line.number = n ∧ rule.fires line = true := by
  rw [← exists_mem_checkLines_iff hrules hrule henabled]
  constructor
  · rintro ⟨_, hf, hid, hn⟩
    obtain ⟨found, hfound, -, rfl⟩ := mem_finish.mp hf
    rcases List.mem_append.mp hfound with hfound | hfound
    · exact ⟨found, hfound, hid, hn⟩
    · exact absurd hid (rule_ne_of_mem_checkStatements hfound hrule)
  · rintro ⟨f, hf, hid, hn⟩
    refine ⟨a.adjust f, mem_finish.mpr ⟨f, List.mem_append_left _ hf, ?_, rfl⟩, hid, hn⟩
    rw [hid]
    exact henabled

end

/-! ## Texts of one line -/

theorem sourceLines_of_no_newline {document source : Text} (hdocument : '\n' ∉ document)
    (hsource : '\n' ∉ source) (hne : source ≠ []) (hblank : trim document ≠ []) :
    sourceLines document source = [⟨1, document, mask document, source⟩] := by
  have hsome : document ≠ [] := by
    rintro rfl
    exact hblank rfl
  rw [sourceLines, lines_of_no_newline hdocument, lines_of_no_newline hsource, if_neg hsome,
    if_neg hne]
  simp [hblank]

def soleLine (a : Analyzer) (source : Text) : SourceLine :=
  ⟨1, a.withoutComments source, mask (a.withoutComments source), source⟩

theorem exists_mem_analyze_iff_fires {a : Analyzer} (hrules : a.extraRules = []) {rule : LineRule}
    (hrule : rule ∈ lineRules) (henabled : a.settings.rules.isDisabled rule.info.id = false)
    {source : Text} (hsource : '\n' ∉ source) (hblank : trim (a.withoutComments source) ≠ []) :
    (∃ f ∈ a.analyze source, f.rule = rule.info.id ∧ f.line = some 1) ↔
      rule.fires (a.soleLine source) = true := by
  have hblanking : Blanking source (a.withoutComments source) := blanking_blankComments source _
  have hdocument : '\n' ∉ a.withoutComments source := by
    rw [← List.count_eq_zero] at hsource ⊢
    rw [hblanking.count_newline_eq, hsource]
  have hne : source ≠ [] := by
    rintro rfl
    exact hblank rfl
  rw [exists_mem_analyze_iff hrules hrule henabled,
    sourceLines_of_no_newline hdocument hsource hne hblank]
  simp [soleLine]

end Analyzer
end SqlAudit
