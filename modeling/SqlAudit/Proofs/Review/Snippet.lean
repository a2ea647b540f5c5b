import SqlAudit.Proofs.Lexical.Tidy
import SqlAudit.Proofs.Review.IndexRemedy
import SqlAudit.Proofs.Sorting

/-!
Snippets and the width that they are cut to.  A snippet is the trimmed text, or as much of its start
as leaves room for three dots.  It stays within its width as long as the dots do: below three
characters a text that is cut gives the dots alone.  A snippet that is cut again stays as it is, and
so do findings that are adjusted and put in order twice.
-/

namespace SqlAudit
namespace Text

variable {t : Text} {width : Nat}

theorem snippet_of_fits (h : (trim t).length ≤ width) : snippet t width = trim t := if_pos h

theorem snippet_of_exceeds (h : width < (trim t).length) :
    snippet t width = (trim t).take (width - 3) ++ ['.', '.', '.'] := if_neg (Nat.not_le.mpr h)

/-- The dots are written whether there is room for them or not. -/
theorem length_snippet_of_exceeds (h : width < (trim t).length) :
    (snippet t width).length = max width 3 := by
  rw [snippet_of_exceeds h, List.length_append, List.length_take]
  show min (width - 3) (trim t).length + 3 = max width 3
  omega

theorem length_snippet_le_max (t : Text) (width : Nat) :
    (snippet t width).length ≤ max width 3 := by
  by_cases h : (trim t).length ≤ width
  · rw [snippet_of_fits h]
    omega
  · exact Nat.le_of_eq (length_snippet_of_exceeds (Nat.not_le.mp h))

theorem length_snippet_le_iff (t : Text) (width : Nat) :
    (snippet t width).length ≤ width ↔ 3 ≤ width ∨ (trim t).length ≤ width := by
  by_cases h : (trim t).length ≤ width
  · rw [snippet_of_fits h]
    exact ⟨.inr, fun _ => h⟩
  · rw [length_snippet_of_exceeds (Nat.not_le.mp h)]
    omega

/-! ## Cutting again -/

/-- The start of a trimmed text does not begin with a blank, and dots do not end with one. -/
theorem trimmed_append_dots {kept : Text} (h : kept <+: trim t) :
    Trimmed (kept ++ ['.', '.', '.']) := by
  refine ⟨?_, kept ++ ['.', '.'], '.', by simp, by decide⟩
  cases kept with
  | nil => exact ⟨'.', ['.', '.'], rfl, by decide⟩
  | cons c more =>
    obtain ⟨rest, hrest⟩ := h
    exact ⟨c, more ++ ['.', '.', '.'], rfl, isBlank_eq_false_of_trim_eq_cons hrest.symm⟩

theorem trim_snippet (t : Text) (width : Nat) : trim (snippet t width) = snippet t width := by
  by_cases h : (trim t).length ≤ width
  · rw [snippet_of_fits h, trim_trim]
  · rw [snippet_of_exceeds (Nat.not_le.mp h)]
    exact (trimmed_append_dots (List.take_prefix _ _)).trim_eq

theorem snippet_snippet (t : Text) (width : Nat) :
    snippet (snippet t width) width = snippet t width := by
  by_cases hroom : (snippet t width).length ≤ width
  · rw [snippet_of_fits (by rwa [trim_snippet]), trim_snippet]
  · -- Without room for the dots, either cut keeps nothing besides them.
    have hagain : width < (trim (snippet t width)).length := by
      rw [trim_snippet]
      omega
    rw [length_snippet_le_iff, not_or] at hroom
    have hnone : width - 3 = 0 := by omega
    rw [snippet_of_exceeds hagain, snippet_of_exceeds (by omega), hnone, List.take_zero,
      List.take_zero]

/-- A snippet is the trimmed text where that fits, otherwise as much of its start as there is room
for and three dots, and a second cut leaves it as it is.  It is within its width exactly when the
dots have room there or are not needed. -/
theorem snippet_within_width_iff (t : Text) (width : Nat) :
    ((snippet t width).length ≤ width ↔ 3 ≤ width ∨ (trim t).length ≤ width) ∧
    ((trim t).length ≤ width → snippet t width = trim t) ∧
    (width < (trim t).length → ∃ kept, kept <+: trim t ∧ kept.length = width - 3 ∧
      snippet t width = kept ++ ['.', '.', '.']) ∧
    snippet (snippet t width) width = snippet t width := by
  refine ⟨length_snippet_le_iff t width, snippet_of_fits, fun h => ?_, snippet_snippet t width⟩
  refine ⟨(trim t).take (width - 3), List.take_prefix _ _, ?_, snippet_of_exceeds h⟩
  rw [List.length_take]
  omega

/-- No characters are asked for, and three are given. -/
theorem snippet_exceeds_no_width :
    snippet ['a'] 0 = ['.', '.', '.'] ∧ ¬ (snippet ['a'] 0).length ≤ 0 := by
  obtain ⟨hroom, -, hcut, -⟩ := snippet_within_width_iff ['a'] 0
  obtain ⟨kept, -, hnone, hdots⟩ := hcut (by decide)
  rw [List.length_eq_zero_iff.mp hnone, List.nil_append] at hdots
  exact ⟨hdots, fun h => absurd (hroom.mp h) (by decide)⟩

end Text

/-! ## Findings -/

namespace Analyzer

theorem adjust_adjust (a : Analyzer) (f : Finding) : a.adjust (a.adjust f) = a.adjust f := by
  simp only [adjust, String.toList_ofList, Text.snippet_snippet]
  cases a.settings.rules.severity? f.rule <;> rfl

/-- Findings that were adjusted and put in order stay so under the same settings. -/
theorem finish_finish (a : Analyzer) (fs : List Finding) : a.finish (a.finish fs) = a.finish fs := by
  have henabled : (a.finish fs).filter (fun f => !a.settings.rules.isDisabled f.rule) =
      a.finish fs := by
    refine List.filter_eq_self.mpr fun f hf => ?_
    obtain ⟨found, -, hon, rfl⟩ := mem_finish.mp hf
    rw [rule_adjust, hon]
    rfl
  have hadjusted : (a.finish fs).map a.adjust = a.finish fs := by
    refine (List.map_congr_left fun f hf => ?_).trans (List.map_id _)
    obtain ⟨found, -, rfl⟩ := exists_of_mem_finish hf
    exact adjust_adjust a found
  rw [finish, henabled, hadjusted]
  exact Finding.sort_sort _

/-- A report quotes no more of the source than the settings allow, except that three dots are
written below a width of three. -/
theorem length_fragment_le_of_mem_review {a : Analyzer} {source : Text} {f : Finding}
    (h : f ∈ (a.review source).findings) :
    f.fragment.toList.length ≤ max a.settings.analysis.snippetWidth 3 := by
  obtain ⟨found, -, -, rfl⟩ := mem_findings_review.mp h
  rw [adjust, String.toList_ofList]
  exact Text.length_snippet_le_max _ _

end Analyzer
end SqlAudit
