import SqlAudit.Proofs.Review.RuleConfiguration
import SqlAudit.Report.Basic

/-!
The parts of a report agree.  The order of its findings, its counts, its score, its worst severity
and the exit status of several reports are each computed on their own; all of them follow from the
numbers of findings of each severity.
-/

namespace SqlAudit

/-! ## The order of findings -/

namespace Finding

/-- The first line comes before the second.  No line comes after every line. -/
def LineBefore : Option Nat → Option Nat → Prop
  | some m, some n => m < n
  | some _, none => True
  | none, _ => False

/-- A finding may stand before another one: by line, then the more severe first, then by rule. -/
def Precedes (a b : Finding) : Prop :=
  LineBefore a.line b.line ∨ a.line = b.line ∧
    (b.severity.rank < a.severity.rank ∨ a.severity = b.severity ∧ a.rule ≤ b.rule)

/-- All that the order of findings looks at. -/
def key (f : Finding) : Option Nat × Severity × String := (f.line, f.severity, f.rule)

/-- The line of a finding, if it has one, comes before the place of those that have none. -/
def InRange (f : Finding) : Prop := ∀ n, f.line = some n → n < twoTo 64 - 1

theorem place_cases {f : Finding} (h : f.InRange) :
    f.line = none ∧ f.place = twoTo 64 - 1 ∨
      ∃ n, f.line = some n ∧ f.place = n ∧ n < twoTo 64 - 1 := by
  rw [place]
  cases hline : f.line with
  | none => exact .inl ⟨rfl, rfl⟩
  | some n => exact .inr ⟨n, rfl, rfl, h n hline⟩

theorem precedes_of_before {a b : Finding} (ha : a.InRange) (hb : b.InRange)
    (h : before a b = true) : Precedes a b := by
  rw [before_iff, rank_eq_iff] at h
  rcases h with hplace | ⟨hplace, htie⟩
  · left
    rcases place_cases ha with ⟨-, hpa⟩ | ⟨m, hla, hpa, -⟩ <;>
      rcases place_cases hb with ⟨hlb, hpb⟩ | ⟨n, hlb, hpb, hn⟩
    · omega
    · omega
    · rw [hla, hlb]
      trivial
    · rw [hla, hlb]
      show m < n
      omega
  · refine .inr ⟨?_, htie⟩
    rcases place_cases ha with ⟨hla, hpa⟩ | ⟨m, hla, hpa, hm⟩ <;>
      rcases place_cases hb with ⟨hlb, hpb⟩ | ⟨n, hlb, hpb, hn⟩
    · rw [hla, hlb]
    · omega
    · omega
    · have hmn : m = n := by omega
      rw [hla, hlb, hmn]

theorem filter_key_sort (fs : List Finding) (k : Option Nat × Severity × String) :
    (sort fs).filter (·.key = k) = fs.filter (·.key = k) := by
  -- Findings with one key are in order however they stand, so sorting them alone moves none.
  rw [sort, filter_mergeSort before_trans before_total]
  apply List.mergeSort_of_pairwise
  apply List.pairwise_of_forall_mem_list
  intro a ha b hb
  have hkey : a.key = b.key :=
    (of_decide_eq_true (List.mem_filter.mp ha).2).trans
      (of_decide_eq_true (List.mem_filter.mp hb).2).symm
  simp only [key, Prod.mk.injEq] at hkey
  obtain ⟨hline, hseverity, hrule⟩ := hkey
  rw [before_iff, place, place, hline, hseverity, hrule]
  exact .inr ⟨rfl, .inr ⟨rfl, String.le_refl _⟩⟩

/-! ## Counts -/

theorem countSeverity_sort (fs : List Finding) (s : Severity) :
    countSeverity (sort fs) s = countSeverity fs s :=
  (List.mergeSort_perm fs before).countP_eq _

theorem countConcern_sort (fs : List Finding) (c : Concern) :
    countConcern (sort fs) c = countConcern fs c :=
  (List.mergeSort_perm fs before).countP_eq _

theorem countSeverity_cons (f : Finding) (fs : List Finding) (s : Severity) :
    countSeverity (f :: fs) s = countSeverity fs s + if f.severity = s then 1 else 0 := by
  simp only [countSeverity, List.countP_cons, decide_eq_true_eq]

theorem countConcern_cons (f : Finding) (fs : List Finding) (c : Concern) :
    countConcern (f :: fs) c = countConcern fs c + if f.concern = c then 1 else 0 := by
  simp only [countConcern, List.countP_cons, decide_eq_true_eq]

theorem sum_countSeverity (fs : List Finding) :
    countSeverity fs .critical + countSeverity fs .high + countSeverity fs .medium +
      countSeverity fs .low = fs.length := by
  induction fs with
  | nil => rfl
  | cons f rest ih =>
    simp only [countSeverity_cons, List.length_cons, ← ih]
    cases f.severity <;> simp <;> omega

theorem sum_countConcern (fs : List Finding) :
    countConcern fs .syntactic + countConcern fs .performance + countConcern fs .security +
      countConcern fs .semantic = fs.length := by
  induction fs with
  | nil => rfl
  | cons f rest ih =>
    simp only [countConcern_cons, List.length_cons, ← ih]
    cases f.concern <;> simp <;> omega

theorem totalPenalty_eq_sum (fs : List Finding) :
    totalPenalty fs = 25 * countSeverity fs .critical + 15 * countSeverity fs .high +
      8 * countSeverity fs .medium + 3 * countSeverity fs .low := by
  induction fs with
  | nil => rfl
  | cons f rest ih =>
    simp only [countSeverity_cons, totalPenalty, ih]
    cases f.severity <;> simp [Severity.penalty] <;> omega

theorem countSeverity_pos_iff (fs : List Finding) (s : Severity) :
    0 < countSeverity fs s ↔ s ∈ fs.map severity := by
  simp only [countSeverity, List.countP_pos_iff, decide_eq_true_eq, List.mem_map]

end Finding

/-! ## The worst severity -/

namespace Severity

theorem worse_cases (a b : Severity) :
    (worse a b = a ∨ worse a b = b) ∧ a.rank ≤ (worse a b).rank ∧ b.rank ≤ (worse a b).rank := by
  rw [worse]
  split
  · exact ⟨.inr rfl, ‹_›, Nat.le_refl _⟩
  · exact ⟨.inl rfl, Nat.le_refl _, by omega⟩

theorem foldl_worse_cases (l : List Severity) (s : Severity) :
    l.foldl worse s ∈ s :: l ∧ ∀ t ∈ s :: l, t.rank ≤ (l.foldl worse s).rank := by
  induction l generalizing s with
  | nil => simp
  | cons u rest ih =>
    obtain ⟨hpick, hs, hu⟩ := worse_cases s u
    obtain ⟨hmem, hmax⟩ := ih (worse s u)
    have hfirst := hmax _ List.mem_cons_self
    rw [List.foldl_cons]
    constructor
    · rcases List.mem_cons.mp hmem with hmem | hmem
      · rw [hmem]
        rcases hpick with hpick | hpick <;> simp [hpick]
      · exact List.mem_cons_of_mem _ (List.mem_cons_of_mem _ hmem)
    · intro t ht
      rcases List.mem_cons.mp ht with rfl | ht
      · omega
      · rcases List.mem_cons.mp ht with rfl | ht
        · omega
        · exact hmax t (List.mem_cons_of_mem _ ht)

theorem worst?_eq_some_iff (l : List Severity) (s : Severity) :
    worst? l = some s ↔ s ∈ l ∧ ∀ t ∈ l, t.rank ≤ s.rank := by
  cases l with
  | nil => simp [worst?]
  | cons u rest =>
    obtain ⟨hmem, hmax⟩ := foldl_worse_cases rest u
    rw [worst?, Option.some_inj]
    constructor
    · rintro rfl
      exact ⟨hmem, hmax⟩
    · rintro ⟨hs, hsmax⟩
      rw [← Finding.rank_eq_iff]
      exact Nat.le_antisymm (hsmax _ hmem) (hmax s hs)

theorem exists_worst? {l : List Severity} {t : Severity} (ht : t ∈ l) :
    ∃ s, worst? l = some s ∧ t.rank ≤ s.rank := by
  cases hworst : worst? l with
  | none =>
    cases l with
    | nil => cases ht
    | cons u rest => cases hworst
  | some s => exact ⟨s, rfl, ((worst?_eq_some_iff l s).mp hworst).2 t ht⟩

/-- The worst of the worst severities of some lists is the worst of all. -/
theorem worst?_filterMap_worst? (ls : List (List Severity)) :
    worst? (ls.filterMap worst?) = worst? ls.flatten := by
  apply Option.ext
  intro s
  rw [worst?_eq_some_iff, worst?_eq_some_iff]
  constructor
  · rintro ⟨hs, hmax⟩
    obtain ⟨l, hl, hworst⟩ := List.mem_filterMap.mp hs
    refine ⟨List.mem_flatten.mpr ⟨l, hl, ((worst?_eq_some_iff l s).mp hworst).1⟩, ?_⟩
    intro t ht
    obtain ⟨l', hl', htl'⟩ := List.mem_flatten.mp ht
    obtain ⟨w, hw, hle⟩ := exists_worst? htl'
    exact Nat.le_trans hle (hmax w (List.mem_filterMap.mpr ⟨l', hl', hw⟩))
  · rintro ⟨hs, hmax⟩
    obtain ⟨l, hl, hsl⟩ := List.mem_flatten.mp hs
    have hbound : ∀ l' ∈ ls, ∀ t ∈ l', t.rank ≤ s.rank := fun l' hl' t ht =>
      hmax t (List.mem_flatten.mpr ⟨l', hl', ht⟩)
    refine ⟨List.mem_filterMap.mpr ⟨l, hl, (worst?_eq_some_iff l s).mpr ⟨hsl, hbound l hl⟩⟩, ?_⟩
    intro t ht
    obtain ⟨l', hl', hworst⟩ := List.mem_filterMap.mp ht
    exact hbound l' hl' t ((worst?_eq_some_iff l' t).mp hworst).1

end Severity

/-! ## Reports -/

namespace Summary

def ofSeverity (s : Summary) : Severity → Nat
  | .low => s.low
  | .medium => s.medium
  | .high => s.high
  | .critical => s.critical

theorem ofSeverity_ofFindings (fs : List Finding) (s : Severity) :
    (ofFindings fs).ofSeverity s = Finding.countSeverity fs s := by
  cases s <;> rfl

theorem ofConcern_ofFindings (fs : List Finding) (c : Concern) :
    (ofFindings fs).ofConcern c = Finding.countConcern fs c := by
  cases c <;> rfl

end Summary

namespace Report

structure Input where
  registry : Registry
  dialect : Option Dialect
  tables : List Table
  findings : List Finding

def Input.report (input : Input) : Report :=
  ofFindings input.registry input.dialect input.tables input.findings

/-- A report on some findings whose parts agree. -/
structure Coherent (given : List Finding) (r : Report) : Prop where
  perm : r.findings.Perm given
  ordered : r.findings.Pairwise Finding.Precedes
  /-- Findings that differ in nothing the order looks at stand as they were given. -/
  stable : ∀ k, r.findings.filter (·.key = k) = given.filter (·.key = k)
  severities : ∀ s, r.summary.ofSeverity s = Finding.countSeverity given s
  concerns : ∀ c, r.summary.ofConcern c = Finding.countConcern given c
  total : r.summary.total = given.length
  total_severities :
    r.summary.total = r.summary.critical + r.summary.high + r.summary.medium + r.summary.low
  total_concerns : r.summary.total = r.summary.syntactic + r.summary.performance +
    r.summary.security + r.summary.semantic
  score : (r.score : Int) = max 0 (100 - (25 * r.summary.critical + 15 * r.summary.high +
    8 * r.summary.medium + 3 * r.summary.low))
  worst : ∀ s, r.worstSeverity? = some s ↔
    0 < r.summary.ofSeverity s ∧ ∀ t, 0 < r.summary.ofSeverity t → t.rank ≤ s.rank

theorem ofSeverity_report_pos_iff (input : Input) (s : Severity) :
    0 < input.report.summary.ofSeverity s ↔ s ∈ input.report.findings.map Finding.severity := by
  rw [← Finding.countSeverity_pos_iff]
  exact iff_of_eq (congrArg (0 < ·) (Summary.ofSeverity_ofFindings _ s))

theorem coherent_report (input : Input) (h : ∀ f ∈ input.findings, f.InRange) :
    Coherent input.findings input.report where
  perm := List.mergeSort_perm _ _
  ordered := by
    apply (Finding.pairwise_sort input.findings).imp_of_mem
    intro a b ha hb hbefore
    exact Finding.precedes_of_before (h a (List.mem_mergeSort.mp ha))
      (h b (List.mem_mergeSort.mp hb)) hbefore
  stable := Finding.filter_key_sort input.findings
  severities := by
    intro s
    rw [← Finding.countSeverity_sort]
    exact Summary.ofSeverity_ofFindings _ s
  concerns := by
    intro c
    rw [← Finding.countConcern_sort]
    exact Summary.ofConcern_ofFindings _ c
  total := List.length_mergeSort _
  total_severities := (Finding.sum_countSeverity _).symm
  total_concerns := (Finding.sum_countConcern _).symm
  score := by
    have hpenalty := Finding.totalPenalty_eq_sum (Finding.sort input.findings)
    show ((Finding.fullScore - Finding.totalPenalty (Finding.sort input.findings) : Nat) : Int) = _
    rw [hpenalty]
    simp only [Finding.fullScore, Input.report, ofFindings, Summary.ofFindings]
    omega
  worst := by
    intro s
    simp only [worstSeverity?, Severity.worst?_eq_some_iff, ofSeverity_report_pos_iff]

/-! ## Exit status -/

/-- A report has a critical or high finding, or a score below the least one if one is asked for. -/
def Fails (least : Option Nat) (r : Report) : Prop :=
  0 < r.summary.critical + r.summary.high ∨ ∃ n ∈ least, r.score < n

instance (least : Option Nat) (r : Report) : Decidable (r.Fails least) :=
  inferInstanceAs (Decidable (_ ∨ _))

theorem statusOf_worst? (l : List Severity) :
    statusOf (Severity.worst? l) =
      if .critical ∈ l ∨ .high ∈ l then 2 else if .medium ∈ l then 1 else 0 := by
  cases hworst : Severity.worst? l with
  | none =>
    have hempty : ∀ s, s ∉ l := by
      intro s hs
      obtain ⟨t, ht, -⟩ := Severity.exists_worst? hs
      rw [hworst] at ht
      cases ht
    simp [hempty, statusOf]
  | some s =>
    obtain ⟨hs, hmax⟩ := (Severity.worst?_eq_some_iff l s).mp hworst
    have habove : ∀ t, s.rank < t.rank → t ∉ l := fun t hlt ht => by
      have := hmax t ht
      omega
    cases s with
    | critical => simp [hs, statusOf]
    | high => simp [hs, statusOf]
    | medium =>
      have hcritical := habove .critical (by decide)
      have hhigh := habove .high (by decide)
      simp [hs, hcritical, hhigh, statusOf]
    | low =>
      have hcritical := habove .critical (by decide)
      have hhigh := habove .high (by decide)
      have hmedium := habove .medium (by decide)
      simp [hcritical, hhigh, hmedium, statusOf]

def severities (reports : List Report) : List Severity :=
  (reports.map fun r => r.findings.map Finding.severity).flatten

theorem mem_severities_iff (inputs : List Input) (s : Severity) :
    s ∈ severities (inputs.map Input.report) ↔
      ∃ r ∈ inputs.map Input.report, 0 < r.summary.ofSeverity s := by
  simp only [severities, List.map_map, List.mem_flatten, List.mem_map, Function.comp_apply,
    exists_exists_and_eq_and, ofSeverity_report_pos_iff]

theorem worst?_filterMap_worstSeverity? (reports : List Report) :
    Severity.worst? (reports.filterMap worstSeverity?) = Severity.worst? (severities reports) := by
  rw [severities, ← Severity.worst?_filterMap_worst?, List.filterMap_map]
  rfl

theorem exitStatusAll_eq (inputs : List Input) (least : Option Nat) :
    exitStatusAll (least.getD 0) (inputs.map Input.report) =
      if ∃ r ∈ inputs.map Input.report, r.Fails least then 2
      else if ∃ r ∈ inputs.map Input.report, 0 < r.summary.medium then 1
      else 0 := by
  have hserious : (.critical ∈ severities (inputs.map Input.report) ∨
      .high ∈ severities (inputs.map Input.report)) ↔
        ∃ r ∈ inputs.map Input.report, 0 < r.summary.critical + r.summary.high := by
    rw [mem_severities_iff, mem_severities_iff]
    constructor
    · rintro (⟨r, hr, hpos⟩ | ⟨r, hr, hpos⟩)
      · exact ⟨r, hr, Nat.add_pos_left hpos _⟩
      · exact ⟨r, hr, Nat.add_pos_right _ hpos⟩
    · rintro ⟨r, hr, hpos⟩
      rcases Nat.add_pos_iff_pos_or_pos.mp hpos with hpos | hpos
      · exact .inl ⟨r, hr, hpos⟩
      · exact .inr ⟨r, hr, hpos⟩
  have hbelow : (inputs.map Input.report).any (·.score < least.getD 0) = true ↔
      ∃ r ∈ inputs.map Input.report, ∃ n ∈ least, r.score < n := by
    cases least <;> simp
  have hfails : (∃ r ∈ inputs.map Input.report, r.Fails least) ↔
      (∃ r ∈ inputs.map Input.report, ∃ n ∈ least, r.score < n) ∨
        (.critical ∈ severities (inputs.map Input.report) ∨
          .high ∈ severities (inputs.map Input.report)) := by
    rw [hserious, ← exists_or]
    exact exists_congr fun r => by rw [Fails, and_or_left, or_comm]
  -- Both sides now ask which severities occur at all, so the nested maximum is gone.
  rw [exitStatusAll, worst?_filterMap_worstSeverity?, statusOf_worst?]
  simp only [hbelow, hfails, mem_severities_iff inputs .medium, Summary.ofSeverity]
  by_cases hscore : ∃ r ∈ inputs.map Input.report, ∃ n ∈ least, r.score < n
  · rw [if_pos hscore, if_pos (.inl hscore)]
  · simp only [hscore, if_false, false_or]

/-! ## All together -/

/-- The parts of a report tell the same story.  Its findings are the given ones, in order; its counts,
its score and its worst severity follow from the number of findings of each severity, and so does
the exit status of several reports.  The report on a document keeps the findings of the analysis and
the score that they leave. -/
theorem reports_coherent (inputs : List Input)
    (hlines : ∀ input ∈ inputs, ∀ f ∈ input.findings, f.InRange) (least : Option Nat)
    (a : Analyzer) (source : Text) :
    (∀ input ∈ inputs, Coherent input.findings input.report) ∧
      exitStatusAll (least.getD 0) (inputs.map Input.report) =
        (if ∃ r ∈ inputs.map Input.report, r.Fails least then 2
        else if ∃ r ∈ inputs.map Input.report, 0 < r.summary.medium then 1
        else 0) ∧
      (a.review source).findings = a.analyzeWithSchema source (Extraction.ofText source) ∧
      (a.review source).score =
        Finding.score (a.analyzeWithSchema source (Extraction.ofText source)) :=
  ⟨fun input hinput => coherent_report input (hlines input hinput),
    exitStatusAll_eq inputs least, Finding.sort_sort _, Finding.score_sort _⟩

/-- A finding without a line, and one on the third line. -/
def sampleInput : Input where
  registry := {}
  dialect := none
  tables := []
  findings :=
    [{ rule := "SEM001", concern := .semantic, severity := .medium, line := none, message := "" },
     { rule := "PERF001", concern := .performance, severity := .low, line := some 3, message := "" }]

theorem reports_coherent_sampleInput :
    (∀ f ∈ sampleInput.findings, f.InRange) ∧
      Coherent sampleInput.findings sampleInput.report ∧
      exitStatusAll 90 [sampleInput.report] = 2 ∧ exitStatusAll 0 [sampleInput.report] = 1 := by
  have hlines : ∀ f ∈ sampleInput.findings, f.InRange := by
    intro f hf
    simp only [sampleInput, List.mem_cons, List.not_mem_nil, or_false] at hf
    rcases hf with rfl | rfl
    · simp [Finding.InRange]
    · intro n hn
      rw [← Option.some.inj hn]
      decide
  have hall : ∀ input ∈ [sampleInput], ∀ f ∈ input.findings, f.InRange := by simpa using hlines
  obtain ⟨hcoherent, hbelow, -⟩ :=
    reports_coherent [sampleInput] hall (some 90) { registry := {} } []
  obtain ⟨-, hfree, -⟩ := reports_coherent [sampleInput] hall none { registry := {} } []
  have hsample := hcoherent sampleInput (List.mem_singleton_self _)
  have hcritical : sampleInput.report.summary.critical = 0 := hsample.severities .critical
  have hhigh : sampleInput.report.summary.high = 0 := hsample.severities .high
  have hmedium : sampleInput.report.summary.medium = 1 := hsample.severities .medium
  have hlow : sampleInput.report.summary.low = 1 := hsample.severities .low
  have hscore : sampleInput.report.score = 89 := by
    have h := hsample.score
    rw [hcritical, hhigh, hmedium, hlow] at h
    omega
  refine ⟨hlines, hsample, hbelow.trans (if_pos ?_), hfree.trans ?_⟩
  · exact ⟨_, List.mem_singleton_self _, .inr ⟨90, rfl, by omega⟩⟩
  · simp [Fails, hcritical, hhigh, hmedium]

end Report
end SqlAudit
