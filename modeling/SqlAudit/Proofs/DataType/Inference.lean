import SqlAudit.DataType.Registry
import SqlAudit.Proofs.Decimal.SinglePrecision
import SqlAudit.Proofs.Sorting

/-!
Types inferred from samples.  A suggestion rests on how many samples its type accepts, so the order
of the samples does not matter.  Suggestions are sorted by their confidence, and as it is positive,
sorting by its bits does this; a stable sort leaves the types that fit equally well in their order.
-/

namespace SqlAudit
namespace Registry

def offered (r : Registry) : Option String → List Descriptor
  | none => r.descriptors
  | some name => r.inDialect name

def fitsBetter (a b : TypeSuggestion) : Bool := b.confidence.toBits ≤ a.confidence.toBits

def suggestions (r : Registry) (samples : List Text) (dialect : Option String) :
    List TypeSuggestion :=
  (r.offered dialect).filterMap (suggestion? samples)

variable {r : Registry} {dialect : Option String} {values : List String} {s : TypeSuggestion}

/-! ## One type -/

theorem suggestion?_perm {samples others : List Text} (h : samples.Perm others) :
    suggestion? samples = suggestion? others := by
  funext d
  have hcount : ∀ format : SampleFormat,
      samples.countP format.accepts = others.countP format.accepts := fun format => h.countP_eq _
  simp only [suggestion?, h.length_eq, hcount]

/-- A type that is suggested accepts a sample, as the share of none is not positive. -/
theorem suggestion?_spec {samples : List Text} {d : Descriptor}
    (h : suggestion? samples d = some s) :
    s.descriptor = d ∧ 0 < s.confidence ∧
      ∃ format, d.format = some format ∧ ∃ t ∈ samples, format.accepts t = true := by
  obtain ⟨format, hformat, hs⟩ := Option.bind_eq_some_iff.mp h
  dsimp only at hs
  split at hs
  · rename_i hpos
    rw [← Option.some.inj hs]
    refine ⟨rfl, hpos, format, hformat, ?_⟩
    by_contra hnone
    have hcount : samples.countP format.accepts = 0 := by
      rw [List.countP_eq_zero]
      exact fun t ht haccepts => hnone ⟨t, ht, haccepts⟩
    rw [hcount] at hpos
    exact ((SinglePrecision.isNull_ofNat_zero.div _).mul _).not_pos hpos
  · cases hs

/-! ## The types that are tried -/

theorem offered_sublist (r : Registry) (dialect : Option String) :
    (r.offered dialect).Sublist r.descriptors := by
  cases dialect with
  | none => exact List.Sublist.refl _
  | some name =>
    rw [offered, inDialect]
    split
    · exact List.nil_sublist _
    · exact List.filter_sublist

theorem supports_of_mem_offered {name : String} {d : Descriptor}
    (h : d ∈ r.offered (some name)) : d.supports name = true := by
  rw [offered, inDialect] at h
  split at h
  · cases h
  · rename_i known hknown
    rw [Descriptor.supports, hknown, Option.any_some]
    exact (List.mem_filter.mp h).2

theorem spec_of_mem_suggestions {samples : List Text} (h : s ∈ r.suggestions samples dialect) :
    s.descriptor ∈ r.offered dialect ∧ 0 < s.confidence ∧
      ∃ format, s.descriptor.format = some format ∧
        ∃ t ∈ samples, format.accepts t = true := by
  obtain ⟨d, hd, hs⟩ := List.mem_filterMap.mp h
  obtain ⟨hdescriptor, hpos, haccepts⟩ := suggestion?_spec hs
  rw [hdescriptor]
  exact ⟨hd, hpos, haccepts⟩

/-- Elements that are recovered from what they are turned into are in their order. -/
theorem map_filterMap_sublist {α β : Type} {f : α → Option β} {g : β → α} {l : List α}
    (h : ∀ a b, f a = some b → g b = a) : ((l.filterMap f).map g).Sublist l := by
  induction l with
  | nil => exact List.Sublist.refl _
  | cons a rest ih =>
    cases hf : f a with
    | none =>
      rw [List.filterMap_cons_none hf]
      exact ih.cons a
    | some b =>
      rw [List.filterMap_cons_some hf, List.map_cons, h a b hf]
      exact ih.cons_cons a

/-! ## The ranking -/

theorem fitsBetter_trans (a b c : TypeSuggestion) (hab : fitsBetter a b = true)
    (hbc : fitsBetter b c = true) : fitsBetter a c = true := by
  rw [fitsBetter, decide_eq_true_iff] at hab hbc ⊢
  exact UInt32.le_trans hbc hab

theorem fitsBetter_total (a b : TypeSuggestion) : (fitsBetter a b || fitsBetter b a) = true := by
  rw [fitsBetter, fitsBetter, Bool.or_eq_true, decide_eq_true_iff, decide_eq_true_iff]
  exact UInt32.le_total _ _

/-- Without samples no type accepts one, so that nothing is suggested in this case either. -/
theorem suggest_eq (r : Registry) (values : List String) (dialect : Option String) :
    r.suggest values dialect =
      ((r.suggestions (realSamples values) dialect).mergeSort fitsBetter).take mostSuggestions := by
  have hsuggest : r.suggest values dialect =
      if (realSamples values).isEmpty then []
      else ((r.suggestions (realSamples values) dialect).mergeSort fitsBetter).take
        mostSuggestions := by
    cases dialect with
    | none => rfl
    | some name => rfl
  rw [hsuggest]
  split
  · rename_i hempty
    have hnone : r.suggestions (realSamples values) dialect = [] := by
      rw [List.eq_nil_iff_forall_not_mem, List.isEmpty_iff.mp hempty]
      intro s hs
      obtain ⟨-, -, -, -, t, ht, -⟩ := spec_of_mem_suggestions hs
      cases ht
    rw [hnone, List.mergeSort_nil, List.take_nil]
  · rfl

theorem mem_suggestions_of_mem_suggest (h : s ∈ r.suggest values dialect) :
    s ∈ r.suggestions (realSamples values) dialect := by
  rw [suggest_eq] at h
  exact List.mem_mergeSort.mp (List.mem_of_mem_take h)

/-- Suggestions have positive confidences, so that the order by bits is that of the numbers. -/
theorem confidence_le_of_fitsBetter {samples : List Text} {a b : TypeSuggestion}
    (ha : a ∈ r.suggestions samples dialect) (hb : b ∈ r.suggestions samples dialect)
    (h : fitsBetter a b = true) : b.confidence ≤ a.confidence := by
  rw [SinglePrecision.le_iff_toBits_le (spec_of_mem_suggestions hb).2.1
    (spec_of_mem_suggestions ha).2.1]
  exact of_decide_eq_true h

theorem suggest_perm {others : List String} (h : (realSamples values).Perm (realSamples others)) :
    r.suggest values dialect = r.suggest others dialect := by
  rw [suggest_eq, suggest_eq, suggestions, suggestions, suggestion?_perm h]

theorem pairwise_suggest (r : Registry) (values : List String) (dialect : Option String) :
    (r.suggest values dialect).Pairwise fun a b => b.confidence ≤ a.confidence := by
  have hsorted : (r.suggest values dialect).Pairwise (fitsBetter · ·) := by
    rw [suggest_eq]
    exact (List.pairwise_mergeSort fitsBetter_trans fitsBetter_total _).sublist
      (List.take_sublist _ _)
  apply hsorted.imp_of_mem
  intro a b ha hb hab
  exact confidence_le_of_fitsBetter (mem_suggestions_of_mem_suggest ha)
    (mem_suggestions_of_mem_suggest hb) hab

/-- Types that fit equally well stand in the order of registration. -/
theorem filter_confidence_sublist (r : Registry) (values : List String) (dialect : Option String)
    (c : Float32) :
    (((r.suggest values dialect).filter (·.confidence = c)).map (·.descriptor)).Sublist
      r.descriptors := by
  have hties : ((r.suggestions (realSamples values) dialect).filter (·.confidence = c)).Pairwise
      (fitsBetter · ·) := by
    apply List.pairwise_of_forall_mem_list
    intro a ha b hb
    have hca := of_decide_eq_true (List.mem_filter.mp ha).2
    have hcb := of_decide_eq_true (List.mem_filter.mp hb).2
    rw [fitsBetter, hca, hcb, decide_eq_true_iff]
    exact UInt32.le_refl _
  rw [suggest_eq]
  refine (((List.take_sublist _ _).filter _).map _).trans ?_
  rw [filter_mergeSort fitsBetter_trans fitsBetter_total, List.mergeSort_of_pairwise hties]
  refine (List.filter_sublist.map _).trans ?_
  exact (map_filterMap_sublist fun d s hs => (suggestion?_spec hs).1).trans
    (offered_sublist r dialect)

/-- What is left out is no better than what is given, and then as much as possible is given. -/
theorem mem_suggest_or_le (h : s ∈ r.suggestions (realSamples values) dialect) :
    s ∈ r.suggest values dialect ∨ (r.suggest values dialect).length = mostSuggestions ∧
      ∀ given ∈ r.suggest values dialect, s.confidence ≤ given.confidence := by
  have hsorted := List.pairwise_mergeSort fitsBetter_trans fitsBetter_total
    (r.suggestions (realSamples values) dialect)
  have hmem : s ∈ (r.suggestions (realSamples values) dialect).mergeSort fitsBetter :=
    List.mem_mergeSort.mpr h
  rw [← List.take_append_drop mostSuggestions (List.mergeSort _ _)] at hsorted hmem
  rcases List.mem_append.mp hmem with htake | hdrop
  · left
    rwa [suggest_eq]
  · right
    constructor
    · have hlength := List.length_pos_of_mem hdrop
      rw [List.length_drop] at hlength
      rw [suggest_eq, List.length_take]
      omega
    · intro given hgiven
      apply confidence_le_of_fitsBetter (mem_suggestions_of_mem_suggest hgiven) h
      rw [suggest_eq] at hgiven
      exact (List.pairwise_append.mp hsorted).2.2 given hgiven s hdrop

/-- The suggestions depend on the samples that count and not on their order.  They are ranked, types
that fit equally well in the order of registration; and each one is a type of the dialect that
accepts a sample. -/
theorem suggest_ranks_samples (r : Registry) (dialect : Option String) :
    (∀ values others, (realSamples values).Perm (realSamples others) →
      r.suggest values dialect = r.suggest others dialect) ∧
    ∀ values,
      (r.suggest values dialect).length ≤ mostSuggestions ∧
      (r.suggest values dialect).Pairwise (fun a b => b.confidence ≤ a.confidence) ∧
      (∀ c, (((r.suggest values dialect).filter (·.confidence = c)).map (·.descriptor)).Sublist
        r.descriptors) ∧
      ∀ s ∈ r.suggest values dialect, s.descriptor ∈ r.descriptors ∧
        (∀ name, dialect = some name → s.descriptor.supports name = true) ∧
        ∃ format, s.descriptor.format = some format ∧
          ∃ t ∈ realSamples values, format.accepts t = true := by
  refine ⟨fun values others h => suggest_perm h, fun values => ⟨?_,
    pairwise_suggest r values dialect, filter_confidence_sublist r values dialect,
    fun s hs => ?_⟩⟩
  · rw [suggest_eq]
    exact List.length_take_le _ _
  · obtain ⟨hoffered, -, haccepts⟩ := spec_of_mem_suggestions (mem_suggestions_of_mem_suggest hs)
    refine ⟨(offered_sublist r dialect).subset hoffered, fun name hname => ?_, haccepts⟩
    rw [hname] at hoffered
    exact supports_of_mem_offered hoffered

def textType : Descriptor :=
  { name := "TEXT", category := .string, dialects := ["postgresql"], format := some (.text none),
    specificity := hundredths 40 }

def digitType (name dialect : String) : Descriptor :=
  { name, category := .numeric, dialects := [dialect], format := some (.integer 0 99),
    specificity := hundredths 75 }

def sampleTypes : Registry :=
  ofDescriptors [textType, digitType "INTEGER" "postgresql", digitType "TINYINT" "mysql",
    digitType "SMALLINT" "postgresql"]

/-- Blanks, blank samples and nulls make no difference. -/
theorem suggest_ranks_samples_mixed :
    sampleTypes.suggest ["42", "Null", "", " x ", "7"] (some "postgres") =
      sampleTypes.suggest ["x", "7 ", "42"] (some "postgres") ∧
    (sampleTypes.suggest ["x", "7 ", "42"] (some "postgres")).length = 3 ∧
    ∀ s ∈ sampleTypes.suggest ["x", "7 ", "42"] (some "postgres"),
      s.descriptor.supports "postgres" = true := by
  have hranks := suggest_ranks_samples sampleTypes (some "postgres")
  refine ⟨hranks.1 _ _ (by decide +kernel), ?_, fun s hs => ?_⟩
  · rw [suggest_eq, List.length_take, List.length_mergeSort]
    decide +kernel
  · obtain ⟨-, hsupports, -⟩ := (hranks.2 ["x", "7 ", "42"]).2.2.2 s hs
    exact hsupports "postgres" rfl

end Registry
end SqlAudit
