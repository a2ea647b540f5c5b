import SqlAudit.Review.Finding

/-!
Stable sorting.  A sorted list is determined by the elements that tie with each one, in their order,
and a stable sort leaves those as they were.  So the sort of a list is known as soon as some sorted
list with the same ties is.
-/

namespace SqlAudit

section

variable {α : Type} (le : α → α → Bool)

/-- Two elements tie when each may stand before the other. -/
def ties (a b : α) : Bool := le a b && le b a

variable {le}

theorem eq_of_sorted_of_ties (refl : ∀ a, le a a = true) {l₁ l₂ : List α}
    (h₁ : l₁.Pairwise (le · ·)) (h₂ : l₂.Pairwise (le · ·))
    (h : ∀ a, l₁.filter (ties le a) = l₂.filter (ties le a)) : l₁ = l₂ := by
  have hmem : ∀ {l l' : List α} {a : α}, l.filter (ties le a) = l'.filter (ties le a) →
      a ∈ l → a ∈ l' := by
    intro l l' a hties ha
    have hself : a ∈ l.filter (ties le a) := by simp [ha, ties, refl]
    rw [hties] at hself
    exact (List.mem_filter.mp hself).1
  induction l₁ generalizing l₂ with
  | nil =>
    cases l₂ with
    | nil => rfl
    | cons b rest => exact absurd (hmem (h b).symm List.mem_cons_self) (by simp)
  | cons a rest ih =>
    cases l₂ with
    | nil => exact absurd (hmem (h a) List.mem_cons_self) (by simp)
    | cons b others =>
      obtain ⟨hfirst, hrest⟩ := List.pairwise_cons.mp h₁
      obtain ⟨hfirst', hothers⟩ := List.pairwise_cons.mp h₂
      -- Each head occurs in the other list, so neither can stand strictly before the other.
      have hab : le a b = true := by
        rcases List.mem_cons.mp (hmem (h b).symm List.mem_cons_self) with rfl | hb
        · exact refl _
        · exact hfirst b hb
      have hba : le b a = true := by
        rcases List.mem_cons.mp (hmem (h a) List.mem_cons_self) with rfl | ha
        · exact refl _
        · exact hfirst' a ha
      have heads := h a
      rw [List.filter_cons_of_pos (by simp [ties, refl]),
        List.filter_cons_of_pos (by simp [ties, hab, hba])] at heads
      obtain ⟨rfl, -⟩ := List.cons.inj heads
      rw [ih hrest hothers]
      intro x
      have hx := h x
      by_cases hax : ties le x a = true
      · rw [List.filter_cons_of_pos hax, List.filter_cons_of_pos hax] at hx
        exact (List.cons.inj hx).2
      · rwa [List.filter_cons_of_neg hax, List.filter_cons_of_neg hax] at hx

variable (trans : ∀ a b c, le a b → le b c → le a c) (total : ∀ a b, le a b || le b a)

include trans total

/-- Sorting leaves the elements that tie with one in their order. -/
theorem filter_ties_mergeSort (l : List α) (a : α) :
    (l.mergeSort le).filter (ties le a) = l.filter (ties le a) := by
  have hsorted : (l.filter (ties le a)).Pairwise (le · ·) := by
    apply List.pairwise_of_forall_mem_list
    intro x hx y hy
    have hxa := (List.mem_filter.mp hx).2
    have hay := (List.mem_filter.mp hy).2
    rw [ties, Bool.and_eq_true] at hxa hay
    exact trans x a y hxa.2 hay.1
  have hsub : (l.filter (ties le a)).Sublist ((l.mergeSort le).filter (ties le a)) := by
    have h := (List.sublist_mergeSort trans total hsorted List.filter_sublist).filter (ties le a)
    rwa [List.filter_eq_self.mpr (fun x hx => (List.mem_filter.mp hx).2)] at h
  have hlength := ((List.mergeSort_perm l le).filter (ties le a)).length_eq
  exact (hsub.eq_of_length hlength.symm).symm

/-- Lists with the same ties have one sort. -/
theorem mergeSort_eq_iff_ties {l₁ l₂ : List α} :
    l₁.mergeSort le = l₂.mergeSort le ↔
      ∀ a, l₁.filter (ties le a) = l₂.filter (ties le a) := by
  constructor
  · intro h a
    rw [← filter_ties_mergeSort trans total l₁, h, filter_ties_mergeSort trans total]
  · intro h
    apply eq_of_sorted_of_ties (fun a => by simpa using total a a)
      (List.pairwise_mergeSort trans total l₁) (List.pairwise_mergeSort trans total l₂)
    intro a
    rw [filter_ties_mergeSort trans total, filter_ties_mergeSort trans total, h a]

/-- Choosing elements and sorting may be done in either order. -/
theorem filter_mergeSort (p : α → Bool) (l : List α) :
    (l.mergeSort le).filter p = (l.filter p).mergeSort le := by
  apply eq_of_sorted_of_ties (fun a => by simpa using total a a)
    ((List.pairwise_mergeSort trans total l).filter p)
    (List.pairwise_mergeSort trans total (l.filter p))
  intro a
  have hswap : ∀ l : List α, (l.filter p).filter (ties le a) = (l.filter (ties le a)).filter p := by
    intro l
    rw [List.filter_filter, List.filter_filter]
    exact List.filter_congr (fun x _ => Bool.and_comm _ _)
  rw [filter_ties_mergeSort trans total, hswap, hswap, filter_ties_mergeSort trans total]

/-- If what satisfies a test stands before all that does not, the sort of a list is the sort of the
one part followed by that of the other. -/
theorem mergeSort_eq_append_of_initial {p : α → Bool} {l : List α}
    (hp : ∀ a ∈ l, ∀ b ∈ l, le a b = true → p b = true → p a = true) :
    l.mergeSort le = (l.filter p).mergeSort le ++ (l.filter (!p ·)).mergeSort le := by
  have hcut : ∀ l : List α, l.Pairwise (le · ·) →
      (∀ a ∈ l, ∀ b ∈ l, le a b = true → p b = true → p a = true) →
      l = l.filter p ++ l.filter (!p ·) := by
    intro l hl hp
    induction l with
    | nil => rfl
    | cons a rest ih =>
      obtain ⟨hfirst, hrest⟩ := List.pairwise_cons.mp hl
      have htail := ih hrest fun x hx y hy => hp x (List.mem_cons_of_mem _ hx) y
        (List.mem_cons_of_mem _ hy)
      by_cases ha : p a = true
      · rw [List.filter_cons_of_pos ha, List.filter_cons_of_neg (by simp [ha]), List.cons_append,
          ← htail]
      · have hnone : rest.filter p = [] := by
          rw [List.filter_eq_nil_iff]
          intro b hb hpb
          exact ha (hp a List.mem_cons_self b (List.mem_cons_of_mem _ hb) (hfirst b hb) hpb)
        rw [hnone, List.nil_append] at htail
        rw [List.filter_cons_of_neg ha, hnone, List.filter_cons_of_pos (by simp [ha]),
          List.nil_append, ← htail]
  have hsorted := hcut (l.mergeSort le) (List.pairwise_mergeSort trans total l)
    (fun a ha b hb => hp a (List.mem_mergeSort.mp ha) b (List.mem_mergeSort.mp hb))
  rw [filter_mergeSort trans total, filter_mergeSort trans total] at hsorted
  exact hsorted

/-- The sort of two lists, each of which has an initial part and a rest. -/
theorem mergeSort_mixed {p : α → Bool} {first second first' second' : List α}
    (hp : ∀ a b, le a b = true → p b = true → p a = true)
    (hfirst : ∀ a ∈ first ++ first', p a = true) (hsecond : ∀ a ∈ second ++ second', p a = false) :
    (first ++ second ++ (first' ++ second')).mergeSort le =
      (first ++ first').mergeSort le ++ (second ++ second').mergeSort le := by
  have hkept : (first ++ second ++ (first' ++ second')).filter p = first ++ first' := by
    have hself := List.filter_eq_self.mpr hfirst
    have hnone : (second ++ second').filter p = [] := by
      rw [List.filter_eq_nil_iff]
      intro a ha
      simp [hsecond a ha]
    rw [List.filter_append, List.append_eq_nil_iff] at hnone
    rw [List.filter_append] at hself
    simp only [List.filter_append, hnone, List.append_nil, hself]
  have hleft : (first ++ second ++ (first' ++ second')).filter (!p ·) = second ++ second' := by
    have hself : (second ++ second').filter (!p ·) = second ++ second' := by
      rw [List.filter_eq_self]
      intro a ha
      simp [hsecond a ha]
    have hnone : (first ++ first').filter (!p ·) = [] := by
      rw [List.filter_eq_nil_iff]
      intro a ha
      simp [hfirst a ha]
    rw [List.filter_append, List.append_eq_nil_iff] at hnone
    rw [List.filter_append] at hself
    simp only [List.filter_append, hnone, List.nil_append, hself]
  rw [mergeSort_eq_append_of_initial trans total (fun a _ b _ => hp a b), hkept, hleft]

end

namespace Finding

/-! ## The order of findings -/

theorem rank_eq_iff (a b : Severity) : a.rank = b.rank ↔ a = b := by
  cases a <;> cases b <;> simp [Severity.rank]

theorem before_iff (a b : Finding) :
    before a b = true ↔ a.place < b.place ∨ a.place = b.place ∧
      (b.severity.rank < a.severity.rank ∨
        a.severity.rank = b.severity.rank ∧ a.rule ≤ b.rule) := by
  have hrule : (!decide (b.rule < a.rule)) = true ↔ a.rule ≤ b.rule := by
    rw [Bool.not_eq_true', decide_eq_false_iff_not, String.not_lt]
  rw [before]
  by_cases hplace : a.place = b.place
  · by_cases hseverity : a.severity = b.severity
    · rw [if_neg (by simpa using hplace), if_neg (by simpa using hseverity), hrule]
      simp only [hplace, hseverity, Nat.lt_irrefl, false_or, true_and]
    · have hrank : a.severity.rank ≠ b.severity.rank := fun h => hseverity ((rank_eq_iff _ _).mp h)
      simp [hplace, hseverity, hrank]
  · simp [hplace]

theorem before_trans (a b c : Finding) (hab : before a b = true) (hbc : before b c = true) :
    before a c = true := by
  rw [before_iff] at *
  rcases hab with hab | ⟨hab, hsab⟩
  · left
    omega
  rcases hbc with hbc | ⟨hbc, hsbc⟩
  · left
    omega
  refine .inr ⟨hab.trans hbc, ?_⟩
  rcases hsab with hsab | ⟨hsab, hrab⟩
  · left
    omega
  rcases hsbc with hsbc | ⟨hsbc, hrbc⟩
  · left
    omega
  exact .inr ⟨hsab.trans hsbc, String.le_trans hrab hrbc⟩

theorem before_total (a b : Finding) : (before a b || before b a) = true := by
  rw [Bool.or_eq_true, before_iff, before_iff]
  have hrule := String.le_total a.rule b.rule
  by_cases hplace : a.place = b.place
  · by_cases hrank : a.severity.rank = b.severity.rank
    · simpa [hplace, hrank] using hrule
    · simp only [hplace, hrank, Nat.lt_irrefl, false_or, true_and, false_and, or_false]
      omega
  · simp only [hplace, false_and, or_false]
    omega

theorem pairwise_sort (fs : List Finding) : (sort fs).Pairwise (before · ·) :=
  List.pairwise_mergeSort before_trans before_total fs

theorem sort_sort (fs : List Finding) : sort (sort fs) = sort fs :=
  List.mergeSort_of_pairwise (pairwise_sort fs)

end Finding
end SqlAudit
