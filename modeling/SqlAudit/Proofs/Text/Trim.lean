import SqlAudit.Proofs.Text.Lines

/-!
Trimming blanks from the ends of a text.
-/

namespace SqlAudit
namespace Text

@[simp] theorem trimStart_nil : trimStart [] = [] := rfl

@[simp] theorem trimEnd_nil : trimEnd [] = [] := rfl

theorem trimStart_cons (c : Char) (t : Text) :
    trimStart (c :: t) = if isBlank c then trimStart t else c :: t := by
  rw [trimStart, List.dropWhile_cons]
  rfl

/-- Trimming the end follows the text: a blank goes only if nothing is left after it. -/
theorem trimEnd_cons (c : Char) (t : Text) :
    trimEnd (c :: t) = if trimEnd t = [] ∧ isBlank c then [] else c :: trimEnd t := by
  simp only [trimEnd, List.reverse_cons, List.dropWhile_append]
  by_cases ht : t.reverse.dropWhile isBlank = []
  · by_cases hc : isBlank c = true <;> simp [ht, hc]
  · simp [ht]

theorem trimStart_eq_nil_or (t : Text) :
    trimStart t = [] ∨ ∃ c rest, trimStart t = c :: rest ∧ isBlank c = false := by
  induction t with
  | nil => exact .inl rfl
  | cons c rest ih =>
    rw [trimStart_cons]
    by_cases hc : isBlank c = true
    · simpa [hc] using ih
    · exact .inr ⟨c, rest, by simp [hc], by simpa using hc⟩

theorem trimStart_eq_nil_iff (t : Text) : trimStart t = [] ↔ ∀ c ∈ t, isBlank c = true := by
  induction t with
  | nil => simp
  | cons c rest ih =>
    rw [trimStart_cons]
    by_cases hc : isBlank c = true
    · simp [hc, ih]
    · simp [hc]

theorem trim_eq_nil_iff (t : Text) : trim t = [] ↔ ∀ c ∈ t, isBlank c = true := by
  rw [trim]
  rcases trimStart_eq_nil_or t with hnil | ⟨c, rest, hcons, hc⟩
  · rw [hnil]
    exact ⟨fun _ => (trimStart_eq_nil_iff t).mp hnil, fun _ => rfl⟩
  · have hmem : c ∈ t := by
      apply (List.dropWhile_sublist isBlank).subset
      rw [← trimStart, hcons]
      exact List.mem_cons_self
    rw [hcons, trimEnd_cons, if_neg (by simp [hc])]
    constructor
    · intro h
      cases h
    · intro h
      rw [h c hmem] at hc
      cases hc

theorem trimStart_eq_self {c : Char} {t : Text} (hc : isBlank c = false) :
    trimStart (c :: t) = c :: t := by
  simp [trimStart_cons, hc]

@[simp] theorem trimEnd_trimEnd (t : Text) : trimEnd (trimEnd t) = trimEnd t := by
  induction t with
  | nil => rfl
  | cons c rest ih =>
    rw [trimEnd_cons]
    by_cases h : trimEnd rest = [] ∧ isBlank c
    · simp [h]
    · rw [if_neg h, trimEnd_cons, ih, if_neg h]

/-- Trimming the end does not bring a blank to the start. -/
theorem trimStart_trimEnd_of_trimmed {t : Text} (h : trimStart t = t) :
    trimStart (trimEnd t) = trimEnd t := by
  cases t with
  | nil => rfl
  | cons c rest =>
    have hc : isBlank c = false := by
      rcases trimStart_eq_nil_or (c :: rest) with hnil | ⟨d, others, hd, hblank⟩
      · rw [h] at hnil
        exact absurd hnil (by simp)
      · rw [h] at hd
        rw [(List.cons.inj hd).1]
        exact hblank
    rw [trimEnd_cons, if_neg (by simp [hc]), trimStart_eq_self hc]

@[simp] theorem trimStart_trimStart (t : Text) : trimStart (trimStart t) = trimStart t := by
  rcases trimStart_eq_nil_or t with h | ⟨c, rest, h, hc⟩
  · rw [h, trimStart_nil]
  · rw [h, trimStart_eq_self hc]

@[simp] theorem trim_trim (t : Text) : trim (trim t) = trim t := by
  rw [trim, trim, trimStart_trimEnd_of_trimmed (trimStart_trimStart t), trimEnd_trimEnd]

theorem isBlank_eq_false_of_trim_eq_cons {t : Text} {c : Char} {rest : Text}
    (h : trim t = c :: rest) : isBlank c = false := by
  have hstart : trimStart (c :: rest) = c :: rest := by
    rw [← h]
    exact trimStart_trimEnd_of_trimmed (trimStart_trimStart t)
  rcases trimStart_eq_nil_or (c :: rest) with hnil | ⟨d, others, hd, hblank⟩
  · rw [hstart] at hnil
    cases hnil
  · rw [hstart] at hd
    rw [(List.cons.inj hd).1]
    exact hblank

/-- What is trimmed off the start precedes the rest. -/
theorem exists_append_trimStart (t : Text) :
    ∃ front, t = front ++ trimStart t ∧ ∀ c ∈ front, isBlank c = true := by
  refine ⟨t.takeWhile isBlank, List.takeWhile_append_dropWhile.symm, ?_⟩
  intro c hc
  exact List.all_eq_true.mp List.all_takeWhile c hc

/-- What is trimmed off the end follows the rest. -/
theorem exists_trimEnd_append (t : Text) :
    ∃ back, t = trimEnd t ++ back ∧ ∀ c ∈ back, isBlank c = true := by
  refine ⟨(t.reverse.takeWhile isBlank).reverse, ?_, ?_⟩
  · rw [trimEnd, ← List.reverse_append, List.takeWhile_append_dropWhile, List.reverse_reverse]
  · intro c hc
    exact List.all_eq_true.mp List.all_takeWhile c (List.mem_reverse.mp hc)

theorem length_trim_le (t : Text) : (trim t).length ≤ t.length := by
  obtain ⟨front, hfront, -⟩ := exists_append_trimStart t
  obtain ⟨back, hback, -⟩ := exists_trimEnd_append (trimStart t)
  have hstart := congrArg List.length hfront
  have hend := congrArg List.length hback
  rw [List.length_append] at hstart hend
  rw [trim]
  omega

end Text
end SqlAudit
