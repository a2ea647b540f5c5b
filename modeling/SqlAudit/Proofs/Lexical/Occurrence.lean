import SqlAudit.Proofs.Lexical.Masking

/-!
Runs of characters at byte offsets.  A run that stands in a part of a text stands in the text, at the
sum of the offsets.  Where spaces were written over some characters, a run without spaces stands in
the text as it was; and a run without blanks stands on the line of its offset.
-/

namespace SqlAudit

open Text

namespace Text

/-- A run of characters stands in a text at a byte offset. -/
def StandsAt (x : Text) (offset : Nat) (t : Text) : Prop :=
  ∃ front back, t = front ++ (x ++ back) ∧ size front = offset

theorem StandsAt.trans {x y t : Text} {m n : Nat} (hx : StandsAt x m y) (hy : StandsAt y n t) :
    StandsAt x (n + m) t := by
  obtain ⟨front, back, rfl, rfl⟩ := hx
  obtain ⟨front', back', rfl, rfl⟩ := hy
  refine ⟨front' ++ front, back ++ back', ?_, size_append _ _⟩
  simp only [List.append_assoc]

theorem standsAt_of_mem_statements {t : Text} {s : Statement} (h : s ∈ t.statements) :
    StandsAt s.text s.offset t := by
  obtain ⟨-, front, back, ht, hoffset⟩ := standsIn_of_mem_statements h
  refine ⟨front, back, ?_, ?_⟩
  · rw [ht, List.append_assoc]
  · omega

end Text

/-! ## Blanked texts -/

namespace Spaced

variable {t : Text}

theorem eq_nil (h : Spaced t []) : t = [] := by
  by_cases ht : t = []
  · exact ht
  · have hpos := size_pos_of_ne_nil ht
    rw [← h.size_eq, size_nil] at hpos
    omega

theorem exists_append {x back : Text} (h : Spaced t (x ++ back)) (hx : ' ' ∉ x) :
    ∃ back', t = x ++ back' := by
  induction x generalizing t with
  | nil => exact ⟨t, rfl⟩
  | cons c x ih =>
    rw [List.mem_cons, not_or] at hx
    have hhead : c :: x ++ back = [] ++ c :: (x ++ back) := rfl
    obtain ⟨front', back', rfl, hfront, hback⟩ := h.exists_append_cons hhead (Ne.symm hx.1)
    obtain ⟨back'', rfl⟩ := ih hback hx.2
    exact ⟨back'', by rw [hfront.eq_nil]; rfl⟩

/-- A run without spaces is none of those that were written over characters. -/
theorem standsAt {u x : Text} {offset : Nat} (h : Spaced t u) (hne : x ≠ []) (hx : ' ' ∉ x)
    (hu : StandsAt x offset u) : StandsAt x offset t := by
  obtain ⟨front, back, hu, hoffset⟩ := hu
  obtain ⟨c, x, rfl⟩ := List.exists_cons_of_ne_nil hne
  rw [List.mem_cons, not_or] at hx
  obtain ⟨front', back', rfl, hfront, hback⟩ := h.exists_append_cons hu (Ne.symm hx.1)
  obtain ⟨back'', rfl⟩ := hback.exists_append hx.2
  exact ⟨front', back'', rfl, by rw [← hfront.size_eq, hoffset]⟩

end Spaced

theorem Blanking.spaced {t u : Text} (h : Blanking t u) : Spaced t u := by
  induction h with
  | nil => exact .nil
  | keep c _ ih => exact .keep c ih
  | blank _ _ ih => exact .blank _ ih

/-! ## The line of a run -/

namespace Text

/-- A carriage return that is dropped is none of the run. -/
theorem isInfix_dropReturn {front x back : Text} (hne : x ≠ []) (hx : '\r' ∉ x) :
    x <:+: dropReturn (front ++ (x ++ back)) := by
  rcases List.eq_nil_or_concat back with rfl | ⟨back, c, rfl⟩
  · have hlast : (front ++ (x ++ [])).getLast? ≠ some '\r' := by
      rw [List.append_nil, List.getLast?_append_of_ne_nil _ hne]
      exact fun h => hx (List.mem_of_getLast? h)
    rw [dropReturn, if_neg hlast]
    exact ⟨front, [], by simp⟩
  · rw [List.concat_eq_append, ← List.append_assoc, ← List.append_assoc,
      dropReturn_append_singleton]
    split
    · exact ⟨front, back, rfl⟩
    · exact ⟨front, back ++ [c], by simp⟩

theorem isInfix_line_zero {front x : Text} (hfront : '\n' ∉ front) (hne : x ≠ []) (hx : '\n' ∉ x)
    (hreturn : '\r' ∉ x) (back : Text) :
    x <:+: (lines (front ++ (x ++ back))).getD 0 [] := by
  by_cases hback : '\n' ∈ back
  · obtain ⟨a, b, rfl, ha⟩ := List.eq_append_cons_of_mem hback
    have hfirst : '\n' ∉ front ++ (x ++ a) := by simp [hfront, hx, ha]
    have htext : front ++ (x ++ (a ++ '\n' :: b)) = (front ++ (x ++ a)) ++ '\n' :: b := by simp
    rw [htext, lines_first hfirst]
    exact isInfix_dropReturn hne hreturn
  · have hall : '\n' ∉ front ++ (x ++ back) := by simp [hfront, hx, hback]
    have hsome : front ++ (x ++ back) ≠ [] := by simp [hne]
    rw [lines_of_no_newline hall, if_neg hsome]
    exact ⟨front, back, List.append_assoc _ _ _⟩

-- The induction is on the lines of what stands before the run; the last of them goes on with it.
theorem isInfix_line_count {x : Text} (hne : x ≠ []) (hx : '\n' ∉ x) (hreturn : '\r' ∉ x)
    (front back : Text) :
    x <:+: (lines (front ++ (x ++ back))).getD (front.count '\n') [] := by
  induction front using induction_on_lines with
  | last a ha =>
    rw [List.count_eq_zero.mpr ha]
    exact isInfix_line_zero ha hne hx hreturn back
  | line a b ha ih =>
    have hcount : (a ++ '\n' :: b).count '\n' = b.count '\n' + 1 := by
      rw [List.count_append, List.count_eq_zero.mpr ha, List.count_cons_self]
      omega
    rw [hcount, List.append_assoc, List.cons_append, lines_first ha]
    exact ih

/-- A run without blanks stands on the line of its offset. -/
theorem StandsAt.isInfix_line {t x : Text} {offset : Nat} (h : StandsAt x offset t) (hne : x ≠ [])
    (hx : ∀ c ∈ x, isBlank c = false) : x <:+: t.line (t.lineAt offset) := by
  obtain ⟨front, back, rfl, rfl⟩ := h
  have hnot : ∀ {c}, isBlank c = true → c ∉ x := by
    intro c hc hmem
    rw [hx c hmem] at hc
    cases hc
  rw [lineAt_size]
  exact isInfix_line_count hne (hnot (by decide)) (hnot (by decide)) front back

end Text
end SqlAudit
