import SqlAudit.Proofs.Lexical.Appending

/-!
The quote that a text leaves open, under either convention for backslashes.  It does not depend on
blanks at the ends of the text: all that they can do to a scan is to use up a backslash before them.
-/

namespace SqlAudit

open Text

namespace QuoteState

/-- A state without a backslash that is still to be used up. -/
def settled : QuoteState → QuoteState
  | .escaped quote => .inside quote
  | s => s

@[simp] theorem settled_settled (s : QuoteState) : s.settled.settled = s.settled := by
  cases s <;> rfl

theorem open?_settled (s : QuoteState) : s.settled.open? = s.open? := by
  cases s <;> rfl

theorem eq_code_of_settled {s : QuoteState} (h : s.settled = .code) : s = .code := by
  cases s with
  | code => rfl
  | inside quote => cases h
  | escaped quote => cases h

theorem next_of_isInert {c : Char} (hc : isInert c = true) (escapes : Escapes) (s : QuoteState) :
    s.next escapes c = s.settled := by
  cases s with
  | code =>
    rw [next, (of_isInert hc).1]
    rfl
  | inside quote =>
    rw [next, if_neg (by simp [of_isInert hc]), if_neg (ne_char_of_isInert hc quote)]
    rfl
  | escaped quote => rfl

end QuoteState

namespace Text

theorem isInert_of_isBlank {c : Char} (h : isBlank c = true) : isInert c = true := by
  have hne : ∀ d, isBlank d = false → c ≠ d := by
    rintro d hd rfl
    rw [h] at hd
    cases hd
  have hquote : Quote.ofChar? c = none := by
    rw [Quote.ofChar?, if_neg (hne _ (by decide)), if_neg (hne _ (by decide)),
      if_neg (hne _ (by decide))]
  simp [isInert, hquote, hne '\\' (by decide), hne '-' (by decide), hne '#' (by decide),
    hne '/' (by decide), hne '*' (by decide)]

/-! ## Inert characters and blanks at the ends -/

section

variable {r : Text} (hr : ∀ c ∈ r, isInert c = true) (escapes : Escapes) (s : QuoteState)

include hr

theorem settled_foldl_next_of_isInert :
    (r.foldl (QuoteState.next escapes) s).settled = s.settled := by
  induction r generalizing s with
  | nil => rfl
  | cons c rest ih =>
    rw [List.foldl_cons, ih (fun d hd => hr d (List.mem_cons_of_mem c hd)),
      s.next_of_isInert (hr c List.mem_cons_self), s.settled_settled]

theorem foldl_next_of_isInert {s : QuoteState} (hs : s.settled = s) :
    r.foldl (QuoteState.next escapes) s = s := by
  induction r with
  | nil => rfl
  | cons c rest ih =>
    rw [List.foldl_cons, s.next_of_isInert (hr c List.mem_cons_self), hs,
      ih fun d hd => hr d (List.mem_cons_of_mem c hd)]

end

theorem exists_trim (t : Text) : ∃ lead trail, t = lead ++ (trim t ++ trail) ∧
    (∀ c ∈ lead, isBlank c = true) ∧ ∀ c ∈ trail, isBlank c = true := by
  obtain ⟨lead, hlead, hleadBlank⟩ := exists_append_trimStart t
  obtain ⟨trail, htrail, htrailBlank⟩ := exists_trimEnd_append (trimStart t)
  refine ⟨lead, trail, ?_, hleadBlank, htrailBlank⟩
  rw [trim, ← htrail, ← hlead]

theorem settled_foldl_next_trim (escapes : Escapes) {s : QuoteState} (hs : s.settled = s)
    (t : Text) : ((trim t).foldl (QuoteState.next escapes) s).settled =
      (t.foldl (QuoteState.next escapes) s).settled := by
  obtain ⟨lead, trail, ht, hlead, htrail⟩ := exists_trim t
  conv =>
    rhs
    rw [ht, List.foldl_append, List.foldl_append,
      foldl_next_of_isInert (fun c hc => isInert_of_isBlank (hlead c hc)) escapes hs,
      settled_foldl_next_of_isInert fun c hc => isInert_of_isBlank (htrail c hc)]

@[simp] theorem openQuote?_trim (escapes : Escapes) (t : Text) :
    (trim t).openQuote? escapes = t.openQuote? escapes := by
  rw [openQuote?, openQuote?, ← QuoteState.open?_settled, quoteState,
    settled_foldl_next_trim escapes rfl, QuoteState.open?_settled, ← quoteState]

/-! ## The reading of a text -/

/-- The reading of a text leaves a quote open only if the other one does as well. -/
theorem isSome_openQuote?_escapes_iff (t : Text) : (t.openQuote? t.escapes).isSome = true ↔
    ∀ escapes, (t.openQuote? escapes).isSome = true := by
  constructor
  · intro h
    by_cases hstandard : (t.openQuote? .standard).isSome = true
    · by_cases hbackslash : (t.openQuote? .backslash).isSome = true
      · intro escapes
        cases escapes with
        | standard => exact hstandard
        | backslash => exact hbackslash
      · have hnone : t.openQuote? .backslash = none := by simpa using hbackslash
        have hescapes : t.escapes = .backslash := by simp [Text.escapes, hstandard, hnone]
        rw [hescapes] at h
        exact absurd h hbackslash
    · have hescapes : t.escapes = .standard := by simp [Text.escapes, hstandard]
      rw [hescapes] at h
      exact absurd h hstandard
  · exact fun h => h _

end Text
end SqlAudit
