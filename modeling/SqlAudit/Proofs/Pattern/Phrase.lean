import SqlAudit.Proofs.Pattern.Skipping

/-!
Phrases: words with blanks between them.  A phrase matches its own words, and it does not match
words from which it differs before its last one.
-/

namespace SqlAudit

open Text

namespace Pattern

variable {β : Type} {k : Way → Option β} {before rest : Text} {captures : List Capture}

def joined (words : List String) : Text := [' '].intercalate (words.map String.toList)

theorem joined_singleton (s : String) : joined [s] = s.toList := by
  rw [joined, List.map_singleton, List.intercalate_singleton]

theorem joined_cons_cons (word next : String) (more : List String) :
    joined (word :: next :: more) = word.toList ++ ' ' :: joined (next :: more) := by
  rw [joined, List.map_cons, List.map_cons, List.intercalate_cons_cons, List.append_assoc]
  rfl

theorem exists_joined_eq (s : String) (more : List String) :
    ∃ tail, joined (s :: more) = s.toList ++ tail := by
  cases more with
  | nil => exact ⟨[], by rw [joined_singleton, List.append_nil]⟩
  | cons next more => exact ⟨_, joined_cons_cons s next more⟩

theorem stops_isBlank_of_isPhraseWord {s : String} (hs : isPhraseWord s = true) (rest : Text) :
    Stops isBlank (s.toList ++ rest) := by
  obtain ⟨hne, hchars⟩ := of_isPhraseWord hs
  obtain ⟨c, more, hcons⟩ := List.exists_cons_of_ne_nil hne
  rw [hcons, List.cons_append, stops_cons]
  exact isBlank_eq_false_of_isIdentifierChar (hchars c (by rw [hcons]; exact List.mem_cons_self))

theorem stops_isBlank_joined {words : List String} (hne : words ≠ [])
    (hwords : ∀ s ∈ words, isPhraseWord s = true) (rest : Text) :
    Stops isBlank (joined words ++ rest) := by
  obtain ⟨s, more, rfl⟩ := List.exists_cons_of_ne_nil hne
  obtain ⟨tail, htail⟩ := exists_joined_eq s more
  rw [htail, List.append_assoc]
  exact stops_isBlank_of_isPhraseWord (hwords s List.mem_cons_self) _

/-- A search passes over words that are none of those it looks for. -/
theorem skips_joined_append {p : Pattern} {heads : List String} (hled : p.LedByWords heads)
    (hheads : ∀ s ∈ heads, isPhraseWord s = true) {words : List String}
    (hwords : ∀ x ∈ words, isPhraseWord x = true)
    (hother : ∀ x ∈ words, ∀ s ∈ heads, ¬ SameWord s.toList x.toList) {t : Text}
    (hstops : Stops isWordChar (t ++ rest))
    (h : p.Skips ((joined words).reverse ++ before) t rest) :
    p.Skips before (joined words ++ t) rest := by
  induction words generalizing before with
  | nil => exact h
  | cons x more ih =>
    have hx := isWordChar_of_isPhraseWord (hwords x List.mem_cons_self)
    have hxother := hother x List.mem_cons_self
    cases more with
    | nil =>
      rw [joined_singleton] at h ⊢
      exact skips_word_append hled hheads hx hxother hstops h
    | cons next more =>
      rw [joined_cons_cons] at h ⊢
      rw [List.append_assoc, List.cons_append]
      refine skips_word_append hled hheads hx hxother (stops_of_head rfl) ?_
      refine skips_cons hled hheads (by decide) (ih ?_ ?_ ?_)
      · exact fun y hy => hwords y (List.mem_cons_of_mem x hy)
      · exact fun y hy => hother y (List.mem_cons_of_mem x hy)
      · simpa using h

theorem phrase_cons_cons (s next : String) (more : List String) :
    phrase (s :: next :: more) = seq (word s) (seq gap (phrase (next :: more))) := by
  cases more <;> rfl

theorem first?_phrase_joined {words : List String} (hne : words ≠ [])
    (hwords : ∀ s ∈ words, isPhraseWord s = true) :
    (phrase words).first? k ⟨⟨before, joined words ++ rest⟩, captures⟩ =
      k ⟨⟨(joined words).reverse ++ before, rest⟩, captures⟩ := by
  induction words generalizing before with
  | nil => exact absurd rfl hne
  | cons s more ih =>
    cases more with
    | nil =>
      rw [joined_singleton]
      exact first?_word_append s
    | cons next more =>
      have hmore := fun x hx => hwords x (List.mem_cons_of_mem s hx)
      rw [phrase_cons_cons, first?_seq, joined_cons_cons, List.append_assoc, List.cons_append,
        first?_word_append, first?_seq,
        first?_gap (stops_isBlank_joined (List.cons_ne_nil _ _) hmore rest),
        ih (List.cons_ne_nil _ _) hmore]
      simp

theorem opens_append_of_sameWord {letters x : List Char} (h : SameWord letters x) :
    opens letters (x ++ rest) = true := by
  obtain ⟨hlength, hopens⟩ := h
  induction letters generalizing x with
  | nil => rfl
  | cons letter letters ih =>
    cases x with
    | nil => cases hopens
    | cons c x =>
      rw [opens, Bool.and_eq_true] at hopens
      rw [List.cons_append, opens, hopens.1, ih (by simpa using hlength) hopens.2]
      rfl

/-- Before a gap, a word matches whole words only. -/
theorem first?_word_gap {s : String} {x : Text} (hs : isPhraseWord s = true)
    (hx : ∀ c ∈ x, isWordChar c = true) (hrest : Stops isWordChar rest) :
    (word s).first? (gap.first? k) ⟨⟨before, x ++ rest⟩, captures⟩ =
      if SameWord s.toList x then gap.first? k ⟨⟨x.reverse ++ before, rest⟩, captures⟩
      else none := by
  by_cases hsame : SameWord s.toList x
  · rw [if_pos hsame, first?_word, if_pos (opens_append_of_sameWord hsame), hsame.1, List.take_left,
      List.drop_left]
  · rw [if_neg hsame]
    cases hfirst : (word s).first? (gap.first? k) ⟨⟨before, x ++ rest⟩, captures⟩ with
    | none => rfl
    | some v =>
      refine absurd (sameWord_of_startsWord (of_isPhraseWord hs).2 hx hrest ?_) hsame
      apply startsWord_of_gap (k := k)
      rw [hfirst]
      simp

theorem first?_phrase_cons_cons {s next : String} {more : List String} {x : Text}
    (hs : isPhraseWord s = true) (hx : ∀ c ∈ x, isWordChar c = true)
    (hrest : Stops isWordChar rest) :
    (phrase (s :: next :: more)).first? k ⟨⟨before, x ++ rest⟩, captures⟩ =
      if SameWord s.toList x then
        gap.first? ((phrase (next :: more)).first? k) ⟨⟨x.reverse ++ before, rest⟩, captures⟩
      else none := by
  have hfun : (seq gap (phrase (next :: more))).first? k =
      gap.first? ((phrase (next :: more)).first? k) := funext fun w => first?_seq k _ _ w
  rw [phrase_cons_cons, first?_seq, hfun, first?_word_gap hs hx hrest]

theorem first?_phrase_eq_none {s : String} {more : List String} {t : Text}
    (hs : isPhraseWord s = true) (ht : Stops isWordChar t) :
    (phrase (s :: more)).first? k ⟨⟨before, t⟩, captures⟩ = none := by
  have hopens := opens_eq_false_of_stops hs ht
  cases more with
  | nil => exact first?_word_eq_none hopens
  | cons next more =>
    rw [phrase_cons_cons, first?_seq]
    exact first?_word_eq_none hopens

/-- Two lists of words differ before the last word of the first one. -/
def differ : List String → List String → Bool
  | s :: next :: more, x :: words =>
    !decide (SameWord s.toList x.toList) || differ (next :: more) words
  | _, _ => false

/-- A phrase does not match words from which it differs. -/
theorem first?_phrase_eq_none_of_differ {ws words : List String} (h : differ ws words = true)
    (hws : ∀ s ∈ ws, isPhraseWord s = true) (hwords : ∀ s ∈ words, isPhraseWord s = true)
    (hrest : Stops isWordChar rest) :
    (phrase ws).first? k ⟨⟨before, joined words ++ rest⟩, captures⟩ = none := by
  induction words generalizing ws before with
  | nil => cases ws with
    | nil => cases h
    | cons s more => cases more <;> cases h
  | cons x words ih =>
    match ws, h with
    | s :: next :: more, h =>
      have hx := hwords x List.mem_cons_self
      have hchars := isWordChar_of_isPhraseWord hx
      have hs := hws s List.mem_cons_self
      have hmore := fun y hy => hws y (List.mem_cons_of_mem s hy)
      have hothers := fun y hy => hwords y (List.mem_cons_of_mem x hy)
      rw [differ, Bool.or_eq_true, Bool.not_eq_true', decide_eq_false_iff_not] at h
      cases words with
      | nil =>
        have hdiffer : ¬ SameWord s.toList x.toList := by
          rcases h with h | h
          · exact h
          · cases more <;> cases h
        rw [joined_singleton,
          first?_phrase_cons_cons hs hchars hrest, if_neg hdiffer]
      | cons y words =>
        rw [joined_cons_cons, List.append_assoc, List.cons_append,
          first?_phrase_cons_cons hs hchars (by simp; decide)]
        by_cases hsame : SameWord s.toList x.toList
        · rw [if_pos hsame, first?_gap (stops_isBlank_joined (List.cons_ne_nil _ _) hothers rest)]
          exact ih (h.resolve_left fun hne => hne hsame) hmore hothers
        · rw [if_neg hsame]

end Pattern
end SqlAudit
