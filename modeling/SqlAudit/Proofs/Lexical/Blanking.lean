import SqlAudit.Lexical.Comment
import SqlAudit.Proofs.Text.Lines

/-!
Blanking comments keeps the geometry of a text: every byte stays where it is, and so does every
newline.  The scan for comments is first put in the form of a step, which says for one character
whether it is blanked and where the scan stands after it; what a whole scan does follows by
induction.
-/

namespace SqlAudit

namespace CommentState

/-- Whether a character and the one after it open a comment up to the end of the line. -/
def OpensLine (hash fresh : Bool) (c : Char) (peek : Option Char) : Prop :=
  c = '-' ∧ peek = some '-' ∨ c = '#' ∧ (fresh ∨ hash)

instance (hash fresh : Bool) (c : Char) (peek : Option Char) :
    Decidable (OpensLine hash fresh c peek) :=
  inferInstanceAs (Decidable (_ ∨ _))

/-- Whether a character and the one after it open a block comment. -/
def OpensBlock (c : Char) (peek : Option Char) : Prop := c = '/' ∧ peek = some '*'

instance (c : Char) (peek : Option Char) : Decidable (OpensBlock c peek) :=
  inferInstanceAs (Decidable (_ ∧ _))

/-- Whether the scan blanks a character, given the one after it. -/
def hides (hash : Bool) : CommentState → Char → Option Char → Bool
  | .code quote fresh, c, peek =>
    !quote.holds c && (decide (OpensLine hash fresh c peek) || decide (OpensBlock c peek))
  | .line, c, _ => c ≠ '\n'
  | .opening _, _, _ => true
  | .block _ _, c, _ => c ≠ '\n'

/-- Where the scan stands after a character, given the one after it. -/
def next (escapes : Escapes) (hash : Bool) : CommentState → Char → Option Char → CommentState
  | .code quote fresh, c, peek =>
    if quote.holds c then .code (quote.next escapes c) false
    else if OpensLine hash fresh c peek then .line
    else if OpensBlock c peek then .opening fresh
    else .code quote (c = '\n' ∨ fresh ∧ Text.isBlank c)
  | .line, c, _ => if c = '\n' then .code .code true else .line
  | .opening fresh, _, _ => .block false fresh
  | .block star fresh, c, _ =>
    if star ∧ c = '/' then .code .code fresh else .block (c = '*') fresh

/-- The state fits what follows it: a block comment is half open only before a star. -/
def Fits : CommentState → Text → Prop
  | .opening _, t => t.head? = some '*'
  | _, _ => True

/-- Each step leads to a state that fits the rest. -/
theorem fits_next (escapes : Escapes) (hash : Bool) (s : CommentState) (c : Char) (rest : Text) :
    (s.next escapes hash c rest.head?).Fits rest := by
  cases s with
  | code quote fresh =>
    rw [next]
    by_cases hq : quote.holds c = true
    · simp [hq, Fits]
    · by_cases hl : OpensLine hash fresh c rest.head?
      · simp [hq, hl, Fits]
      · by_cases hb : OpensBlock c rest.head?
        · simp only [hq, hl, hb, if_false, if_true, Bool.false_eq_true, Fits]
          exact hb.2
        · simp [hq, hl, hb, Fits]
  | line =>
    rw [next]
    by_cases hc : c = '\n' <;> simp [hc, Fits]
  | opening fresh => simp [next, Fits]
  | block star fresh =>
    rw [next]
    by_cases hc : star = true ∧ c = '/' <;> simp [hc, Fits]

/-- A newline is never blanked where the state fits. -/
theorem ne_newline_of_hides {hash : Bool} {s : CommentState} {c : Char} {rest : Text}
    (hfits : s.Fits (c :: rest)) (h : s.hides hash c rest.head? = true) : c ≠ '\n' := by
  cases s with
  | code quote fresh =>
    rintro rfl
    simp [hides, OpensLine, OpensBlock] at h
  | line => simpa [hides] using h
  | opening fresh =>
    have hstar : c = '*' := by simpa [Fits] using hfits
    simp [hstar]
  | block star fresh => simpa [hides] using h

end CommentState

namespace Text

theorem eq_space_of_blanks_append {c d : Char} {t u : Text} (h : blanks c ++ t = d :: u) :
    d = ' ' := by
  have hpos := c.utf8Size_pos
  obtain ⟨n, hn⟩ : ∃ n, c.utf8Size = n + 1 := ⟨c.utf8Size - 1, by omega⟩
  rw [blanks, hn, List.replicate_succ, List.cons_append] at h
  exact (List.cons.inj h).1.symm

/-- One step of the scan for comments. -/
theorem blankCommentsFrom_cons (escapes : Escapes) (hash : Bool) (s : CommentState) (c : Char)
    (rest : Text) :
    blankCommentsFrom escapes hash s (c :: rest) =
      (if s.hides hash c rest.head? then blanks c else [c]) ++
        blankCommentsFrom escapes hash (s.next escapes hash c rest.head?) rest := by
  cases s with
  | code quote fresh =>
    rw [blankCommentsFrom, CommentState.hides, CommentState.next]
    change (if quote.holds c then _ else if CommentState.OpensLine hash fresh c rest.head? then _
      else if CommentState.OpensBlock c rest.head? then _ else _) = _
    by_cases hq : quote.holds c = true
    · simp [hq]
    · by_cases hl : CommentState.OpensLine hash fresh c rest.head?
      · simp [hq, hl]
      · by_cases hb : CommentState.OpensBlock c rest.head? <;> simp [hq, hl, hb]
  | line =>
    rw [blankCommentsFrom, CommentState.hides, CommentState.next]
    by_cases hc : c = '\n' <;> simp [hc]
  | opening fresh => simp [blankCommentsFrom, CommentState.hides, CommentState.next]
  | block star fresh =>
    rw [blankCommentsFrom, CommentState.hides, CommentState.next]
    by_cases hc : c = '\n'
    · simp [hc]
    · by_cases hs : star = true ∧ c = '/' <;> simp [hc, hs]

end Text

/-! ## What blanking keeps -/

/-- The second text is the first one with some characters blanked, none of them a newline. -/
inductive Blanking : Text → Text → Prop where
  | nil : Blanking [] []
  | keep (c : Char) {t u : Text} : Blanking t u → Blanking (c :: t) (c :: u)
  | blank {c : Char} {t u : Text} : c ≠ '\n' → Blanking t u →
      Blanking (c :: t) (Text.blanks c ++ u)

namespace Blanking

open Text

variable {t u : Text}

theorem size_eq (h : Blanking t u) : u.size = t.size := by
  induction h with
  | nil => rfl
  | keep c _ ih => rw [size_cons, size_cons, ih]
  | blank _ _ ih => rw [size_append, size_blanks, size_cons, ih]

theorem count_blanks (c : Char) : (blanks c).count '\n' = 0 := by
  rw [List.count_eq_zero]
  intro h
  exact absurd (List.eq_of_mem_replicate h) (by decide)

theorem count_newline_eq (h : Blanking t u) : u.count '\n' = t.count '\n' := by
  induction h with
  | nil => rfl
  | keep c _ ih => rw [List.count_cons, List.count_cons, ih]
  | blank hc _ ih =>
    rw [List.count_append, count_blanks, List.count_cons_of_ne hc, ih, Nat.zero_add]

theorem length_lines_blanks (c : Char) (t : Text) :
    (lines (blanks c ++ t)).length = max 1 t.lines.length := by
  have hspaces : ∀ n, (lines (List.replicate (n + 1) ' ' ++ t)).length =
      max 1 t.lines.length := by
    intro n
    induction n with
    | zero => exact length_lines_cons (by decide) t
    | succ n ih =>
      rw [List.replicate_succ, List.cons_append, length_lines_cons (by decide), ih]
      omega
  have hpos := c.utf8Size_pos
  have hsize : c.utf8Size = c.utf8Size - 1 + 1 := by omega
  rw [blanks, hsize]
  exact hspaces _

theorem length_lines_eq (h : Blanking t u) : u.lines.length = t.lines.length := by
  induction h with
  | nil => rfl
  | keep c _ ih =>
    by_cases hc : c = '\n'
    · rw [hc, lines_newline_cons, lines_newline_cons, List.length_cons, List.length_cons, ih]
    · rw [length_lines_cons hc, length_lines_cons hc, ih]
  | blank hc _ ih => rw [length_lines_blanks, length_lines_cons hc, ih]

/-- Blanked characters hold no newline, so offsets stay on their lines. -/
theorem lineAt_blanks (c : Char) (t : Text) (offset : Nat) :
    lineAt (blanks c ++ t) offset =
      if offset < c.utf8Size then 1 else lineAt t (offset - c.utf8Size) := by
  have hspaces : ∀ n o, lineAt (List.replicate n ' ' ++ t) o =
      if o < n then 1 else lineAt t (o - n) := by
    intro n
    induction n with
    | zero => simp
    | succ n ih =>
      intro o
      have hspace : (' ' : Char).utf8Size = 1 := by decide
      rw [List.replicate_succ, List.cons_append, lineAt, hspace, ih]
      by_cases h0 : o < 1
      · have : o < n + 1 := by omega
        simp [h0, this]
      · by_cases hn : o - 1 < n
        · have : o < n + 1 := by omega
          simp [h0, hn, this]
        · have hpast : ¬ o < n + 1 := by omega
          have hleft : o - 1 - n = o - (n + 1) := by omega
          simp [h0, hn, hpast, hleft]
  exact hspaces _ _

theorem lineAt_eq (h : Blanking t u) (offset : Nat) : u.lineAt offset = t.lineAt offset := by
  induction h generalizing offset with
  | nil => rfl
  | keep c _ ih => rw [lineAt, lineAt, ih]
  | blank hc _ ih => simp [lineAt_blanks, lineAt, ih, hc]

end Blanking

namespace Text

theorem blanking_blankCommentsFrom (escapes : Escapes) (hash : Bool) {s : CommentState} {t : Text}
    (hfits : s.Fits t) : Blanking t (blankCommentsFrom escapes hash s t) := by
  induction t generalizing s with
  | nil =>
    rw [blankCommentsFrom]
    exact .nil
  | cons c rest ih =>
    have hrest := ih (s.fits_next escapes hash c rest)
    rw [blankCommentsFrom_cons]
    by_cases hh : s.hides hash c rest.head? = true
    · rw [if_pos hh]
      exact .blank (CommentState.ne_newline_of_hides hfits hh) hrest
    · rw [if_neg hh]
      exact .keep c hrest

theorem blanking_blankComments (t : Text) (hash : Bool) : Blanking t (t.blankComments hash) := by
  have hunder : ∀ escapes, Blanking t (blankCommentsUnder escapes hash t) := by
    intro escapes
    exact blanking_blankCommentsFrom escapes hash (s := .code .code true) trivial
  simp only [blankComments]
  split
  · exact hunder .standard
  · split
    · exact hunder .backslash
    · exact hunder .standard

end Text
end SqlAudit
