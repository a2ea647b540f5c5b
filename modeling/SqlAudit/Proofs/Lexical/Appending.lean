import SqlAudit.Proofs.Lexical.Tidy

/-!
Texts to which something is added that has no part in quotes and comments.  It does not change how
the text before it is read, and it is kept as it stands unless it comes to stand in a block comment.
-/

namespace SqlAudit

/-- A character that neither opens nor closes a quote or a comment, whatever stands around it. -/
def Text.isInert (c : Char) : Bool := (Quote.ofChar? c).isNone && !("\\-#/*".toList.contains c)

open Text

namespace Text

theorem of_isInert {c : Char} (h : isInert c = true) :
    Quote.ofChar? c = none ∧ c ≠ '\\' ∧ c ≠ '-' ∧ c ≠ '#' ∧ c ≠ '/' ∧ c ≠ '*' := by
  simpa [isInert] using h

theorem ne_char_of_isInert {c : Char} (h : isInert c = true) (quote : Quote) : c ≠ quote.char := by
  rintro rfl
  cases quote <;> cases h

end Text

/-! ## Steps -/

namespace QuoteState

variable {c : Char} (hc : isInert c = true) (escapes : Escapes)

include hc

theorem open?_next_of_isInert (s : QuoteState) : (s.next escapes c).open? = s.open? := by
  cases s with
  | code => rw [next, (of_isInert hc).1]
  | inside quote => rw [next, if_neg (by simp [of_isInert hc]), if_neg (ne_char_of_isInert hc quote)]
  | escaped quote => rfl

theorem holds_of_isInert (s : QuoteState) : s.holds c = s.open?.isSome := by
  cases s with
  | code => rw [holds, (of_isInert hc).1]; rfl
  | inside quote => rfl
  | escaped quote => rfl

end QuoteState

namespace CommentState

/-- What comes next is looked at for the second character of a comment sign only. -/
theorem step_eq_of_peek {peek peek' : Option Char} (hdash : peek = some '-' ↔ peek' = some '-')
    (hstar : peek = some '*' ↔ peek' = some '*') (escapes : Escapes) (hash : Bool)
    (s : CommentState) (c : Char) :
    s.hides hash c peek = s.hides hash c peek' ∧
      s.next escapes hash c peek = s.next escapes hash c peek' := by
  cases s with
  | code quote fresh =>
    have hline : OpensLine hash fresh c peek ↔ OpensLine hash fresh c peek' := by
      rw [OpensLine, OpensLine, hdash]
    have hblock : OpensBlock c peek ↔ OpensBlock c peek' := by
      rw [OpensBlock, OpensBlock, hstar]
    simp [hides, next, hline, hblock]
  | line => exact ⟨rfl, rfl⟩
  | opening fresh => exact ⟨rfl, rfl⟩
  | block star fresh => exact ⟨rfl, rfl⟩

variable {c : Char} (hc : isInert c = true) (escapes : Escapes) (hash : Bool) (peek : Option Char)

include hc

theorem step_code_of_isInert (q : QuoteState) (fresh : Bool) :
    (code q fresh).hides hash c peek = false ∧
      ∃ fresh', (code q fresh).next escapes hash c peek = .code (q.next escapes c) fresh' := by
  obtain ⟨-, -, hdash, hhash, hslash, -⟩ := of_isInert hc
  refine ⟨by simp [hides, OpensLine, OpensBlock, hdash, hhash, hslash], ?_⟩
  rw [next]
  by_cases hholds : q.holds c = true
  · exact ⟨_, if_pos hholds⟩
  · obtain ⟨rfl, hnext⟩ :=
      QuoteState.next_code_of_holds_eq_false escapes (Bool.eq_false_iff.mpr hholds)
    rw [hnext, if_neg hholds, if_neg (by simp [OpensLine, hdash, hhash]),
      if_neg (by simp [OpensBlock, hslash])]
    exact ⟨_, rfl⟩

theorem open?_next_of_isInert (s : CommentState) :
    (s.next escapes hash c peek).quote.open? = s.quote.open? := by
  cases s with
  | code q fresh =>
    obtain ⟨-, fresh', hnext⟩ := step_code_of_isInert hc escapes hash peek q fresh
    rw [hnext]
    exact q.open?_next_of_isInert hc escapes
  | line =>
    rw [next]
    split <;> rfl
  | opening fresh => rfl
  | block star fresh =>
    rw [next, if_neg (by simp [of_isInert hc])]
    rfl

end CommentState

namespace Text

/-! ## Comments -/

section

variable {b : Text} (hb : ∀ c ∈ b, isInert c = true) (escapes : Escapes) (hash : Bool)

include hb

theorem blankCommentsFrom_code_of_isInert (q : QuoteState) (fresh : Bool) :
    blankCommentsFrom escapes hash (.code q fresh) b = b := by
  induction b generalizing q fresh with
  | nil => rw [blankCommentsFrom]
  | cons c rest ih =>
    obtain ⟨hkept, fresh', hnext⟩ := CommentState.step_code_of_isInert (hb c List.mem_cons_self)
      escapes hash rest.head? q fresh
    rw [blankCommentsFrom_cons, hkept, hnext, ih fun d hd => hb d (List.mem_cons_of_mem c hd)]
    rfl

theorem open?_commentStateFrom_of_isInert (s : CommentState) :
    (commentStateFrom escapes hash s b).quote.open? = s.quote.open? := by
  induction b generalizing s with
  | nil => rw [commentStateFrom]
  | cons c rest ih =>
    rw [commentStateFrom, ih fun d hd => hb d (List.mem_cons_of_mem c hd),
      s.open?_next_of_isInert (hb c List.mem_cons_self)]

/-- The scan goes through the first text as it would alone, and then through the second one. -/
theorem scan_append_of_isInert (s : CommentState) (a : Text) :
    blankCommentsFrom escapes hash s (a ++ b) = blankCommentsFrom escapes hash s a ++
        blankCommentsFrom escapes hash (commentStateFrom escapes hash s a) b ∧
      commentStateFrom escapes hash s (a ++ b) =
        commentStateFrom escapes hash (commentStateFrom escapes hash s a) b := by
  induction a generalizing s with
  | nil =>
    rw [blankCommentsFrom, commentStateFrom]
    exact ⟨rfl, rfl⟩
  | cons c rest ih =>
    have hpeek : ∀ d, isInert d = false → ((rest ++ b).head? = some d ↔ rest.head? = some d) := by
      intro d hd
      cases rest with
      | cons e rest => rfl
      | nil =>
        refine ⟨fun hhead => ?_, fun hhead => by cases hhead⟩
        have hmem : d ∈ b := List.mem_of_mem_head? hhead
        rw [hb d hmem] at hd
        cases hd
    obtain ⟨hhides, hnext⟩ := CommentState.step_eq_of_peek (hpeek '-' rfl) (hpeek '*' rfl)
      escapes hash s c
    obtain ⟨hblank, hstate⟩ := ih (s.next escapes hash c rest.head?)
    rw [List.cons_append, blankCommentsFrom_cons, blankCommentsFrom_cons, commentStateFrom,
      commentStateFrom, hhides, hnext, hblank, hstate, List.append_assoc]
    exact ⟨rfl, rfl⟩

theorem openQuote?_append_of_isInert (a : Text) :
    (blankCommentsUnder escapes hash (a ++ b)).openQuote? escapes =
      (blankCommentsUnder escapes hash a).openQuote? escapes := by
  have hquote : ∀ t : Text, (blankCommentsUnder escapes hash t).openQuote? escapes =
      (commentStateFrom escapes hash (.code .code true) t).quote.open? := by
    intro t
    exact congrArg QuoteState.open?
      (foldl_next_blankCommentsFrom escapes hash (.code .code true) t)
  rw [hquote, hquote, (scan_append_of_isInert hb escapes hash _ a).2,
    open?_commentStateFrom_of_isInert hb]

end

/-- The convention for backslashes that is settled on when comments are blanked. -/
def commentEscapes (t : Text) (hash : Bool) : Escapes :=
  if ((blankCommentsUnder .standard hash t).openQuote? .standard).isNone then .standard
  else if ((blankCommentsUnder .backslash hash t).openQuote? .backslash).isNone then .backslash
  else .standard

theorem blankComments_eq_under (t : Text) (hash : Bool) :
    t.blankComments hash = blankCommentsUnder (t.commentEscapes hash) hash t := by
  simp only [blankComments, commentEscapes]
  split
  · rfl
  · split <;> rfl

/-- Whether a text ends inside a block comment. -/
def endsInBlock (t : Text) (hash : Bool) : Bool :=
  match commentStateFrom (t.commentEscapes hash) hash (.code .code true) t with
  | .block _ _ => true
  | _ => false

theorem fits_commentStateFrom {escapes : Escapes} {hash : Bool} {s : CommentState} {t : Text}
    (h : s.Fits t) : (commentStateFrom escapes hash s t).Fits [] := by
  induction t generalizing s with
  | nil => exact h
  | cons c rest ih => exact ih (s.fits_next escapes hash c rest)

/-- A new line with nothing but inert characters is kept, and so is all that stands before it. -/
theorem blankComments_append_of_isInert {t r : Text} {hash : Bool} (ht : t.endsInBlock hash = false)
    (hr : ∀ c ∈ r, isInert c = true) :
    (t ++ '\n' :: r).blankComments hash = t.blankComments hash ++ '\n' :: r := by
  have hline : ∀ c ∈ '\n' :: r, isInert c = true := by
    intro c hc
    rcases List.mem_cons.mp hc with rfl | hc
    · rfl
    · exact hr c hc
  have hescapes : (t ++ '\n' :: r).commentEscapes hash = t.commentEscapes hash := by
    simp only [commentEscapes, openQuote?_append_of_isInert hline]
  have hfits : (commentStateFrom (t.commentEscapes hash) hash (.code .code true) t).Fits [] :=
    fits_commentStateFrom (s := .code .code true) trivial
  rw [blankComments_eq_under, blankComments_eq_under, hescapes, blankCommentsUnder,
    (scan_append_of_isInert hline _ hash _ t).1, blankCommentsUnder]
  congr 1
  rw [endsInBlock] at ht
  cases hstate : commentStateFrom (t.commentEscapes hash) hash (.code .code true) t with
  | code q fresh => exact blankCommentsFrom_code_of_isInert hline _ hash q fresh
  | line =>
    rw [blankCommentsFrom, if_pos rfl, blankCommentsFrom_code_of_isInert hr]
  | opening fresh =>
    rw [hstate] at hfits
    cases hfits
  | block star fresh =>
    rw [hstate] at ht
    cases ht

/-! ## Enclosed texts -/

theorem upToClose_append_of_none {rs : List Mark} (hrs : ∀ inner, upToClose inner rs = none)
    (inner : Nat) (ms : List Mark) : upToClose inner (ms ++ rs) = upToClose inner ms := by
  induction ms generalizing inner with
  | nil =>
    rw [List.nil_append, hrs]
    rfl
  | cons m rest ih => cases inner <;> simp only [List.cons_append, upToClose, ih]

theorem marksFrom_of_isInert {r : Text} (hr : ∀ c ∈ r, isInert c = true) (escapes : Escapes)
    (s : QuoteState) : marksFrom escapes s r = r.map (⟨·, s.open?.isSome⟩) := by
  induction r generalizing s with
  | nil => rfl
  | cons c rest ih =>
    have hc := hr c List.mem_cons_self
    rw [marksFrom, ih fun d hd => hr d (List.mem_cons_of_mem c hd), s.holds_of_isInert hc,
      s.open?_next_of_isInert hc]
    rfl

/-- Parentheses that close again close nothing of the text before them. -/
theorem enclosed?_append_of_isInert {r : Text} (hr : ∀ c ∈ r, isInert c = true) (htidy : Tidy true r)
    (t : Text) : enclosed? (t ++ r) = enclosed? t := by
  have hcode : ∀ inner, upToClose inner (r.map (⟨·, false⟩)) = none := by
    intro inner
    have hclose := htidy.upToClose_append inner []
    rw [List.append_nil, marks, marksFrom_of_isInert hr] at hclose
    exact hclose
  have hquoted : ∀ inner, upToClose inner (r.map (⟨·, true⟩)) = none := by
    intro inner
    clear hr htidy hcode
    induction r with
    | nil => rfl
    | cons c rest ih =>
      rw [List.map_cons, upToClose_cons_of_other rfl rfl, ih]
      rfl
  have hnone : ∀ (escapes : Escapes) (s : QuoteState) (inner : Nat),
      upToClose inner (marksFrom escapes s r) = none := by
    intro escapes s inner
    rw [marksFrom_of_isInert hr]
    cases s.open?.isSome with
    | false => exact hcode inner
    | true => exact hquoted inner
  rw [enclosed?, enclosed?, marks, marks, marks, marks, marksFrom_append, marksFrom_append,
    upToClose_append_of_none (hnone _ _), upToClose_append_of_none (hnone _ _)]

end Text
end SqlAudit
