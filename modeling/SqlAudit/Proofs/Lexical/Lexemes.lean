import SqlAudit.Proofs.Lexical.Locality

/-!
Documents put together from lexemes: plain code, quoted runs and comments, in any order.  What is
between the quotes of a run may look like a comment, and what is in a comment may look like a quote;
the scan for comments is misled by neither.  Main statement: blanking the comments of a document
blanks its comment lexemes and leaves the others as they are.
-/

namespace SqlAudit

namespace Text

/-- Every character of a text blanked, newlines apart. -/
def blankOut (t : Text) : Text := t.flatMap fun c => if c = '\n' then [c] else blanks c

def blockEnd : Text := ['*', '/']

end Text

open Text

/-- A character of plain code: no quote, and none that a comment starts with. -/
def IsPlain (c : Char) : Prop := Quote.ofChar? c = none ∧ c ≠ '-' ∧ c ≠ '/' ∧ c ≠ '#'

instance (c : Char) : Decidable (IsPlain c) := inferInstanceAs (Decidable (_ ∧ _))

/-- A stretch of a document that is whole in itself. -/
inductive Lexeme where
  | code (text : Text) (plain : ∀ c ∈ text, IsPlain c)
  | quoted (quote : Quote) (body : Text) (closed : quote.char ∉ body)
  | lineComment (body : Text) (oneLine : '\n' ∉ body)
  | blockComment (body : Text) (unended : ¬ blockEnd <:+: body)

namespace Lexeme

/-- A lexeme as it stands in a document. -/
def written : Lexeme → Text
  | .code text _ => text
  | .quoted quote body _ => quote.char :: (body ++ [quote.char])
  | .lineComment body _ => '-' :: '-' :: (body ++ ['\n'])
  | .blockComment body _ => '/' :: '*' :: (body ++ blockEnd)

/-- A lexeme as it stands in a document without comments. -/
def blanked : Lexeme → Text
  | .code text _ => text
  | .quoted quote body _ => quote.char :: (body ++ [quote.char])
  | .lineComment body h => blankOut (lineComment body h).written
  | .blockComment body h => blankOut (blockComment body h).written

end Lexeme

/-! ## The scan over one lexeme -/

theorem QuoteState.next_inside_of_ne {quote : Quote} {c : Char} (h : quote.char ≠ c) :
    next .standard (.inside quote) c = .inside quote := by
  simp [next, Ne.symm h]

namespace Text

theorem blankOut_cons (c : Char) (t : Text) :
    blankOut (c :: t) = (if c = '\n' then [c] else blanks c) ++ blankOut t := List.flatMap_cons

theorem blankCommentsFrom_plain (escapes : Escapes) (hash : Bool) {text : Text}
    (h : ∀ c ∈ text, IsPlain c) (fresh : Bool) (rest : Text) :
    ∃ fresh', blankCommentsFrom escapes hash (.code .code fresh) (text ++ rest) =
      text ++ blankCommentsFrom escapes hash (.code .code fresh') rest := by
  induction text generalizing fresh with
  | nil => exact ⟨fresh, rfl⟩
  | cons c more ih =>
    obtain ⟨hquote, hdash, hslash, hsign⟩ := h c List.mem_cons_self
    obtain ⟨fresh', hmore⟩ := ih (fun d hd => h d (List.mem_cons_of_mem _ hd))
      (c = '\n' ∨ fresh ∧ isBlank c)
    have hholds : QuoteState.holds .code c = false := by rw [QuoteState.holds, hquote]; rfl
    refine ⟨fresh', ?_⟩
    rw [List.cons_append, blankCommentsFrom, hholds, if_neg Bool.false_ne_true,
      if_neg (by simp [hdash, hsign]), if_neg (by simp [hslash]), hmore, List.cons_append]

/-- Plain code at the start of a text is kept, whatever follows it. -/
theorem exists_blankComments_append {text : Text} (h : ∀ c ∈ text, IsPlain c) (hash : Bool)
    (rest : Text) : ∃ rest', blankComments (text ++ rest) hash = text ++ rest' := by
  have hunder : ∀ escapes, ∃ rest',
      blankCommentsUnder escapes hash (text ++ rest) = text ++ rest' := by
    intro escapes
    obtain ⟨fresh, heq⟩ := blankCommentsFrom_plain escapes hash h true rest
    exact ⟨_, heq⟩
  simp only [blankComments]
  split
  · exact hunder .standard
  · split
    · exact hunder .backslash
    · exact hunder .standard

theorem blankCommentsFrom_inside (hash : Bool) {quote : Quote} {body : Text}
    (h : quote.char ∉ body) (fresh : Bool) (rest : Text) :
    blankCommentsFrom .standard hash (.code (.inside quote) fresh) (body ++ quote.char :: rest) =
      body ++ quote.char :: blankCommentsFrom .standard hash (.code .code false) rest := by
  induction body generalizing fresh with
  | nil => simp [blankCommentsFrom, QuoteState.holds, QuoteState.next]
  | cons c more ih =>
    rw [List.mem_cons, not_or] at h
    rw [List.cons_append, blankCommentsFrom, QuoteState.holds, if_pos rfl,
      QuoteState.next_inside_of_ne h.1, ih h.2, List.cons_append]

theorem blankCommentsFrom_line (escapes : Escapes) (hash : Bool) {body : Text} (h : '\n' ∉ body)
    (rest : Text) :
    blankCommentsFrom escapes hash .line (body ++ '\n' :: rest) =
      blankOut (body ++ ['\n']) ++ blankCommentsFrom escapes hash (.code .code true) rest := by
  induction body with
  | nil => rfl
  | cons c more ih =>
    rw [List.mem_cons, not_or] at h
    rw [List.cons_append, blankCommentsFrom, if_neg (Ne.symm h.1), ih h.2, List.cons_append,
      blankOut_cons, if_neg (Ne.symm h.1), List.append_assoc]

theorem blankCommentsFrom_block (escapes : Escapes) (hash : Bool) {body : Text}
    (h : ¬ blockEnd <:+: body) (star : Bool) (hstar : star = true → body.head? ≠ some '/')
    (fresh : Bool) (rest : Text) :
    blankCommentsFrom escapes hash (.block star fresh) (body ++ (blockEnd ++ rest)) =
      blankOut (body ++ blockEnd) ++
        blankCommentsFrom escapes hash (.code .code fresh) rest := by
  -- The scan remembers only whether it has just read a star, so the induction carries along that no
  -- slash follows one.
  induction body generalizing star with
  | nil => simp [blockEnd, blankCommentsFrom, blankOut]
  | cons c more ih =>
    have hmore : ¬ blockEnd <:+: more := fun hin => h (hin.trans (List.suffix_cons c more).isInfix)
    have hopen : ¬ (star = true ∧ c = '/') := by
      rintro ⟨hs, rfl⟩
      exact hstar hs rfl
    have hnext : decide (c = '*') = true → more.head? ≠ some '/' := by
      intro hc hhead
      obtain ⟨others, rfl⟩ := List.head?_eq_some_iff.mp hhead
      rw [of_decide_eq_true hc] at h
      exact h ⟨[], others, rfl⟩
    rw [List.cons_append, blankCommentsFrom, if_neg hopen, ih hmore _ hnext, List.cons_append,
      blankOut_cons, List.append_assoc]

end Text

namespace Lexeme

/-- After a lexeme the scan stands in code again. -/
theorem blankCommentsFrom_written (hash : Bool) (l : Lexeme) (fresh : Bool) (rest : Text) :
    ∃ fresh', blankCommentsFrom .standard hash (.code .code fresh) (l.written ++ rest) =
      l.blanked ++ blankCommentsFrom .standard hash (.code .code fresh') rest := by
  cases l with
  | code text plain => exact blankCommentsFrom_plain .standard hash plain fresh rest
  | quoted quote body closed =>
    have hholds : QuoteState.holds .code quote.char = true := by
      rw [QuoteState.holds, Quote.ofChar?_char, Option.isSome_some]
    refine ⟨false, ?_⟩
    simp only [written, blanked, List.cons_append, List.append_assoc, List.nil_append]
    rw [blankCommentsFrom, if_pos hholds, QuoteState.next, Quote.ofChar?_char,
      blankCommentsFrom_inside hash closed]
  | lineComment body oneLine =>
    refine ⟨true, ?_⟩
    simp only [written, blanked, List.cons_append, List.append_assoc, List.nil_append]
    rw [blankCommentsFrom, if_neg (by decide), if_pos (.inl ⟨rfl, rfl⟩), blankCommentsFrom,
      if_neg (by decide), blankCommentsFrom_line .standard hash oneLine, blankOut_cons,
      blankOut_cons, if_neg (by decide), List.append_assoc, List.append_assoc]
  | blockComment body unended =>
    refine ⟨fresh, ?_⟩
    simp only [written, blanked, List.cons_append, List.append_assoc]
    rw [blankCommentsFrom, if_neg (by decide), if_neg (by simp), if_pos ⟨rfl, rfl⟩,
      blankCommentsFrom, blankCommentsFrom_block .standard hash unended false (by simp),
      blankOut_cons, blankOut_cons, if_neg (by decide), if_neg (by decide), List.append_assoc,
      List.append_assoc]

theorem blankCommentsFrom_flatMap_written (hash : Bool) (ls : List Lexeme) (fresh : Bool) :
    blankCommentsFrom .standard hash (.code .code fresh) (ls.flatMap written) =
      ls.flatMap blanked := by
  induction ls generalizing fresh with
  | nil => rfl
  | cons l rest ih =>
    obtain ⟨fresh', hl⟩ := blankCommentsFrom_written hash l fresh (rest.flatMap written)
    rw [List.flatMap_cons, hl, ih, List.flatMap_cons]

/-! ## Quotes that are left open -/

theorem foldl_next_blankOut (t : Text) :
    (blankOut t).foldl (QuoteState.next .standard) .code = .code := by
  induction t with
  | nil => rfl
  | cons c rest ih =>
    rw [blankOut_cons, List.foldl_append]
    split
    · rename_i hc
      rw [hc]
      exact ih
    · rw [foldl_next_blanks, ih]

theorem foldl_next_inside {quote : Quote} {body : Text} (h : quote.char ∉ body) :
    (body ++ [quote.char]).foldl (QuoteState.next .standard) (.inside quote) = .code := by
  induction body with
  | nil => simp [QuoteState.next]
  | cons c more ih =>
    rw [List.mem_cons, not_or] at h
    rw [List.cons_append, List.foldl_cons, QuoteState.next_inside_of_ne h.1, ih h.2]

theorem foldl_next_blanked (l : Lexeme) :
    l.blanked.foldl (QuoteState.next .standard) .code = .code := by
  cases l with
  | code text plain =>
    show text.foldl _ _ = _
    induction text with
    | nil => rfl
    | cons c more ih =>
      have hnext : QuoteState.next .standard .code c = .code := by
        rw [QuoteState.next, (plain c List.mem_cons_self).1]
      rw [List.foldl_cons, hnext, ih fun d hd => plain d (List.mem_cons_of_mem _ hd)]
  | quoted quote body closed =>
    rw [blanked, List.foldl_cons, QuoteState.next, Quote.ofChar?_char]
    exact foldl_next_inside closed
  | lineComment body oneLine => exact foldl_next_blankOut _
  | blockComment body unended => exact foldl_next_blankOut _

theorem openQuote?_flatMap_blanked (ls : List Lexeme) :
    Text.openQuote? .standard (ls.flatMap blanked) = none := by
  have hcode : (ls.flatMap blanked).foldl (QuoteState.next .standard) .code = .code := by
    induction ls with
    | nil => rfl
    | cons l rest ih => rw [List.flatMap_cons, List.foldl_append, foldl_next_blanked, ih]
  rw [openQuote?, quoteState, hcode]
  rfl

/-- Blanking the comments of a document blanks its comments, character by character, and nothing
else.  No quote is left open, so the convention for backslashes does not come into it. -/
theorem blankComments_flatMap_written (ls : List Lexeme) (hash : Bool) :
    blankComments (ls.flatMap written) hash = ls.flatMap blanked := by
  have hstandard : blankCommentsUnder .standard hash (ls.flatMap written) = ls.flatMap blanked :=
    blankCommentsFrom_flatMap_written hash ls true
  simp only [blankComments, hstandard, openQuote?_flatMap_blanked, Option.isNone_none, if_true]

/-- A run that ends in a backslash and holds dashes, a block that holds a quote and seems to close at
once, and a line that holds a quote. -/
example : blankComments "'--\\'/*/it's*/--\"\n;".toList true =
    "'--\\'            \n;".toList := by
  decide

end Lexeme
end SqlAudit
