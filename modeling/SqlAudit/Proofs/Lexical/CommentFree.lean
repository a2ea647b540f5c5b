import SqlAudit.Proofs.Lexical.Appending

/-!
Texts without comments.  Blanking leaves a text as it is exactly when no comment opens in it outside
quoted runs, so blanking twice is blanking once as soon as the first pass leaves no comment behind.

Under the reading of the quotes that it settles on, a pass leaves no comment behind, as long as no
number sign comes first on a line that starts inside a block comment.  The second pass settles on a
reading anew, however, and it need not be the one of the first pass.
-/

namespace SqlAudit

theorem CommentState.next_code_of_not_hides {hash : Bool} {q : QuoteState} {fresh : Bool} {c : Char}
    {peek : Option Char} (h : ¬ (code q fresh).hides hash c peek = true) (escapes : Escapes) :
    (code q fresh).next escapes hash c peek =
      .code (q.next escapes c) (!q.holds c && decide (c = '\n' ∨ fresh ∧ Text.isBlank c)) := by
  rw [next]
  by_cases hholds : q.holds c = true
  · rw [if_pos hholds, hholds]
    rfl
  · obtain ⟨rfl, hnext⟩ :=
      QuoteState.next_code_of_holds_eq_false escapes (Bool.eq_false_iff.mpr hholds)
    simp only [hides, hholds, Bool.not_false, Bool.true_and, Bool.or_eq_true, decide_eq_true_eq,
      not_or] at h
    rw [if_neg hholds, if_neg h.1, if_neg h.2, hnext, Bool.eq_false_iff.mpr hholds]
    rfl

namespace Text

/-- Whether a text ends where only blanks were read since the line began. -/
def isFresh (t : Text) : Bool := t.foldl (fun fresh c => c = '\n' ∨ fresh ∧ isBlank c) true

/-- A comment opens at the start of `rest`, behind `before`. -/
def CommentOpens (escapes : Escapes) (hash : Bool) (before rest : Text) : Prop :=
  before.quoteState escapes = .code ∧
    (['-', '-'] <+: rest ∨ ['/', '*'] <+: rest ∨
      ['#'] <+: rest ∧ (before.isFresh = true ∨ hash = true))

/-- No comment opens outside quoted runs. -/
def CommentFree (escapes : Escapes) (hash : Bool) (t : Text) : Prop :=
  ∀ before rest, t = before ++ rest → ¬ CommentOpens escapes hash before rest

/-! ## What blanking leaves alone -/

theorem isFresh_append (t : Text) (c : Char) :
    (t ++ [c]).isFresh = decide (c = '\n' ∨ t.isFresh = true ∧ isBlank c = true) := by
  rw [isFresh, List.foldl_append]
  rfl

theorem quoteState_append (escapes : Escapes) (t : Text) (c : Char) :
    (t ++ [c]).quoteState escapes = (t.quoteState escapes).next escapes c := by
  rw [quoteState, List.foldl_append]
  rfl

theorem pair_prefix_cons_iff (a b c : Char) (rest : Text) :
    [a, b] <+: c :: rest ↔ c = a ∧ rest.head? = some b := by
  cases rest with
  | nil => simp
  | cons d rest => simp [eq_comm]

theorem commentOpens_cons_iff {escapes : Escapes} {hash : Bool} {before : Text}
    (hbefore : before.quoteState escapes = .code) (c : Char) (rest : Text) :
    CommentOpens escapes hash before (c :: rest) ↔
      CommentState.OpensLine hash before.isFresh c rest.head? ∨
        CommentState.OpensBlock c rest.head? := by
  rw [CommentOpens, CommentState.OpensLine, CommentState.OpensBlock, pair_prefix_cons_iff,
    pair_prefix_cons_iff]
  have hsign : ['#'] <+: c :: rest ↔ c = '#' := by simp [eq_comm]
  rw [hsign]
  constructor
  · rintro ⟨-, h | h | h⟩
    · exact .inl (.inl h)
    · exact .inr h
    · exact .inl (.inr h)
  · rintro ((h | h) | h)
    · exact ⟨hbefore, .inl h⟩
    · exact ⟨hbefore, .inr (.inr h)⟩
    · exact ⟨hbefore, .inr (.inl h)⟩

/-- A quoted run ends with a quote, which is no blank. -/
theorem isFresh_eq_false_of_holds {q : QuoteState} {c : Char} (hholds : q.holds c = true)
    {escapes : Escapes} (hnext : q.next escapes c = .code) (before : Text) :
    (before ++ [c]).isFresh = false := by
  have hquote : ∃ quote : Quote, c = quote.char := by
    cases q with
    | code =>
      rw [QuoteState.holds] at hholds
      obtain ⟨quote, hquote⟩ := Option.isSome_iff_exists.mp hholds
      rw [QuoteState.next, hquote] at hnext
      cases hnext
    | inside quote =>
      refine ⟨quote, ?_⟩
      rw [QuoteState.next] at hnext
      split at hnext
      · cases hnext
      · split at hnext
        · assumption
        · cases hnext
    | escaped quote => cases hnext
  obtain ⟨quote, rfl⟩ := hquote
  have hblank : quote.char ≠ '\n' ∧ isBlank quote.char = false := by cases quote <;> decide
  rw [isFresh_append]
  simp [hblank]

/-- The scan hides a character in code exactly where a comment opens. -/
theorem hides_code_iff {escapes : Escapes} {hash : Bool} {q : QuoteState} {fresh : Bool}
    {before : Text} (hq : before.quoteState escapes = q)
    (hfresh : q = .code → fresh = before.isFresh) (c : Char) (rest : Text) :
    (CommentState.code q fresh).hides hash c rest.head? = true ↔
      CommentOpens escapes hash before (c :: rest) := by
  by_cases hcode : q = .code
  · subst hcode
    rw [commentOpens_cons_iff hq, ← hfresh rfl, CommentState.hides, Bool.and_eq_true,
      Bool.or_eq_true, decide_eq_true_eq, decide_eq_true_eq, Bool.not_eq_true']
    refine ⟨fun h => h.2, fun h => ⟨?_, h⟩⟩
    rcases h with (⟨rfl, -⟩ | ⟨rfl, -⟩) | ⟨rfl, -⟩ <;> rfl
  · have hholds : q.holds c = true := by
      cases q with
      | code => exact absurd rfl hcode
      | inside quote => rfl
      | escaped quote => rfl
    rw [CommentState.hides, hholds]
    refine ⟨fun h => absurd h (by simp), fun h => absurd (hq ▸ h.1) hcode⟩

/-- No comment opens in a text that stands behind another one. -/
def CommentFreeBehind (escapes : Escapes) (hash : Bool) (before t : Text) : Prop :=
  ∀ front rest, t = front ++ rest → ¬ CommentOpens escapes hash (before ++ front) rest

theorem commentFreeBehind_cons_iff (escapes : Escapes) (hash : Bool) (before : Text) (c : Char)
    (rest : Text) :
    CommentFreeBehind escapes hash before (c :: rest) ↔
      ¬ CommentOpens escapes hash before (c :: rest) ∧
        CommentFreeBehind escapes hash (before ++ [c]) rest := by
  constructor
  · intro h
    refine ⟨?_, fun front more hrest => ?_⟩
    · simpa using h [] (c :: rest) rfl
    · rw [List.append_assoc]
      exact h (c :: front) more (by rw [hrest]; rfl)
  · rintro ⟨hhere, hlater⟩ front more h
    cases front with
    | nil =>
      rw [List.append_nil, ← show c :: rest = more from h]
      exact hhere
    | cons d front =>
      obtain ⟨rfl, hrest⟩ := List.cons.inj h
      rw [← List.singleton_append, ← List.append_assoc]
      exact hlater front more hrest

theorem blankCommentsFrom_eq_self_iff {escapes : Escapes} (hash : Bool) {q : QuoteState}
    {fresh : Bool} (before : Text) (hq : before.quoteState escapes = q)
    (hfresh : q = .code → fresh = before.isFresh) (t : Text) :
    blankCommentsFrom escapes hash (.code q fresh) t = t ↔
      CommentFreeBehind escapes hash before t := by
  induction t generalizing q fresh before with
  | nil =>
    rw [blankCommentsFrom]
    refine ⟨fun _ front rest h => ?_, fun _ => rfl⟩
    obtain ⟨rfl, rfl⟩ := List.append_eq_nil_iff.mp h.symm
    simp [CommentOpens]
  | cons c rest ih =>
    rw [commentFreeBehind_cons_iff, ← hides_code_iff hq hfresh, blankCommentsFrom_cons]
    by_cases hhides : (CommentState.code q fresh).hides hash c rest.head? = true
    · -- The sign of a comment is no space, which is what it becomes.
      have hspace : c ≠ ' ' := by
        rintro rfl
        simp [CommentState.hides, CommentState.OpensLine, CommentState.OpensBlock] at hhides
      rw [if_pos hhides]
      exact ⟨fun h => absurd (eq_space_of_blanks_append h) hspace, fun h => absurd hhides h.1⟩
    · have hnext := CommentState.next_code_of_not_hides hhides escapes
      have hfresh' : q.next escapes c = .code →
          (!q.holds c && decide (c = '\n' ∨ fresh ∧ isBlank c)) = (before ++ [c]).isFresh := by
        intro hcode
        by_cases hholds : q.holds c = true
        · rw [hholds, isFresh_eq_false_of_holds hholds hcode]
          rfl
        · obtain ⟨rfl, -⟩ :=
            QuoteState.next_code_of_holds_eq_false escapes (Bool.eq_false_iff.mpr hholds)
          rw [Bool.eq_false_iff.mpr hholds, isFresh_append, hfresh rfl]
          rfl
      have hrest := ih (before ++ [c]) (by rw [quoteState_append, hq]) hfresh'
      rw [if_neg hhides, hnext, ← hrest]
      simp [hhides]

theorem blankCommentsUnder_eq_self_iff (escapes : Escapes) (hash : Bool) (t : Text) :
    blankCommentsUnder escapes hash t = t ↔ CommentFree escapes hash t :=
  blankCommentsFrom_eq_self_iff hash [] rfl (fun _ => rfl) t

/-- Blanking leaves a text alone exactly when the reading that it settles on finds no comment. -/
theorem blankComments_eq_self_iff (hash : Bool) (t : Text) :
    t.blankComments hash = t ↔ CommentFree (t.commentEscapes hash) hash t := by
  rw [blankComments_eq_under, blankCommentsUnder_eq_self_iff]

end Text

/-! ## What a pass leaves behind -/

namespace CommentState

/-- Whether a number sign read next counts as the first character of its line.  Behind a line comment
a new line starts. -/
def fresh : CommentState → Bool
  | .code _ fresh => fresh
  | .line => true
  | .opening fresh => fresh
  | .block _ fresh => fresh

/-- Whether only blanks and comments were read since the line began, after one more character.  Unlike
the flag of the scan, this takes newlines in block comments into account. -/
def firstAfter (hash : Bool) (s : CommentState) (first : Bool) (c : Char) (peek : Option Char) :
    Bool :=
  if s.hides hash c peek then first
  else !s.quote.holds c && decide (c = '\n' ∨ first ∧ Text.isBlank c)

end CommentState

namespace Text

/-- Behind blanks and comments alone, a number sign comes that the scan does not take for the first
character of its line. -/
def SignBehind (escapes : Escapes) (hash : Bool) (s : CommentState) (t : Text) : Prop :=
  ∃ gap rest, t = gap ++ '#' :: rest ∧
    commentStateFrom escapes hash s gap = .code .code false ∧
    ∀ c ∈ blankCommentsFrom escapes hash s gap, isBlank c = true

/-- A line starts inside a block comment that opened behind other text, and its first character,
blanks and comments apart, is a number sign. -/
def SignBehindBlock (escapes : Escapes) (hash : Bool) (s : CommentState) (t : Text) : Prop :=
  ∃ front star back, t = front ++ '\n' :: back ∧
    commentStateFrom escapes hash s front = .block star false ∧
    SignBehind escapes hash (.block false false) back

/-- The flag of the scan misleads it about no number sign. -/
structure Unmisled (escapes : Escapes) (hash : Bool) (s : CommentState) (first : Bool) (t : Text) :
    Prop where
  block : ¬ SignBehindBlock escapes hash s t
  sign : first = true → s.fresh = false → ¬ SignBehind escapes hash s t

theorem head?_append_cons_iff {d e : Char} (h : d ≠ e) (gap rest : Text) :
    (gap ++ d :: rest).head? = some e ↔ gap.head? = some e := by
  cases gap with
  | nil => simp [h]
  | cons c gap => rfl

/-- A stretch before a character that goes into no comment sign is scanned as it would be alone. -/
theorem scan_cons_of_ne {d : Char} (hdash : d ≠ '-') (hstar : d ≠ '*') (escapes : Escapes)
    (hash : Bool) (s : CommentState) (c : Char) (gap rest : Text) :
    commentStateFrom escapes hash s (c :: gap) =
        commentStateFrom escapes hash (s.next escapes hash c (gap ++ d :: rest).head?) gap ∧
      blankCommentsFrom escapes hash s (c :: gap) =
        (if s.hides hash c (gap ++ d :: rest).head? then blanks c else [c]) ++
          blankCommentsFrom escapes hash (s.next escapes hash c (gap ++ d :: rest).head?) gap := by
  obtain ⟨hhides, hnext⟩ := CommentState.step_eq_of_peek (head?_append_cons_iff hdash gap rest)
    (head?_append_cons_iff hstar gap rest) escapes hash s c
  rw [commentStateFrom, blankCommentsFrom_cons, hhides, hnext]
  exact ⟨rfl, rfl⟩

end Text

namespace CommentState

variable {hash : Bool} {s : CommentState} {first : Bool} {c : Char} {peek : Option Char}

theorem isBlank_of_firstAfter (h : s.firstAfter hash first c peek = true) :
    ∀ d ∈ (if s.hides hash c peek then Text.blanks c else [c]), Text.isBlank d = true := by
  intro d hd
  rw [firstAfter] at h
  by_cases hhides : s.hides hash c peek = true
  · rw [if_pos hhides] at hd
    rw [List.eq_of_mem_replicate hd]
    decide
  · rw [if_neg hhides] at hd h
    rw [List.mem_singleton.mp hd]
    rw [Bool.and_eq_true, decide_eq_true_eq] at h
    rcases h.2 with rfl | h
    · decide
    · exact h.2

theorem fresh_next_of_hides (hs : s.fresh = true) (h : s.hides hash c peek = true)
    (escapes : Escapes) : (s.next escapes hash c peek).fresh = true := by
  cases s with
  | code q flag =>
    rw [hides, Bool.and_eq_true, Bool.not_eq_true', Bool.or_eq_true, decide_eq_true_eq,
      decide_eq_true_eq] at h
    obtain ⟨hholds, hopens⟩ := h
    rw [next, hholds, if_neg Bool.false_ne_true]
    by_cases hline : OpensLine hash flag c peek
    · rw [if_pos hline]
      rfl
    · rw [if_neg hline, if_pos (hopens.resolve_left hline)]
      exact hs
  | line =>
    rw [next]
    split <;> rfl
  | opening flag => exact hs
  | block star flag =>
    rw [next]
    split <;> exact hs

/-- Where the flag of the scan is lost, a character was read that is neither blank nor hidden. -/
theorem firstAfter_eq_false (hs : s.fresh = true) {escapes : Escapes}
    (hnext : (s.next escapes hash c peek).fresh = false) :
    s.firstAfter hash first c peek = false := by
  have hkept : ¬ s.hides hash c peek = true := by
    intro hhides
    rw [fresh_next_of_hides hs hhides] at hnext
    cases hnext
  cases s with
  | code q flag =>
    have hflag : flag = true := hs
    subst hflag
    rw [next_code_of_not_hides hkept] at hnext
    have hlost : (!q.holds c && decide (c = '\n' ∨ true = true ∧ Text.isBlank c)) = false := hnext
    rw [firstAfter, if_neg hkept]
    show (!q.holds c && decide (c = '\n' ∨ first = true ∧ Text.isBlank c)) = false
    rw [Bool.and_eq_false_iff, decide_eq_false_iff_not] at hlost ⊢
    exact hlost.imp_right fun h hblank => h (hblank.imp_right fun hblank => ⟨rfl, hblank.2⟩)
  | line =>
    exfalso
    rw [next] at hnext
    split at hnext <;> cases hnext
  | opening flag => exact absurd rfl hkept
  | block star flag =>
    exfalso
    rw [show flag = true from hs, next] at hnext
    split at hnext <;> cases hnext

/-- Only a newline in a block comment starts a line that the scan does not notice. -/
theorem next_of_firstAfter (hs : s.fresh = false) {escapes : Escapes}
    (hfirst : s.firstAfter hash false c peek = true)
    (hnext : (s.next escapes hash c peek).fresh = false) :
    c = '\n' ∧ (∃ star, s = .block star false) ∧
      s.next escapes hash c peek = .block false false := by
  have hkept : ¬ s.hides hash c peek = true := by
    intro hhides
    rw [firstAfter, if_pos hhides] at hfirst
    cases hfirst
  have hc : c = '\n' := by
    rw [firstAfter, if_neg hkept, Bool.and_eq_true, decide_eq_true_eq] at hfirst
    rcases hfirst.2 with hc | hblank
    · exact hc
    · cases hblank.1
  cases s with
  | code q flag =>
    exfalso
    rw [next_code_of_not_hides hkept] at hnext
    have hlost : (!q.holds c && decide (c = '\n' ∨ flag = true ∧ Text.isBlank c)) = false := hnext
    rw [firstAfter, if_neg hkept, Bool.and_eq_true] at hfirst
    rw [show (!q.holds c) = true from hfirst.1, decide_eq_true (.inl hc)] at hlost
    cases hlost
  | line => cases hs
  | opening flag => exact absurd rfl hkept
  | block star flag =>
    have hflag : flag = false := hs
    subst hflag hc
    exact ⟨rfl, ⟨star, rfl⟩, by simp [next]⟩

end CommentState

namespace Text

theorem Unmisled.next {escapes : Escapes} {hash : Bool} {s : CommentState} {first : Bool} {c : Char}
    {rest : Text} (h : Unmisled escapes hash s first (c :: rest)) :
    Unmisled escapes hash (s.next escapes hash c rest.head?)
      (s.firstAfter hash first c rest.head?) rest := by
  constructor
  · rintro ⟨front, star, back, rfl, hstate, hsign⟩
    refine h.block ⟨c :: front, star, back, rfl, ?_, hsign⟩
    rw [(scan_cons_of_ne (d := '\n') (by decide) (by decide) escapes hash s c front back).1, hstate]
  · rintro hfirst hfresh ⟨gap, more, rfl, hstate, hblank⟩
    obtain ⟨hscan, hblanked⟩ :=
      scan_cons_of_ne (d := '#') (by decide) (by decide) escapes hash s c gap more
    by_cases hs : s.fresh = true
    · rw [CommentState.firstAfter_eq_false hs hfresh] at hfirst
      cases hfirst
    rw [Bool.not_eq_true] at hs
    cases first with
    | true =>
      refine h.sign rfl hs ⟨c :: gap, more, rfl, by rw [hscan, hstate], ?_⟩
      rw [hblanked]
      intro d hd
      rcases List.mem_append.mp hd with hd | hd
      · exact CommentState.isBlank_of_firstAfter hfirst d hd
      · exact hblank d hd
    | false =>
      obtain ⟨rfl, ⟨star, rfl⟩, hnext⟩ := CommentState.next_of_firstAfter hs hfirst hfresh
      rw [hnext] at hstate hblank
      exact h.block ⟨[], star, _, rfl, rfl, gap, more, rfl, hstate, hblank⟩

theorem blankCommentsFrom_blanks_append (escapes : Escapes) (hash fresh : Bool) (c : Char)
    (t : Text) :
    blankCommentsFrom escapes hash (.code .code fresh) (blanks c ++ t) =
      blanks c ++ blankCommentsFrom escapes hash (.code .code fresh) t := by
  rw [blanks]
  generalize c.utf8Size = n
  induction n with
  | zero => rfl
  | succ n ih =>
    have hkept : ∀ peek, ¬ (CommentState.code .code fresh).hides hash ' ' peek = true := by
      simp [CommentState.hides, CommentState.OpensLine, CommentState.OpensBlock]
    have hfresh : (!QuoteState.holds .code ' ' && decide (' ' = '\n' ∨ fresh ∧ isBlank ' ')) =
        fresh := by
      cases fresh <;> decide
    rw [List.replicate_succ, List.cons_append, blankCommentsFrom_cons, if_neg (hkept _),
      CommentState.next_code_of_not_hides (hkept _), hfresh]
    show ' ' :: blankCommentsFrom escapes hash (.code .code fresh) _ = _
    rw [ih, List.cons_append]

theorem head?_of_blankCommentsFrom {escapes : Escapes} {hash : Bool} {s : CommentState} {t : Text}
    {d : Char} (h : (blankCommentsFrom escapes hash s t).head? = some d) (hd : d ≠ ' ') :
    t.head? = some d := by
  cases t with
  | nil =>
    rw [blankCommentsFrom] at h
    cases h
  | cons c rest =>
    rw [blankCommentsFrom_cons] at h
    split at h
    · obtain ⟨more, hmore⟩ := List.head?_eq_some_iff.mp h
      exact absurd (eq_space_of_blanks_append hmore) hd
    · exact h

/-- What the first scan keeps opens no comment for the second one.  The character after it may have
been blanked, but none has become the second one of a comment sign. -/
theorem not_hides_of_not_hides {escapes : Escapes} {hash : Bool} {s : CommentState} {first : Bool}
    {c : Char} {rest : Text} (h : hash = false → Unmisled escapes hash s first (c :: rest))
    (hkept : ¬ s.hides hash c rest.head? = true) :
    ¬ (CommentState.code s.quote first).hides hash c
      (blankCommentsFrom escapes hash (s.next escapes hash c rest.head?) rest).head? = true := by
  intro hhides
  rw [CommentState.hides, Bool.and_eq_true, Bool.not_eq_true', Bool.or_eq_true, decide_eq_true_eq,
    decide_eq_true_eq] at hhides
  obtain ⟨hholds, hopens⟩ := hhides
  cases s with
  | code q fresh =>
    have hopen : ¬ (CommentState.OpensLine hash fresh c rest.head? ∨
        CommentState.OpensBlock c rest.head?) := by
      intro hopen
      refine hkept ?_
      rw [CommentState.hides, Bool.and_eq_true, Bool.not_eq_true', Bool.or_eq_true,
        decide_eq_true_eq, decide_eq_true_eq]
      exact ⟨hholds, hopen⟩
    rcases hopens with (⟨hdash, hpeek⟩ | ⟨hsign, hfirst⟩) | ⟨hslash, hpeek⟩
    · exact hopen (.inl (.inl ⟨hdash, head?_of_blankCommentsFrom hpeek (by decide)⟩))
    · have hflags : ¬ (fresh = true ∨ hash = true) := fun hflags =>
        hopen (.inl (.inr ⟨hsign, hflags⟩))
      rw [not_or, Bool.not_eq_true, Bool.not_eq_true] at hflags
      obtain ⟨rfl, rfl⟩ := hflags
      obtain ⟨rfl, -⟩ := QuoteState.next_code_of_holds_eq_false escapes hholds
      have hfirst : first = true := hfirst.resolve_right (by simp)
      subst hsign
      exact (h rfl).sign hfirst rfl ⟨[], rest, rfl, rfl, by simp [blankCommentsFrom]⟩
    · exact hopen (.inr ⟨hslash, head?_of_blankCommentsFrom hpeek (by decide)⟩)
  | line =>
    have hc : c = '\n' := by simpa [CommentState.hides] using hkept
    simp [hc, CommentState.OpensLine, CommentState.OpensBlock] at hopens
  | opening fresh => exact hkept rfl
  | block star fresh =>
    have hc : c = '\n' := by simpa [CommentState.hides] using hkept
    simp [hc, CommentState.OpensLine, CommentState.OpensBlock] at hopens

/-- A second scan under the same reading finds nothing to blank. -/
theorem blankCommentsFrom_blankCommentsFrom {escapes : Escapes} {hash : Bool} {s : CommentState}
    {first : Bool} {t : Text} (h : hash = false → Unmisled escapes hash s first t) :
    blankCommentsFrom escapes hash (.code s.quote first) (blankCommentsFrom escapes hash s t) =
      blankCommentsFrom escapes hash s t := by
  induction t generalizing s first with
  | nil => simp [blankCommentsFrom]
  | cons c rest ih =>
    have hrest := ih fun hhash => (h hhash).next
    rw [blankCommentsFrom_cons]
    by_cases hhides : s.hides hash c rest.head? = true
    · obtain ⟨hbefore, hafter⟩ := CommentState.quote_of_hides escapes hhides
      rw [hafter, CommentState.firstAfter, if_pos hhides] at hrest
      rw [if_pos hhides, hbefore, blankCommentsFrom_blanks_append, hrest]
    · have hkept := not_hides_of_not_hides h hhides
      rw [CommentState.quote_of_not_hides hhides, CommentState.firstAfter, if_neg hhides] at hrest
      rw [if_neg hhides, List.singleton_append, blankCommentsFrom_cons, if_neg hkept,
        CommentState.next_code_of_not_hides hkept, hrest]
      rfl

/-- Under the reading that a pass settles on, it leaves no comment behind. -/
theorem commentFree_blankComments {t : Text} {hash : Bool}
    (h : hash = false → ¬ SignBehindBlock (t.commentEscapes hash) hash (.code .code true) t) :
    CommentFree (t.commentEscapes hash) hash (t.blankComments hash) := by
  rw [← blankCommentsUnder_eq_self_iff, blankComments_eq_under]
  have hunmisled : hash = false →
      Unmisled (t.commentEscapes hash) hash (.code .code true) true t :=
    fun hhash => ⟨h hhash, fun _ hfresh => by cases hfresh⟩
  exact blankCommentsFrom_blankCommentsFrom hunmisled

/-! ## A second pass -/

/-- Where the standard reading leaves no quote open, a pass settles on it. -/
theorem commentEscapes_of_openQuote? {t : Text} {hash : Bool}
    (h : (blankCommentsUnder .standard hash t).openQuote? .standard = none) :
    t.commentEscapes hash = .standard := by
  rw [commentEscapes, h]
  rfl

theorem commentFree_congr {t : Text} (ht : '\\' ∉ t) (hash : Bool) (escapes escapes' : Escapes) :
    CommentFree escapes hash t ↔ CommentFree escapes' hash t := by
  rw [← blankCommentsUnder_eq_self_iff, ← blankCommentsUnder_eq_self_iff, blankCommentsUnder,
    blankCommentsUnder, blankCommentsFrom_of_no_backslash ht escapes,
    blankCommentsFrom_of_no_backslash ht escapes']

/-- A pass leaves no comment behind under the reading that it settles on, and a second pass changes
something exactly when it settles on a reading that finds one.  It settles on the same reading if the
standard one leaves no quote open, and without backslashes there is only one. -/
theorem blankComments_blankComments {t : Text} {hash : Bool}
    (hsign : hash = false → ¬ SignBehindBlock (t.commentEscapes hash) hash (.code .code true) t) :
    CommentFree (t.commentEscapes hash) hash (t.blankComments hash) ∧
      ((t.blankComments hash).blankComments hash = t.blankComments hash ↔
        CommentFree ((t.blankComments hash).commentEscapes hash) hash (t.blankComments hash)) ∧
      ((t.blankComments hash).commentEscapes hash = t.commentEscapes hash ∨
          (blankCommentsUnder .standard hash t).openQuote? .standard = none ∨ '\\' ∉ t →
        (t.blankComments hash).blankComments hash = t.blankComments hash) := by
  have hfree := commentFree_blankComments hsign
  have hiff := blankComments_eq_self_iff hash (t.blankComments hash)
  refine ⟨hfree, hiff, ?_⟩
  rintro (hsame | hclosed | hback)
  · rw [hiff, hsame]
    exact hfree
  · have hfirst := commentEscapes_of_openQuote? hclosed
    have hunder := blankComments_eq_under t hash
    rw [hfirst] at hfree hunder
    have hsecond : (t.blankComments hash).commentEscapes hash = .standard := by
      apply commentEscapes_of_openQuote?
      rw [(blankCommentsUnder_eq_self_iff _ _ _).mpr hfree, hunder]
      exact hclosed
    rw [hiff, hsecond]
    exact hfree
  · have hback := no_backslash_of_blanking (blanking_blankComments t hash) hback
    rw [hiff, commentFree_congr hback hash _ (t.commentEscapes hash)]
    exact hfree

/-- A block comment that spans lines, behind a literal that closes only with escapes. -/
theorem blankComments_blankComments_escaped :
    ¬ SignBehindBlock (commentEscapes "'it\\'s'/*\n--*/".toList false) false (.code .code true)
        "'it\\'s'/*\n--*/".toList ∧
      commentEscapes "'it\\'s'/*\n--*/".toList false = .backslash ∧
      blankComments (blankComments "'it\\'s'/*\n--*/".toList false) false =
        blankComments "'it\\'s'/*\n--*/".toList false := by
  have hsign : ¬ SignBehindBlock (commentEscapes "'it\\'s'/*\n--*/".toList false) false
      (.code .code true) "'it\\'s'/*\n--*/".toList := by
    rintro ⟨front, star, back, htext, -, gap, rest, rfl, -⟩
    have hmem : '#' ∈ "'it\\'s'/*\n--*/".toList := by
      rw [htext]
      simp
    exact absurd hmem (by decide)
  exact ⟨hsign, by decide, (blankComments_blankComments fun _ => hsign).2.2 (.inl (by decide))⟩

/-- Between the passes the reading changes: the quote in the comment is what left a quote open for the
standard one. -/
theorem blankComments_blankComments_ne :
    blankComments (blankComments "'\\''/*'*/'--\\''".toList false) false ≠
      blankComments "'\\''/*'*/'--\\''".toList false := by
  decide

end Text
end SqlAudit
