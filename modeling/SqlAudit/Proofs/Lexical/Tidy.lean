import SqlAudit.Lexical.Enclosed
import SqlAudit.Lexical.Mask
import SqlAudit.Lexical.Segment
import SqlAudit.Proofs.Lexical.Locality

/-!
Texts in which every quote and every parenthesis is closed and no comment starts.  All scanners read
such a text alike: comments leave it as it is, and lists and enclosed texts put together from such
texts are taken apart again.
-/

namespace SqlAudit
namespace Text

/-! ## Literals -/

def doubled (s : Text) : Text := s.flatMap fun c => if c = '\x27' then [c, c] else [c]

def quoted (s : Text) : Text := '\x27' :: (doubled s ++ ['\x27'])

theorem doubled_cons (c : Char) (s : Text) :
    doubled (c :: s) = if c = '\x27' then c :: c :: doubled s else c :: doubled s := by
  rw [doubled, List.flatMap_cons]
  split <;> rfl

theorem doubled_eq_self {s : Text} (h : '\x27' ∉ s) : doubled s = s := by
  induction s with
  | nil => rfl
  | cons c s ih =>
    rw [List.mem_cons, not_or] at h
    rw [doubled_cons, if_neg (Ne.symm h.1), ih h.2]

theorem marksFrom_doubled (s t : Text) :
    marksFrom .standard (.inside .single) (doubled s ++ '\x27' :: t) =
      (doubled s ++ ['\x27']).map (⟨·, true⟩) ++ marksFrom .standard .code t := by
  induction s with
  | nil => rfl
  | cons c s ih =>
    rw [doubled_cons]
    by_cases hc : c = '\x27'
    · -- The first of two quotes closes the literal, and the second one opens it again.
      rw [hc, if_pos rfl, List.cons_append, List.cons_append, marksFrom, marksFrom]
      exact congrArg (fun ms => ⟨'\x27', true⟩ :: ⟨'\x27', true⟩ :: ms) ih
    · have hnext : QuoteState.next .standard (.inside .single) c = .inside .single := by
        simp [QuoteState.next, Quote.char, hc]
      rw [if_neg hc, List.cons_append, marksFrom, hnext, ih]
      rfl

theorem marks_quoted (s t : Text) :
    marks .standard (quoted s ++ t) = (quoted s).map (⟨·, true⟩) ++ marks .standard t := by
  have hrest := marksFrom_doubled s t
  rw [quoted, List.cons_append, List.append_assoc, List.singleton_append, marks, marksFrom]
  exact congrArg (⟨'\x27', true⟩ :: ·) hrest

/-! ## Tidy texts -/

/-- A character that has no part in quotes, parentheses and comments. -/
def isPlain (c : Char) : Bool :=
  !(Quote.ofChar? c).isSome && !("()-#/".toList.contains c)

/-- Quotes and parentheses are closed, and no comment starts.  The flag says whether commas may
stand outside parentheses. -/
inductive Tidy : (commas : Bool) → Text → Prop where
  | nil {commas : Bool} : Tidy commas []
  | plain {commas : Bool} {c : Char} {t : Text} : isPlain c = true →
      (c = ',' → commas = true) → Tidy commas t → Tidy commas (c :: t)
  | literal {commas : Bool} (s : Text) {t : Text} : Tidy commas t → Tidy commas (quoted s ++ t)
  | paren {commas : Bool} {inner t : Text} : Tidy true inner → Tidy commas t →
      Tidy commas ('(' :: (inner ++ ')' :: t))

namespace Tidy

variable {commas : Bool} {t u : Text}

theorem append (ht : Tidy commas t) (hu : Tidy commas u) : Tidy commas (t ++ u) := by
  induction ht with
  | nil => exact hu
  | plain hc hcomma _ ih => exact .plain hc hcomma (ih hu)
  | literal s _ ih =>
    rw [List.append_assoc]
    exact .literal s (ih hu)
  | paren hinner _ _ ih =>
    rw [List.cons_append, List.append_assoc, List.cons_append]
    exact .paren hinner (ih hu)

theorem of_forall (h : ∀ c ∈ t, isPlain c = true ∧ (c = ',' → commas = true)) : Tidy commas t := by
  induction t with
  | nil => exact .nil
  | cons c t ih =>
    obtain ⟨hc, hcomma⟩ := h c List.mem_cons_self
    exact .plain hc hcomma (ih fun d hd => h d (List.mem_cons_of_mem _ hd))

theorem with_commas (h : Tidy commas t) : Tidy true t := by
  induction h with
  | nil => exact .nil
  | plain hc _ _ ih => exact .plain hc (fun _ => rfl) ih
  | literal s _ ih => exact .literal s ih
  | paren _ _ hinner ih => exact .paren hinner ih

end Tidy

/-! ## Marks -/

theorem marks_cons_of_isPlain {c : Char} (hc : isPlain c = true) (t : Text) :
    marks .standard (c :: t) = ⟨c, false⟩ :: marks .standard t := by
  rw [isPlain, Bool.and_eq_true, Bool.not_eq_true'] at hc
  have hholds : QuoteState.holds .code c = false := hc.1
  have hnext := (QuoteState.next_code_of_holds_eq_false .standard hholds).2
  rw [marks, marksFrom, hholds, hnext]
  rfl

theorem marks_open (t : Text) : marks .standard ('(' :: t) = ⟨'(', false⟩ :: marks .standard t :=
  rfl

theorem marks_close (t : Text) : marks .standard (')' :: t) = ⟨')', false⟩ :: marks .standard t :=
  rfl

namespace Tidy

variable {commas : Bool} {t : Text}

/-- After a tidy text the marks go on as from the start. -/
theorem marks_append (h : Tidy commas t) (u : Text) :
    marks .standard (t ++ u) = marks .standard t ++ marks .standard u := by
  induction h generalizing u with
  | nil => rfl
  | plain hc _ _ ih =>
    rw [List.cons_append, marks_cons_of_isPlain hc, marks_cons_of_isPlain hc, ih, List.cons_append]
  | literal s _ ih =>
    rw [List.append_assoc, marks_quoted, marks_quoted, ih, List.append_assoc]
  | paren _ _ ihinner ih =>
    rw [List.cons_append, List.append_assoc, List.cons_append, marks_open, marks_open, ihinner,
      ihinner, marks_close, marks_close, ih, List.cons_append, List.append_assoc, List.cons_append]

/-- The marks after a tidy text show that it leaves no quote open. -/
theorem quoteState_eq (h : Tidy commas t) : t.quoteState .standard = .code := by
  have hmarks := h.marks_append ['x']
  rw [marks, marksFrom_append, marks, List.append_cancel_left_eq] at hmarks
  have hholds : (t.quoteState .standard).holds 'x' = false := by
    simpa [marks, marksFrom, quoteState, QuoteState.holds, Quote.ofChar?] using hmarks
  exact (QuoteState.next_code_of_holds_eq_false .standard hholds).1

theorem escapes_eq (h : Tidy commas t) : t.escapes = .standard := by
  have hopen : t.openQuote? .standard = none := by
    rw [openQuote?, h.quoteState_eq]
    rfl
  rw [escapes, hopen]
  rfl

/-! ## Comments -/

theorem isCode_eq_false (h : Tidy commas t) {c : Char} (hc : isPlain c = false) (hopen : c ≠ '(')
    (hclose : c ≠ ')') : ∀ m ∈ marks .standard t, m.isCode c = false := by
  induction h with
  | nil =>
    intro m hm
    cases hm
  | @plain _ d t hd _ _ ih =>
    rw [marks_cons_of_isPlain hd]
    intro m hm
    rcases List.mem_cons.mp hm with rfl | hm
    · have hne : d ≠ c := by
        rintro rfl
        rw [hc] at hd
        cases hd
      simpa [Mark.isCode] using hne
    · exact ih m hm
  | literal s _ ih =>
    rw [marks_quoted]
    intro m hm
    rcases List.mem_append.mp hm with hm | hm
    · obtain ⟨d, -, rfl⟩ := List.mem_map.mp hm
      rfl
    · exact ih m hm
  | paren hinner _ ihinner ih =>
    rw [marks_open, hinner.marks_append, marks_close]
    intro m hm
    simp only [List.mem_cons, List.mem_append] at hm
    rcases hm with rfl | hm | rfl | hm
    · simpa [Mark.isCode] using Ne.symm hopen
    · exact ihinner m hm
    · simpa [Mark.isCode] using Ne.symm hclose
    · exact ih m hm

end Tidy

/-- Without the characters that open comments, outside quotes, a text keeps all it has. -/
theorem blankCommentsFrom_eq_self (hash : Bool) {q : QuoteState} (fresh : Bool) {t : Text}
    (h : ∀ m ∈ marksFrom .standard q t, m.isCode '-' = false ∧ m.isCode '#' = false ∧
      m.isCode '/' = false) :
    blankCommentsFrom .standard hash (.code q fresh) t = t := by
  induction t generalizing q fresh with
  | nil => rw [blankCommentsFrom]
  | cons c rest ih =>
    rw [marksFrom] at h
    have hrest := fun m hm => h m (List.mem_cons_of_mem _ hm)
    obtain ⟨hdash, hhash, hslash⟩ := h _ List.mem_cons_self
    simp only [Mark.isCode] at hdash hhash hslash
    rw [blankCommentsFrom]
    by_cases hholds : q.holds c = true
    · rw [if_pos hholds, ih _ hrest]
    · obtain ⟨rfl, hnext⟩ :=
        QuoteState.next_code_of_holds_eq_false .standard (Bool.eq_false_iff.mpr hholds)
      simp only [hholds, Bool.not_false, Bool.true_and, beq_eq_false_iff_ne] at hdash hhash hslash
      rw [hnext] at hrest
      rw [if_neg hholds, if_neg (by simp [hdash, hhash]), if_neg (by simp [hslash]), ih _ hrest]

theorem Tidy.blankComments_eq {commas : Bool} {t : Text} (h : Tidy commas t) (hash : Bool) :
    t.blankComments hash = t := by
  have hunder : blankCommentsUnder .standard hash t = t := by
    apply blankCommentsFrom_eq_self
    intro m hm
    exact ⟨h.isCode_eq_false (by decide) (by decide) (by decide) m hm,
      h.isCode_eq_false (by decide) (by decide) (by decide) m hm,
      h.isCode_eq_false (by decide) (by decide) (by decide) m hm⟩
  have hopen : (t.openQuote? .standard).isNone = true := by
    rw [openQuote?, h.quoteState_eq]
    rfl
  simp only [blankComments, hunder, hopen, if_true]

/-! ## Enclosed texts -/

theorem upToClose_cons_of_other {m : Mark} (hopen : m.isCode '(' = false)
    (hclose : m.isCode ')' = false) (inner : Nat) (ms : List Mark) :
    upToClose inner (m :: ms) = (upToClose inner ms).map (m.char :: ·) := by
  cases inner <;> simp [upToClose, hopen, hclose]

theorem upToClose_open (inner : Nat) (ms : List Mark) :
    upToClose inner (⟨'(', false⟩ :: ms) = (upToClose (inner + 1) ms).map ('(' :: ·) := by
  cases inner <;> simp [upToClose, Mark.isCode]

theorem upToClose_close (inner : Nat) (ms : List Mark) :
    upToClose (inner + 1) (⟨')', false⟩ :: ms) = (upToClose inner ms).map (')' :: ·) := by
  simp [upToClose, Mark.isCode]

namespace Tidy

variable {commas : Bool} {t : Text}

theorem upToClose_append (h : Tidy commas t) (inner : Nat) (ms : List Mark) :
    upToClose inner (marks .standard t ++ ms) = (upToClose inner ms).map (t ++ ·) := by
  induction h generalizing inner ms with
  | nil => simp [marks, marksFrom]
  | @plain _ c t hc _ _ ih =>
    have hopen : (Mark.mk c false).isCode '(' = false := by
      simp only [Mark.isCode, Bool.not_false, Bool.true_and, beq_eq_false_iff_ne]
      rintro rfl
      exact absurd hc (by decide)
    have hclose : (Mark.mk c false).isCode ')' = false := by
      simp only [Mark.isCode, Bool.not_false, Bool.true_and, beq_eq_false_iff_ne]
      rintro rfl
      exact absurd hc (by decide)
    rw [marks_cons_of_isPlain hc, List.cons_append, upToClose_cons_of_other hopen hclose, ih,
      Option.map_map]
    rfl
  | @literal _ s t _ ih =>
    have hquoted : ∀ (x : Text) (ms : List Mark), upToClose inner (x.map (⟨·, true⟩) ++ ms) =
        (upToClose inner ms).map (x ++ ·) := by
      intro x ms
      induction x with
      | nil => simp
      | cons c x ih =>
        rw [List.map_cons, List.cons_append, upToClose_cons_of_other rfl rfl, ih, Option.map_map]
        rfl
    rw [marks_quoted, List.append_assoc, hquoted, ih, Option.map_map]
    simp [Function.comp_def, List.append_assoc]
  | paren hinner _ ihinner ih =>
    rw [marks_open, hinner.marks_append, marks_close, List.cons_append, upToClose_open,
      List.append_assoc, ihinner, List.cons_append, upToClose_close, ih]
    simp [Function.comp_def, List.append_assoc]

/-- What stands before a closing parenthesis is what it closes. -/
theorem enclosed?_append (h : Tidy commas t) (rest : Text) :
    enclosed? (t ++ ')' :: rest) = some t := by
  have hclose : upToClose 0 (marks .standard (')' :: rest)) = some [] := rfl
  rw [enclosed?, h.marks_append, h.upToClose_append, hclose]
  simp

end Tidy
/-! ## Lists -/

theorem foldr_extend_cons (t piece : Text) (more : List Text) :
    t.foldr extend (piece :: more) = (t ++ piece) :: more := by
  induction t with
  | nil => rfl
  | cons c t ih => rw [List.foldr_cons, ih]; rfl

theorem cutFrom_quoted (delimiter : Char) (depth : Nat) (x : Text) (ms : List Mark) :
    cutFrom delimiter depth (x.map (⟨·, true⟩) ++ ms) =
      x.foldr extend (cutFrom delimiter depth ms) := by
  induction x with
  | nil => rfl
  | cons c x ih => rw [List.map_cons, List.cons_append, cutFrom, if_pos rfl, ih]; rfl

/-- A tidy text is not cut, unless by a comma of its own. -/
theorem Tidy.cutFrom_append {commas : Bool} {t : Text} (h : Tidy commas t) {depth : Nat}
    (hdepth : commas = true → 0 < depth) (ms : List Mark) :
    cutFrom ',' depth (marks .standard t ++ ms) = t.foldr extend (cutFrom ',' depth ms) := by
  induction h generalizing depth ms with
  | nil => rfl
  | @plain _ c t hc hcomma _ ih =>
    have hopen : c ≠ '(' := by
      rintro rfl
      exact absurd hc (by decide)
    have hclose : c ≠ ')' := by
      rintro rfl
      exact absurd hc (by decide)
    have hcut : ¬ (c = ',' ∧ depth = 0) := by
      rintro ⟨hc, rfl⟩
      exact absurd (hdepth (hcomma hc)) (Nat.lt_irrefl 0)
    rw [marks_cons_of_isPlain hc, List.cons_append, cutFrom, if_neg (by simp), if_neg hopen,
      if_neg hclose, if_neg hcut, ih hdepth]
    rfl
  | literal s _ ih =>
    rw [marks_quoted, List.append_assoc, cutFrom_quoted, ih hdepth, List.foldr_append]
  | paren hinner _ ihinner ih =>
    rw [marks_open, hinner.marks_append, marks_close, List.cons_append, cutFrom, if_neg (by simp),
      if_pos rfl, List.append_assoc, @ihinner (depth + 1) (fun _ => Nat.succ_pos _),
      List.cons_append, cutFrom, if_neg (by simp), if_neg (by decide), if_pos rfl,
      Nat.add_sub_cancel, ih hdepth, List.foldr_cons, List.foldr_append, List.foldr_cons]

def listed (items : List Text) : Text := [',', ' '].intercalate items

theorem listed_cons_cons (item next : Text) (more : List Text) :
    listed (item :: next :: more) = item ++ ',' :: ' ' :: listed (next :: more) := by
  rw [listed, List.intercalate_cons_cons, List.append_assoc]
  rfl

theorem Tidy.listed {items : List Text} (h : ∀ item ∈ items, Tidy true item) :
    Tidy true (listed items) := by
  induction items with
  | nil => exact .nil
  | cons item more ih =>
    have hitem := h item List.mem_cons_self
    have hmore := ih fun other hother => h other (List.mem_cons_of_mem _ hother)
    cases more with
    | nil => rwa [Text.listed, List.intercalate_singleton]
    | cons next more =>
      rw [listed_cons_cons]
      exact hitem.append
        (.plain (by decide) (fun _ => rfl) (.plain (by decide) (fun _ => rfl) hmore))

theorem cutFrom_listed {item : Text} {items : List Text}
    (h : ∀ other ∈ item :: items, Tidy false other) :
    cutFrom ',' 0 (marks .standard (listed (item :: items))) = item :: items.map (' ' :: ·) := by
  induction items generalizing item with
  | nil =>
    have hcut : cutFrom ',' 0 (marks .standard item ++ []) = item.foldr extend (cutFrom ',' 0 []) :=
      (h item List.mem_cons_self).cutFrom_append (by simp) []
    rw [List.append_nil] at hcut
    rw [listed, List.intercalate_singleton, hcut, cutFrom, foldr_extend_cons, List.append_nil]
    rfl
  | cons next more ih =>
    have hitem := h item List.mem_cons_self
    have hrest := ih fun other hother => h other (List.mem_cons_of_mem _ hother)
    have hcomma : ∀ ms, cutFrom ',' 0 (⟨',', false⟩ :: ⟨' ', false⟩ :: ms) =
        [] :: extend ' ' (cutFrom ',' 0 ms) := fun ms => rfl
    rw [listed_cons_cons, hitem.marks_append, hitem.cutFrom_append (by simp),
      marks_cons_of_isPlain (by decide), marks_cons_of_isPlain (by decide), hcomma, hrest,
      foldr_extend_cons, List.append_nil]
    rfl

structure Trimmed (t : Text) : Prop where
  start : ∃ c rest, t = c :: rest ∧ isBlank c = false
  stop : ∃ front c, t = front ++ [c] ∧ isBlank c = false

theorem Trimmed.trim_eq {t : Text} (h : Trimmed t) : trim t = t := by
  obtain ⟨c, rest, hstart, hc⟩ := h.start
  have hbody : trimStart t = t := by rw [hstart, trimStart_eq_self hc]
  obtain ⟨front, d, hstop, hd⟩ := h.stop
  rw [trim, hbody, hstop, trimEnd, List.reverse_append, List.reverse_singleton,
    List.singleton_append, List.dropWhile_cons, hd, if_neg (by simp), List.reverse_cons,
    List.reverse_reverse]

theorem Trimmed.ne_nil {t : Text} (h : Trimmed t) : t ≠ [] := by
  obtain ⟨c, rest, hstart, -⟩ := h.start
  rw [hstart]
  exact List.cons_ne_nil c rest

theorem segments_listed {items : List Text} (h : ∀ item ∈ items, Tidy false item ∧ Trimmed item) :
    segments (listed items) ',' = items := by
  have htidy : Tidy true (listed items) :=
    Tidy.listed fun item hitem => (h item hitem).1.with_commas
  rw [segments, htidy.escapes_eq]
  cases items with
  | nil => rfl
  | cons item more =>
    have htrim : ∀ other ∈ more, trim (' ' :: other) = other := by
      intro other hother
      have hspace : trimStart (' ' :: other) = trimStart other := by
        rw [trimStart_cons, if_pos (by decide)]
      rw [trim, hspace]
      exact (h other (List.mem_cons_of_mem _ hother)).2.trim_eq
    have hlast : ((item :: more).reverse.dropWhile (·.isEmpty)) = (item :: more).reverse := by
      cases hreverse : (item :: more).reverse with
      | nil => rfl
      | cons last others =>
        have hmem : last ∈ item :: more := by
          rw [← List.mem_reverse, hreverse]
          exact List.mem_cons_self
        rw [List.dropWhile_cons, if_neg (by simpa using (h last hmem).2.ne_nil)]
    rw [cutFrom_listed fun other hother => (h other hother).1, List.map_cons, List.map_map,
      (h item List.mem_cons_self).2.trim_eq]
    have hmore : more.map (trim ∘ (' ' :: ·)) = more := by
      conv => rhs; rw [← List.map_id more]
      exact List.map_congr_left htrim
    rw [hmore, dropTrailingEmpty, hlast, List.reverse_reverse]

/-! ## Masked literals -/

/-- What masking leaves of the contents of a literal. -/
def blanked (s : Text) : Text := s.flatMap fun c => if c = '\x27' then [c, c] else blanks c

theorem maskFrom_doubled (s t : Text) :
    maskFrom .standard .inside (doubled s ++ '\x27' :: t) =
      blanked s ++ '\x27' :: maskFrom .standard .outside t := by
  induction s with
  | nil => rfl
  | cons c s ih =>
    rw [doubled_cons, blanked, List.flatMap_cons]
    by_cases hc : c = '\x27'
    · rw [hc, if_pos rfl, if_pos rfl, List.append_assoc, ← blanked, ← ih]
      rfl
    · rw [if_neg hc, if_neg hc, List.cons_append, maskFrom, if_neg (by simp), if_neg hc, ih,
        List.append_assoc]
      rfl

theorem maskFrom_quoted (s t : Text) :
    maskFrom .standard .outside (quoted s ++ t) =
      '\x27' :: (blanked s ++ '\x27' :: maskFrom .standard .outside t) := by
  rw [quoted, List.cons_append, List.append_assoc, List.singleton_append, maskFrom, if_pos rfl,
    maskFrom_doubled]

theorem maskFrom_append_of_not_mem {escapes : Escapes} {x : Text} (hx : '\x27' ∉ x) (t : Text) :
    maskFrom escapes .outside (x ++ t) = x ++ maskFrom escapes .outside t := by
  induction x with
  | nil => rfl
  | cons c x ih =>
    rw [List.mem_cons, not_or] at hx
    rw [List.cons_append, maskFrom, if_neg (Ne.symm hx.1), ih hx.2, List.cons_append]

end Text
end SqlAudit
