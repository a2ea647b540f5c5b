import SqlAudit.Proofs.Lexical.Blanking
import SqlAudit.Proofs.Lexical.Statements

/-!
Scans of a text that is put together from two.  A scan passes its state from the first text on to
the second, so where the first one leaves nothing open, the second is read as it would be alone.
-/

namespace SqlAudit

theorem Quote.ofChar?_char (quote : Quote) : ofChar? quote.char = some quote := by
  cases quote <;> rfl

namespace QuoteState

/-- The conventions differ on a backslash only. -/
theorem next_of_ne_backslash {c : Char} (hc : c ≠ '\\') (escapes : Escapes) (s : QuoteState) :
    s.next escapes c = s.next .standard c := by
  cases s with
  | code => rfl
  | inside quote => simp [next, hc]
  | escaped quote => rfl

theorem next_code_of_holds_eq_false (escapes : Escapes) {s : QuoteState} {c : Char}
    (h : s.holds c = false) : s = .code ∧ s.next escapes c = .code := by
  cases s with
  | code =>
    refine ⟨rfl, ?_⟩
    rw [holds, Option.isSome_eq_false_iff, Option.isNone_iff_eq_none] at h
    rw [next, h]
  | inside quote => simp [holds] at h
  | escaped quote => simp [holds] at h

end QuoteState

namespace CommentState

/-- The quote that a scan for comments stands in; a comment stands in none. -/
def quote : CommentState → QuoteState
  | .code quote _ => quote
  | _ => .code

/-- The scan stands outside quotes and block comments. -/
def IsOutside : CommentState → Prop
  | .code quote _ => quote = .code
  | .line => True
  | _ => False

instance (s : CommentState) : Decidable s.IsOutside := by
  cases s <;> unfold IsOutside <;> infer_instance

theorem next_of_ne_backslash {c : Char} (hc : c ≠ '\\') (escapes : Escapes) (hash : Bool)
    (s : CommentState) (peek : Option Char) :
    s.next escapes hash c peek = s.next .standard hash c peek := by
  cases s with
  | code quote fresh => simp only [next, quote.next_of_ne_backslash hc escapes]
  | line => rfl
  | opening fresh => rfl
  | block star fresh => rfl

/-- No comment opens at a newline, so what comes after it is not looked at. -/
theorem hides_newline (hash : Bool) (s : CommentState) (peek peek' : Option Char) :
    s.hides hash '\n' peek = s.hides hash '\n' peek' := by
  cases s <;> simp [hides, OpensLine, OpensBlock]

theorem next_newline (escapes : Escapes) (hash : Bool) (s : CommentState)
    (peek peek' : Option Char) :
    s.next escapes hash '\n' peek = s.next escapes hash '\n' peek' := by
  cases s <;> simp [next, OpensLine, OpensBlock]

/-- What is blanked stands outside quotes, before and after. -/
theorem quote_of_hides (escapes : Escapes) {hash : Bool} {s : CommentState} {c : Char}
    {peek : Option Char} (h : s.hides hash c peek = true) :
    s.quote = .code ∧ (s.next escapes hash c peek).quote = .code := by
  cases s with
  | code quote fresh =>
    rw [hides, Bool.and_eq_true, Bool.not_eq_true'] at h
    obtain ⟨hholds, hopens⟩ := h
    obtain ⟨rfl, -⟩ := QuoteState.next_code_of_holds_eq_false escapes hholds
    refine ⟨rfl, ?_⟩
    simp only [next, hholds, Bool.false_eq_true, if_false]
    split
    · rfl
    · split <;> rfl
  | line =>
    refine ⟨rfl, ?_⟩
    rw [next]
    split <;> rfl
  | opening fresh => exact ⟨rfl, rfl⟩
  | block star fresh =>
    refine ⟨rfl, ?_⟩
    rw [next]
    split <;> rfl

/-- What is kept moves the quote as it would without comments. -/
theorem quote_of_not_hides {escapes : Escapes} {hash : Bool} {s : CommentState} {c : Char}
    {peek : Option Char} (h : ¬ s.hides hash c peek = true) :
    (s.next escapes hash c peek).quote = s.quote.next escapes c := by
  cases s with
  | code quote fresh =>
    rw [next]
    by_cases hholds : quote.holds c = true
    · rw [if_pos hholds]
      rfl
    · rw [hides] at h
      simp only [hholds, Bool.not_false, Bool.true_and, Bool.or_eq_true, decide_eq_true_eq,
        not_or] at h
      rw [if_neg hholds, if_neg h.1, if_neg h.2]
      obtain ⟨rfl, hnext⟩ :=
        QuoteState.next_code_of_holds_eq_false escapes (by simpa using hholds)
      exact hnext.symm
  | line =>
    have hc : c = '\n' := by simpa [hides] using h
    rw [hc, next, if_pos rfl]
    rfl
  | opening fresh => simp [hides] at h
  | block star fresh =>
    have hc : c = '\n' := by simpa [hides] using h
    rw [hc, next, if_neg (by simp)]
    rfl

end CommentState

namespace Text

/-! ## Comments -/

/-- Where the scan for comments stands after a text. -/
def commentStateFrom (escapes : Escapes) (hash : Bool) : CommentState → Text → CommentState
  | s, [] => s
  | s, c :: rest => commentStateFrom escapes hash (s.next escapes hash c rest.head?) rest

def commentState (hash : Bool) (t : Text) : CommentState :=
  commentStateFrom .standard hash (.code .code true) t

theorem blankCommentsFrom_append_newline (escapes : Escapes) (hash : Bool) (s : CommentState)
    (a b : Text) :
    blankCommentsFrom escapes hash s (a ++ '\n' :: b) =
      blankCommentsFrom escapes hash s (a ++ ['\n']) ++
        blankCommentsFrom escapes hash (commentStateFrom escapes hash s (a ++ ['\n'])) b := by
  induction a generalizing s with
  | nil =>
    rw [List.nil_append, List.nil_append, blankCommentsFrom_cons, blankCommentsFrom_cons,
      commentStateFrom, commentStateFrom, blankCommentsFrom, List.append_nil,
      s.next_newline escapes hash b.head? [].head?]
    simp only [s.hides_newline hash b.head? [].head?]
  | cons c rest ih =>
    have hpeek : (rest ++ '\n' :: b).head? = (rest ++ ['\n']).head? := by cases rest <;> rfl
    rw [List.cons_append, List.cons_append, blankCommentsFrom_cons, blankCommentsFrom_cons,
      commentStateFrom, hpeek, ih, List.append_assoc]

theorem blankCommentsFrom_of_no_backslash {t : Text} (ht : '\\' ∉ t) (escapes : Escapes)
    (hash : Bool) (s : CommentState) :
    blankCommentsFrom escapes hash s t = blankCommentsFrom .standard hash s t := by
  induction t generalizing s with
  | nil => rw [blankCommentsFrom, blankCommentsFrom]
  | cons c rest ih =>
    rw [List.mem_cons, not_or] at ht
    obtain ⟨hc, hrest⟩ := ht
    rw [blankCommentsFrom_cons, blankCommentsFrom_cons,
      s.next_of_ne_backslash (Ne.symm hc) escapes, ih hrest]

/-- Without backslashes there is one reading of the comments. -/
theorem blankComments_of_no_backslash {t : Text} (ht : '\\' ∉ t) (hash : Bool) :
    t.blankComments hash = blankCommentsFrom .standard hash (.code .code true) t := by
  have hone : blankCommentsUnder .backslash hash t = blankCommentsUnder .standard hash t :=
    blankCommentsFrom_of_no_backslash ht .backslash hash _
  simp only [blankComments, hone]
  split
  · rfl
  · split <;> rfl

theorem commentStateFrom_append_newline (escapes : Escapes) (hash : Bool) (s : CommentState)
    (a : Text) (houtside : (commentStateFrom escapes hash s (a ++ ['\n'])).IsOutside) :
    commentStateFrom escapes hash s (a ++ ['\n']) = .code .code true := by
  induction a generalizing s with
  | nil =>
    rw [List.nil_append, commentStateFrom, commentStateFrom] at houtside ⊢
    cases s with
    | code quote fresh =>
      rw [CommentState.next] at houtside ⊢
      by_cases hholds : quote.holds '\n' = true
      · -- A newline is no quote character, so it is held by an open quote, which it leaves open.
        rw [if_pos hholds] at houtside
        cases quote with
        | code => simp [QuoteState.holds, Quote.ofChar?] at hholds
        | inside quote =>
          cases quote <;>
            simp [QuoteState.next, CommentState.IsOutside, Quote.char] at houtside
        | escaped quote => simp [QuoteState.next, CommentState.IsOutside] at houtside
      · obtain ⟨rfl, -⟩ :=
          QuoteState.next_code_of_holds_eq_false escapes (by simpa using hholds)
        simp [hholds, CommentState.OpensLine, CommentState.OpensBlock]
    | line => simp [CommentState.next]
    | opening fresh => exact absurd houtside (by simp [CommentState.next, CommentState.IsOutside])
    | block star fresh =>
      exact absurd houtside (by simp [CommentState.next, CommentState.IsOutside])
  | cons c rest ih =>
    rw [List.cons_append, commentStateFrom] at houtside ⊢
    exact ih _ houtside

/-- A text that ends in a newline and leaves nothing open hands nothing on to the next one. -/
theorem blankComments_append {hash : Bool} {a b : Text} (ha : '\\' ∉ a) (hb : '\\' ∉ b)
    (hnewline : a.getLast? = some '\n') (houtside : (a.commentState hash).IsOutside) :
    (a ++ b).blankComments hash = a.blankComments hash ++ b.blankComments hash := by
  obtain ⟨front, rfl⟩ := List.getLast?_eq_some_iff.mp hnewline
  have hab : '\\' ∉ front ++ ['\n'] ++ b := by simp_all
  rw [blankComments_of_no_backslash hab, blankComments_of_no_backslash ha,
    blankComments_of_no_backslash hb, List.append_assoc, List.singleton_append,
    blankCommentsFrom_append_newline, commentStateFrom_append_newline _ _ _ _ houtside]

/-! ## Quotes -/

theorem foldl_next_blanks (escapes : Escapes) (c : Char) :
    (blanks c).foldl (QuoteState.next escapes) .code = .code := by
  rw [blanks]
  generalize c.utf8Size = n
  induction n with
  | zero => rfl
  | succ n ih =>
    rw [List.replicate_succ, List.foldl_cons]
    exact ih

/-- The text without comments leaves the quote open that the scan for comments stands in. -/
theorem foldl_next_blankCommentsFrom (escapes : Escapes) (hash : Bool) (s : CommentState)
    (t : Text) :
    (blankCommentsFrom escapes hash s t).foldl (QuoteState.next escapes) s.quote =
      (commentStateFrom escapes hash s t).quote := by
  induction t generalizing s with
  | nil => rw [blankCommentsFrom, commentStateFrom, List.foldl_nil]
  | cons c rest ih =>
    rw [blankCommentsFrom_cons, commentStateFrom, List.foldl_append, ← ih]
    by_cases hhides : s.hides hash c rest.head? = true
    · obtain ⟨hbefore, hafter⟩ := CommentState.quote_of_hides escapes hhides
      rw [if_pos hhides, hbefore, hafter, foldl_next_blanks]
    · rw [if_neg hhides, CommentState.quote_of_not_hides hhides, List.foldl_cons, List.foldl_nil]

theorem quoteState_blankComments {hash : Bool} {a : Text} (ha : '\\' ∉ a)
    (hnewline : a.getLast? = some '\n') (houtside : (a.commentState hash).IsOutside) :
    (a.blankComments hash).quoteState .standard = .code := by
  obtain ⟨front, rfl⟩ := List.getLast?_eq_some_iff.mp hnewline
  have hfinal := foldl_next_blankCommentsFrom .standard hash (.code .code true) (front ++ ['\n'])
  rw [commentStateFrom_append_newline _ _ _ _ houtside] at hfinal
  rw [blankComments_of_no_backslash ha]
  exact hfinal

theorem marksFrom_append (escapes : Escapes) (s : QuoteState) (a b : Text) :
    marksFrom escapes s (a ++ b) =
      marksFrom escapes s a ++ marksFrom escapes (a.foldl (QuoteState.next escapes) s) b := by
  induction a generalizing s with
  | nil => rfl
  | cons c rest ih => rw [List.cons_append, marksFrom, marksFrom, ih, List.foldl_cons,
      List.cons_append]

theorem marks_of_no_backslash {t : Text} (ht : '\\' ∉ t) (escapes : Escapes) :
    t.marks escapes = t.marks .standard := by
  have hfrom : ∀ s, marksFrom escapes s t = marksFrom .standard s t := by
    induction t with
    | nil => intro s; rfl
    | cons c rest ih =>
      intro s
      rw [List.mem_cons, not_or] at ht
      rw [marksFrom, marksFrom, s.next_of_ne_backslash (Ne.symm ht.1), ih ht.2]
  exact hfrom .code

theorem no_backslash_of_blanking {t u : Text} (h : Blanking t u) (ht : '\\' ∉ t) : '\\' ∉ u := by
  induction h with
  | nil => exact ht
  | keep c _ ih =>
    rw [List.mem_cons, not_or] at ht ⊢
    exact ⟨ht.1, ih ht.2⟩
  | @blank c t u _ _ ih =>
    rw [List.mem_cons, not_or] at ht
    rw [List.mem_append, not_or]
    refine ⟨fun hmem => ?_, ih ht.2⟩
    exact absurd (List.eq_of_mem_replicate hmem) (by decide)

/-! ## Statements -/

/-- The last character of a text that is not blank, if there is one, is a semicolon outside
quotes. -/
def Terminated (t : Text) : Prop :=
  ∀ m, ((t.marks t.escapes).filter (!isBlank ·.char)).getLast? = some m → m.isCode ';' = true

theorem cutStatements_append_semicolon {m : Mark} (hm : m.isCode ';' = true)
    (front back : List Mark) :
    cutStatements (front ++ m :: back) = cutStatements front ++ cutStatements back := by
  induction front with
  | nil =>
    show cutStatements (m :: back) = [] :: cutStatements back
    rw [cutStatements, if_pos hm]
  | cons n rest ih =>
    rw [List.cons_append, cutStatements, ih, cutStatements]
    by_cases hn : n.isCode ';' = true
    · rw [if_pos hn, if_pos hn, List.cons_append]
    · rw [if_neg hn, if_neg hn]
      obtain ⟨piece, more, hpiece⟩ := List.exists_cons_of_ne_nil (cutStatements_ne_nil rest)
      rw [hpiece, List.cons_append]
      rfl

theorem placeStatements_shift (k offset : Nat) (pieces : List Text) :
    placeStatements (k + offset) pieces =
      (placeStatements offset pieces).map fun s => { s with offset := k + s.offset } := by
  induction pieces generalizing offset with
  | nil => rfl
  | cons piece more ih =>
    have hnext : k + offset + size piece + 1 = k + (offset + size piece + 1) := by omega
    rw [placeStatements, placeStatements, hnext, ih]
    by_cases hbody : piece.trimStart.isEmpty = true
    · simp [hbody]
    · simp only [hbody, Bool.false_eq_true, if_false, List.map_cons, Nat.add_assoc]

theorem placeStatements_append {first : List Text} (hfirst : first ≠ []) (offset : Nat)
    (second : List Text) :
    placeStatements offset (first ++ second) =
      placeStatements offset first ++
        placeStatements (offset + size ([';'].intercalate first) + 1) second := by
  induction first generalizing offset with
  | nil => exact absurd rfl hfirst
  | cons piece more ih =>
    have hrest : placeStatements (offset + size piece + 1) (more ++ second) =
        placeStatements (offset + size piece + 1) more ++
          placeStatements (offset + size ([';'].intercalate (piece :: more)) + 1) second := by
      cases more with
      | nil => simp [placeStatements, List.intercalate]
      | cons next others =>
        have hsemicolon : (';' : Char).utf8Size = 1 := by decide
        have hsize : offset + size ([';'].intercalate (piece :: next :: others)) + 1 =
            offset + size piece + 1 + size ([';'].intercalate (next :: others)) + 1 := by
          rw [List.intercalate_cons_cons, size_append, size_append, size_cons, size_nil,
            hsemicolon]
          omega
        rw [ih (List.cons_ne_nil _ _), hsize]
    rw [List.cons_append, placeStatements, placeStatements, hrest]
    by_cases hbody : piece.trimStart.isEmpty = true
    · simp only [hbody, if_true]
    · simp only [hbody, Bool.false_eq_true, if_false, List.cons_append]

/-- Blanks before a text become part of its first piece. -/
theorem cutStatements_blank_append {blank : List Mark} (hblank : ∀ m ∈ blank, isBlank m.char)
    {ms : List Mark} {piece : Text} {more : List Text} (hms : cutStatements ms = piece :: more) :
    cutStatements (blank ++ ms) = (blank.map Mark.char ++ piece) :: more := by
  induction blank with
  | nil => exact hms
  | cons m rest ih =>
    have hm : ¬ m.isCode ';' = true := by
      intro h
      rw [Mark.isCode, Bool.and_eq_true, beq_iff_eq] at h
      have hchar := hblank m List.mem_cons_self
      rw [h.2] at hchar
      exact absurd hchar (by decide)
    have hrest : ∀ n ∈ rest, isBlank n.char := fun n hn => hblank n (List.mem_cons_of_mem _ hn)
    rw [List.cons_append, cutStatements, if_neg hm, ih hrest]
    rfl

/-- Blanks before a text move its statements on and change nothing else. -/
theorem placeStatements_cutStatements_blank {blank : List Mark}
    (hblank : ∀ m ∈ blank, isBlank m.char) (offset : Nat) (ms : List Mark) :
    placeStatements offset (cutStatements (blank ++ ms)) =
      placeStatements (offset + size (blank.map Mark.char)) (cutStatements ms) := by
  obtain ⟨piece, more, hms⟩ := List.exists_cons_of_ne_nil (cutStatements_ne_nil ms)
  have hchars : ∀ c ∈ blank.map Mark.char, isBlank c := by
    intro c hc
    obtain ⟨m, hm, rfl⟩ := List.mem_map.mp hc
    exact hblank m hm
  have hbody : trimStart (blank.map Mark.char ++ piece) = trimStart piece := by
    rw [trimStart, trimStart, List.dropWhile_append_of_pos hchars]
  obtain ⟨front, hfront, -⟩ := exists_append_trimStart piece
  have hsize := congrArg size hfront
  rw [size_append] at hsize
  rw [cutStatements_blank_append hblank hms, hms, placeStatements, placeStatements, hbody,
    size_append]
  generalize size (blank.map Mark.char) = width
  have hplace : offset + (width + size piece - size piece.trimStart) =
      offset + width + (size piece - size piece.trimStart) := by omega
  have hnext : offset + (width + size piece) + 1 = offset + width + size piece + 1 := by omega
  rw [hplace, hnext]

theorem placeStatements_cutStatements_eq_nil {blank : List Mark}
    (hblank : ∀ m ∈ blank, isBlank m.char) (offset : Nat) :
    placeStatements offset (cutStatements blank) = [] := by
  have h := placeStatements_cutStatements_blank hblank offset []
  rw [List.append_nil] at h
  rw [h]
  rfl

theorem exists_semicolon_of_getLast? {ms : List Mark}
    (h : ∀ m, (ms.filter (!isBlank ·.char)).getLast? = some m → m.isCode ';' = true) :
    (∀ m ∈ ms, isBlank m.char) ∨ ∃ front m back, ms = front ++ m :: back ∧
      m.isCode ';' = true ∧ ∀ n ∈ back, isBlank n.char := by
  cases hlast : (ms.filter (!isBlank ·.char)).getLast? with
  | none =>
    left
    simpa using List.getLast?_eq_none_iff.mp hlast
  | some m =>
    right
    obtain ⟨init, hinit⟩ := List.getLast?_eq_some_iff.mp hlast
    obtain ⟨front, rest, rfl, -, hrest⟩ := List.filter_eq_append_iff.mp hinit
    obtain ⟨before, back, rfl, -, -, hback⟩ := List.filter_eq_cons_iff.mp hrest
    refine ⟨front ++ before, m, back, by simp, h m hlast, ?_⟩
    simpa using hback

/-- After a text that closes its quotes and ends in a semicolon, the statements of the next one are
its own, moved on by the bytes of the first. -/
theorem statements_append {a b : Text} (ha : '\\' ∉ a) (hb : '\\' ∉ b)
    (hclosed : a.quoteState .standard = .code) (hterminated : a.Terminated) :
    (a ++ b).statements =
      a.statements ++ b.statements.map fun s => { s with offset := size a + s.offset } := by
  have hab : '\\' ∉ a ++ b := by simp [ha, hb]
  have hmarks : (a ++ b).marks .standard = a.marks .standard ++ b.marks .standard := by
    rw [marks, marksFrom_append, ← quoteState, hclosed]
    rfl
  rw [Terminated, marks_of_no_backslash ha] at hterminated
  rw [statements, statements, statements, marks_of_no_backslash hab, marks_of_no_backslash ha,
    marks_of_no_backslash hb, hmarks, ← placeStatements_shift]
  have hchars := map_char_marks .standard a
  rcases exists_semicolon_of_getLast? hterminated with hblank | ⟨front, m, back, heq, hm, hback⟩
  · rw [placeStatements_cutStatements_blank hblank, placeStatements_cutStatements_eq_nil hblank,
      hchars, List.nil_append, Nat.zero_add, Nat.add_zero]
  · rw [heq, List.map_append, List.map_cons] at hchars
    have hsize : size a = size ([';'].intercalate (cutStatements front)) + 1 +
        size (back.map Mark.char) := by
      have hsemicolon : m.char.utf8Size = 1 := by
        rw [Mark.isCode, Bool.and_eq_true, beq_iff_eq] at hm
        rw [hm.2]
        decide
      rw [← hchars, size_append, size_cons, hsemicolon, intercalate_cutStatements]
      omega
    have hne := cutStatements_ne_nil front
    rw [heq, List.append_assoc, List.cons_append, cutStatements_append_semicolon hm,
      cutStatements_append_semicolon hm, placeStatements_append hne, placeStatements_append hne,
      placeStatements_cutStatements_blank hback, placeStatements_cutStatements_eq_nil hback,
      List.append_nil, Nat.zero_add, ← hsize, Nat.add_zero]

end Text
end SqlAudit
