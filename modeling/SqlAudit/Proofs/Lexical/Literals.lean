import SqlAudit.Lexical.Mask
import SqlAudit.Proofs.Lexical.Locality

/-!
The contents of single-quoted literals.  A text is read once as a whole, which settles what is a
literal in it; lines are masked one at a time, each by a scan that starts outside and looks at single
quotes only.  Where the text closes its literals on the lines where they open, and the two readings
agree on what is inside, the masked lines show nothing of the contents.
-/

namespace SqlAudit

namespace QuoteState

/-- Whether a character read in this state stands strictly inside a single-quoted literal. -/
def isContent : QuoteState → Char → Bool
  | .inside .single, c => c ≠ '\x27'
  | _, _ => false

theorem of_isContent {s : QuoteState} {c : Char} (h : s.isContent c = true) :
    s = .inside .single ∧ c ≠ '\x27' := by
  cases s with
  | code => cases h
  | inside quote =>
    cases quote with
    | single => exact ⟨rfl, by simpa [isContent] using h⟩
    | double => cases h
    | backtick => cases h
  | escaped quote => cases h

theorem next_inside_single {c : Char} (hc : c ≠ '\x27') :
    next .standard (.inside .single) c = .inside .single := by
  simp [next, Quote.char, hc]

end QuoteState

namespace LiteralState

/-- The state after a character that is no escape. -/
def next : LiteralState → Char → LiteralState
  | .outside, c => if c = '\x27' then .inside else .outside
  | .inside, c => if c = '\x27' then .outside else .inside
  | .escaped, _ => .inside

/-- The state after a character under either convention for backslashes. -/
def nextUnder (escapes : Escapes) (l : LiteralState) (c : Char) : LiteralState :=
  if escapes = .backslash ∧ l = .inside ∧ c = '\\' then .escaped else l.next c

def hides : LiteralState → Char → Bool
  | .outside, _ => false
  | .inside, c => c ≠ '\x27'
  | .escaped, _ => true

end LiteralState

namespace Text

/-! ## Masks -/

theorem maskFrom_step (escapes : Escapes) (l : LiteralState) (c : Char) (rest : Text) :
    maskFrom escapes l (c :: rest) =
      (if l.hides c then blanks c else [c]) ++ maskFrom escapes (l.nextUnder escapes c) rest := by
  cases l with
  | outside => simp [maskFrom, LiteralState.hides, LiteralState.nextUnder, LiteralState.next]
  | inside =>
    rw [maskFrom]
    by_cases hescape : escapes = .backslash ∧ c = '\\'
    · simp [hescape, LiteralState.hides, LiteralState.nextUnder]
    · have hnext : LiteralState.inside.nextUnder escapes c = LiteralState.inside.next c :=
        if_neg fun h => hescape ⟨h.1, h.2.2⟩
      rw [if_neg hescape, hnext]
      by_cases hc : c = '\x27' <;> simp [hc, LiteralState.hides, LiteralState.next]
  | escaped => simp [maskFrom, LiteralState.hides, LiteralState.nextUnder, LiteralState.next]

theorem maskFrom_cons (l : LiteralState) (c : Char) (rest : Text) :
    maskFrom .standard l (c :: rest) =
      (if l.hides c then blanks c else [c]) ++ maskFrom .standard (l.next c) rest := by
  have hnext : l.nextUnder .standard c = l.next c := if_neg (by simp)
  rw [maskFrom_step, hnext]

theorem maskFrom_of_no_backslash {t : Text} (ht : '\\' ∉ t) (escapes : Escapes)
    (l : LiteralState) : maskFrom escapes l t = maskFrom .standard l t := by
  induction t generalizing l with
  | nil => cases l <;> rfl
  | cons c rest ih =>
    rw [List.mem_cons, not_or] at ht
    obtain ⟨hc, hrest⟩ := ht
    cases l with
    | outside => rw [maskFrom, maskFrom, ih hrest]
    | inside =>
      have hplain : ∀ e : Escapes, ¬ (e = .backslash ∧ c = '\\') := fun e h => hc h.2.symm
      rw [maskFrom, maskFrom, if_neg (hplain _), if_neg (hplain _), ih hrest, ih hrest]
    | escaped => rw [maskFrom, maskFrom, ih hrest]

theorem mask_of_no_backslash {t : Text} (ht : '\\' ∉ t) :
    mask t = maskFrom .standard .outside t := maskFrom_of_no_backslash ht _ _

/-! ## The reading of a whole text -/

/-- The bytes of a text that is read on from a state, without those strictly inside single-quoted
literals; newlines show there as well. -/
def outlineFrom : QuoteState → Text → List (Option UInt8)
  | _, [] => []
  | s, c :: rest =>
    (String.utf8EncodeChar c).map (fun byte => if s.isContent c ∧ c ≠ '\n' then none else some byte)
      ++ outlineFrom (s.next .standard c) rest

/-- The bytes of a text without those inside single-quoted literals, newlines apart.  Two texts have
the same outline if they are equally long, have their newlines and the quotes of their literals at
the same offsets and differ only inside literals. -/
def outline (t : Text) : List (Option UInt8) := outlineFrom .code t

/-- Blanks what stands strictly inside single-quoted literals, newlines apart. -/
def blankLiteralsFrom : QuoteState → Text → Text
  | _, [] => []
  | s, c :: rest =>
    (if s.isContent c ∧ c ≠ '\n' then blanks c else [c]) ++
      blankLiteralsFrom (s.next .standard c) rest

def blankLiterals (t : Text) : Text := blankLiteralsFrom .code t

theorem flatMap_utf8EncodeChar_blanks (c : Char) :
    (blanks c).flatMap String.utf8EncodeChar = List.replicate c.utf8Size 32 := by
  rw [blanks, List.flatMap_replicate]
  have hspace : String.utf8EncodeChar ' ' = [32] := by decide
  rw [hspace]
  exact List.flatten_replicate_singleton

theorem flatMap_utf8EncodeChar_blankLiteralsFrom (s : QuoteState) (t : Text) :
    (blankLiteralsFrom s t).flatMap String.utf8EncodeChar =
      (outlineFrom s t).map (·.getD 32) := by
  induction t generalizing s with
  | nil => rfl
  | cons c rest ih =>
    rw [blankLiteralsFrom, outlineFrom, List.flatMap_append, List.map_append, ih, List.map_map]
    congr 1
    by_cases hc : s.isContent c = true ∧ c ≠ '\n'
    · rw [if_pos hc, flatMap_utf8EncodeChar_blanks, ← String.length_utf8EncodeChar]
      simp [hc, Function.comp_def, List.map_const']
    · rw [if_neg hc]
      simp [hc, Function.comp_def]

theorem utf8EncodeChar_injective {t u : Text}
    (h : t.flatMap String.utf8EncodeChar = u.flatMap String.utf8EncodeChar) : t = u := by
  have hbytes : t.utf8Encode = u.utf8Encode := congrArg List.toByteArray h
  rw [← String.ofList_inj]
  exact String.toByteArray_inj.mp hbytes

/-- What the outline of a text leaves open is what is blanked. -/
theorem blankLiterals_eq_of_outline_eq {t u : Text} (h : t.outline = u.outline) :
    t.blankLiterals = u.blankLiterals := by
  apply utf8EncodeChar_injective
  rw [blankLiterals, blankLiterals, flatMap_utf8EncodeChar_blankLiteralsFrom,
    flatMap_utf8EncodeChar_blankLiteralsFrom, ← outline, ← outline, h]

theorem blanking_blankLiteralsFrom (s : QuoteState) (t : Text) :
    Blanking t (blankLiteralsFrom s t) := by
  induction t generalizing s with
  | nil => exact .nil
  | cons c rest ih =>
    rw [blankLiteralsFrom]
    split
    · rename_i hc
      exact .blank hc.2 (ih _)
    · exact .keep c (ih _)

theorem blankLiteralsFrom_append (s : QuoteState) (a b : Text) :
    blankLiteralsFrom s (a ++ b) =
      blankLiteralsFrom s a ++ blankLiteralsFrom (a.foldl (QuoteState.next .standard) s) b := by
  induction a generalizing s with
  | nil => rfl
  | cons c rest ih =>
    rw [List.cons_append, blankLiteralsFrom, blankLiteralsFrom, ih, List.foldl_cons,
      List.append_assoc]

theorem blankLiteralsFrom_newline_cons (s : QuoteState) (t : Text) :
    blankLiteralsFrom s ('\n' :: t) = '\n' :: blankLiteralsFrom (s.next .standard '\n') t := by
  rw [blankLiteralsFrom, if_neg (by simp)]
  rfl

/-! ## Two readings -/

/-- Wherever a text read on from a state stands inside a single-quoted literal, so does the reading
of the line alone, and the line does not end there. -/
def ClosesFrom : QuoteState → LiteralState → Text → Prop
  | _, _, [] => True
  | s, l, c :: rest =>
    (s = .inside .single → l = .inside ∧ c ≠ '\n') ∧
      ClosesFrom (s.next .standard c) (if c = '\n' then .outside else l.next c) rest

instance decidableClosesFrom :
    (s : QuoteState) → (l : LiteralState) → (t : Text) → Decidable (ClosesFrom s l t)
  | _, _, [] => isTrue trivial
  | s, l, c :: rest =>
    have := decidableClosesFrom (s.next .standard c) (if c = '\n' then .outside else l.next c) rest
    inferInstanceAs (Decidable (_ ∧ _))

/-- Every single-quoted literal closes on its line, and the single quotes before it on this line are
an even number. -/
def ClosesOnLines (t : Text) : Prop := ClosesFrom .code .outside t

instance (t : Text) : Decidable t.ClosesOnLines := decidableClosesFrom _ _ t

/-- The state of the reading of a line after some of it. -/
def literalState (l : LiteralState) (t : Text) : LiteralState := t.foldl LiteralState.next l

theorem closesFrom_append {s : QuoteState} {l : LiteralState} {a : Text} (ha : '\n' ∉ a) (b : Text) :
    ClosesFrom s l (a ++ b) ↔ ClosesFrom s l a ∧
      ClosesFrom (a.foldl (QuoteState.next .standard) s) (a.literalState l) b := by
  induction a generalizing s l with
  | nil => simp [ClosesFrom, literalState]
  | cons c rest ih =>
    rw [List.mem_cons, not_or] at ha
    rw [List.cons_append, ClosesFrom, ClosesFrom, if_neg (Ne.symm ha.1), ih ha.2, and_assoc]
    rfl

theorem maskFrom_blanks_append (escapes : Escapes) (c : Char) (t : Text) :
    maskFrom escapes .inside (blanks c ++ t) = blanks c ++ maskFrom escapes .inside t := by
  rw [blanks]
  generalize c.utf8Size = n
  have hspace : blanks ' ' = [' '] := by decide
  have hnext : LiteralState.inside.nextUnder escapes ' ' = .inside := if_neg (by simp)
  induction n with
  | zero => rfl
  | succ n ih =>
    rw [List.replicate_succ, List.cons_append, maskFrom_step, List.cons_append, ← ih,
      if_pos (by decide), hspace, hnext]
    rfl

/-- The mask of a line hides the contents of the literals that it closes. -/
theorem maskFrom_blankLiteralsFrom {s : QuoteState} {l : LiteralState} {a : Text} (ha : '\n' ∉ a)
    (h : ClosesFrom s l a) :
    maskFrom .standard l (blankLiteralsFrom s a) = maskFrom .standard l a := by
  induction a generalizing s l with
  | nil => rfl
  | cons c rest ih =>
    rw [List.mem_cons, not_or] at ha
    rw [ClosesFrom, if_neg (Ne.symm ha.1)] at h
    obtain ⟨hinside, hrest⟩ := h
    rw [blankLiteralsFrom, maskFrom_cons l c rest]
    by_cases hc : s.isContent c = true ∧ c ≠ '\n'
    · obtain ⟨hs, hne⟩ := QuoteState.of_isContent hc.1
      obtain ⟨rfl, -⟩ := hinside hs
      have hnext : LiteralState.inside.next c = .inside := by simp [LiteralState.next, hne]
      rw [hnext] at hrest ⊢
      rw [if_pos hc, maskFrom_blanks_append, ih ha.2 hrest,
        if_pos (by simp [LiteralState.hides, hne])]
    · rw [if_neg hc, List.singleton_append, maskFrom_cons, ih ha.2 hrest]

theorem dropReturn_append_singleton (t : Text) (c : Char) :
    dropReturn (t ++ [c]) = if c = '\r' then t else t ++ [c] := by
  simp [dropReturn]

/-- A carriage return at the end of a line is no content, so it stays where it is. -/
theorem dropReturn_blankLiteralsFrom {s : QuoteState} {a : Text}
    (h : a.foldl (QuoteState.next .standard) s ≠ .inside .single) :
    dropReturn (blankLiteralsFrom s a) = blankLiteralsFrom s (dropReturn a) := by
  rcases List.eq_nil_or_concat a with rfl | ⟨front, c, rfl⟩
  · rfl
  · rw [List.concat_eq_append] at h ⊢
    rw [List.foldl_append, List.foldl_cons, List.foldl_nil] at h
    have hcontent : ¬ (front.foldl (QuoteState.next .standard) s).isContent c = true := by
      intro hcontent
      refine h ?_
      obtain ⟨hs, hne⟩ := QuoteState.of_isContent hcontent
      rw [hs, QuoteState.next_inside_single hne]
    have hlast : blankLiteralsFrom (front.foldl (QuoteState.next .standard) s) [c] = [c] := by
      rw [blankLiteralsFrom, if_neg (fun hc => hcontent hc.1)]
      rfl
    rw [blankLiteralsFrom_append, hlast, dropReturn_append_singleton, dropReturn_append_singleton]
    by_cases hc : c = '\r'
    · rw [if_pos hc, if_pos hc]
    · rw [if_neg hc, if_neg hc, blankLiteralsFrom_append, hlast]

/-! ## Lines -/

theorem induction_on_lines {P : Text → Prop} (last : ∀ a : Text, '\n' ∉ a → P a)
    (line : ∀ a b : Text, '\n' ∉ a → P b → P (a ++ '\n' :: b)) (t : Text) : P t := by
  obtain ⟨n, hn⟩ : ∃ n, t.length = n := ⟨_, rfl⟩
  induction n using Nat.strongRecOn generalizing t with
  | ind n ih =>
    by_cases ht : '\n' ∈ t
    · obtain ⟨a, b, rfl, ha⟩ := List.eq_append_cons_of_mem ht
      rw [List.length_append, List.length_cons] at hn
      exact line a b ha (ih b.length (by omega) b rfl)
    · exact last t ht

theorem pieces_of_no_newline {a : Text} (ha : '\n' ∉ a) : pieces (· == '\n') a = [a] := by
  apply pieces_of_forall
  intro c hc
  rw [beq_eq_false_iff_ne]
  rintro rfl
  exact ha hc

theorem lines_of_no_newline {a : Text} (ha : '\n' ∉ a) : lines a = if a = [] then [] else [a] := by
  rw [lines, pieces_of_no_newline ha]
  cases a <;> rfl

theorem lines_first {a : Text} (ha : '\n' ∉ a) (b : Text) :
    lines (a ++ '\n' :: b) = dropReturn a :: lines b := by
  rw [lines_append_newline_cons, pieces_of_no_newline ha]
  rfl

theorem isInitial_dropReturn (t : Text) : dropReturn t <+: t := by
  rw [dropReturn]
  split
  · exact List.dropLast_prefix t
  · exact List.prefix_rfl

theorem mem_of_mem_lines {t line : Text} (hline : line ∈ t.lines) {c : Char} (hc : c ∈ line) :
    c ∈ t := by
  induction t using induction_on_lines with
  | last a ha =>
    rw [lines_of_no_newline ha] at hline
    split at hline
    · cases hline
    · rwa [← List.mem_singleton.mp hline]
  | line a b ha ih =>
    rw [lines_first ha] at hline
    rw [List.mem_append, List.mem_cons]
    rcases List.mem_cons.mp hline with rfl | hline
    · exact .inl ((isInitial_dropReturn a).subset hc)
    · exact .inr (.inr (ih hline))

theorem no_newline_blankLiteralsFrom (s : QuoteState) {a : Text} (ha : '\n' ∉ a) :
    '\n' ∉ blankLiteralsFrom s a := by
  rw [← List.count_eq_zero] at ha ⊢
  rw [(blanking_blankLiteralsFrom s a).count_newline_eq, ha]

theorem mask_blankLiteralsFrom {s : QuoteState} {a : Text} (ha : '\n' ∉ a) (hback : '\\' ∉ a)
    (h : ClosesFrom s .outside a) : mask (blankLiteralsFrom s a) = mask a := by
  rw [mask_of_no_backslash hback,
    mask_of_no_backslash (no_backslash_of_blanking (blanking_blankLiteralsFrom s a) hback),
    maskFrom_blankLiteralsFrom ha h]

/-- The masked lines of a text that closes its literals on their lines do not depend on what the
literals hold. -/
theorem map_mask_lines_blankLiteralsFrom {s : QuoteState} {t : Text} (hback : '\\' ∉ t)
    (h : ClosesFrom s .outside t) :
    (blankLiteralsFrom s t).lines.map mask = t.lines.map mask := by
  induction t using induction_on_lines generalizing s with
  | last a ha =>
    rw [lines_of_no_newline ha, lines_of_no_newline (no_newline_blankLiteralsFrom s ha)]
    by_cases hnil : a = []
    · subst hnil
      rfl
    · have hpos := size_pos_of_ne_nil hnil
      rw [← (blanking_blankLiteralsFrom s a).size_eq] at hpos
      have hne : blankLiteralsFrom s a ≠ [] := by
        intro h
        rw [h] at hpos
        exact absurd hpos (by decide)
      rw [if_neg hnil, if_neg hne, List.map_singleton, List.map_singleton,
        mask_blankLiteralsFrom ha hback h]
  | line a b ha ih =>
    rw [closesFrom_append ha, ClosesFrom, if_pos rfl] at h
    obtain ⟨hfirst, hend, hrest⟩ := h
    have hstate : a.foldl (QuoteState.next .standard) s ≠ .inside .single :=
      fun hs => (hend hs).2 rfl
    rw [List.mem_append, List.mem_cons, not_or, not_or] at hback
    have hdropped : mask (blankLiteralsFrom s a.dropReturn) = mask a.dropReturn := by
      obtain ⟨rest, hrest⟩ := isInitial_dropReturn a
      rw [← hrest, List.mem_append, not_or] at ha hback
      rw [← hrest, closesFrom_append ha.1] at hfirst
      exact mask_blankLiteralsFrom ha.1 hback.1.1 hfirst.1
    rw [blankLiteralsFrom_append, blankLiteralsFrom_newline_cons,
      lines_first (no_newline_blankLiteralsFrom s ha), lines_first ha, List.map_cons,
      List.map_cons, ih hback.2.2 hrest, dropReturn_blankLiteralsFrom hstate, hdropped]

theorem closesFrom_content {c : Char} (hquote : c ≠ '\x27') (hnewline : c ≠ '\n')
    (l : LiteralState) (t : Text) :
    ClosesFrom (.inside .single) l (c :: t) ↔
      l = .inside ∧ ClosesFrom (.inside .single) .inside t := by
  rw [ClosesFrom, QuoteState.next_inside_single hquote, if_neg hnewline]
  constructor
  · rintro ⟨hinside, hrest⟩
    obtain ⟨rfl, -⟩ := hinside rfl
    rw [LiteralState.next, if_neg hquote] at hrest
    exact ⟨rfl, hrest⟩
  · rintro ⟨rfl, hrest⟩
    rw [LiteralState.next, if_neg hquote]
    exact ⟨fun _ => ⟨rfl, hnewline⟩, hrest⟩

theorem closesFrom_blanks (c : Char) (l : LiteralState) (t : Text) :
    ClosesFrom (.inside .single) l (blanks c ++ t) ↔
      l = .inside ∧ ClosesFrom (.inside .single) .inside t := by
  have hspaces : ∀ n l, ClosesFrom (.inside .single) l (List.replicate (n + 1) ' ' ++ t) ↔
      l = .inside ∧ ClosesFrom (.inside .single) .inside t := by
    intro n
    induction n with
    | zero => exact fun l => closesFrom_content (by decide) (by decide) l t
    | succ n ih =>
      intro l
      rw [List.replicate_succ, List.cons_append, closesFrom_content (by decide) (by decide), ih]
      simp
  have hpos := c.utf8Size_pos
  have hsize : c.utf8Size = c.utf8Size - 1 + 1 := by omega
  rw [blanks, hsize]
  exact hspaces _ l

/-- Whether literals close on their lines does not depend on what they hold. -/
theorem closesFrom_blankLiteralsFrom (s : QuoteState) (l : LiteralState) (t : Text) :
    ClosesFrom s l (blankLiteralsFrom s t) ↔ ClosesFrom s l t := by
  induction t generalizing s l with
  | nil => rfl
  | cons c rest ih =>
    rw [blankLiteralsFrom]
    by_cases hc : s.isContent c = true ∧ c ≠ '\n'
    · obtain ⟨rfl, hquote⟩ := QuoteState.of_isContent hc.1
      rw [if_pos hc, QuoteState.next_inside_single hquote, closesFrom_blanks, closesFrom_content hquote hc.2, ih]
    · rw [if_neg hc, List.singleton_append, ClosesFrom, ClosesFrom, ih]

/-- Texts of one outline have the same masked lines. -/
theorem map_mask_lines_eq {t u : Text} (ht : '\\' ∉ t) (hu : '\\' ∉ u)
    (hcloses : t.ClosesOnLines) (h : t.outline = u.outline) :
    t.lines.map mask = u.lines.map mask := by
  have hblank := blankLiterals_eq_of_outline_eq h
  have hcloses' : u.ClosesOnLines := by
    rw [ClosesOnLines, ← closesFrom_blankLiteralsFrom, ← blankLiterals] at hcloses ⊢
    rwa [← hblank]
  rw [← map_mask_lines_blankLiteralsFrom ht hcloses,
    ← map_mask_lines_blankLiteralsFrom hu hcloses', ← blankLiterals, ← blankLiterals, hblank]

end Text
end SqlAudit
