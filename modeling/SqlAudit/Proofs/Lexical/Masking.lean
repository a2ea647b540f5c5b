import SqlAudit.Proofs.Lexical.Geometry

/-!
Masks.  A mask keeps every offset of its text, and masking it again changes nothing, whichever
convention for backslashes the second mask settles on.

The scan behind a mask knows single quotes only.  What it hides is compared here with the reading
that knows all three quotes: they agree exactly when the single quotes in a run of double quotes or
backticks come in pairs, with nothing but spaces between the two of a pair.
-/

namespace SqlAudit

open Text

/-- What is not a space stands behind all spaces at the start. -/
theorem Text.exists_of_blanks_append_eq {c d : Char} (hc : c ≠ ' ') {u front back : Text}
    (h : blanks d ++ u = front ++ c :: back) :
    ∃ more, front = blanks d ++ more ∧ u = more ++ c :: back := by
  rcases List.append_eq_append_iff.mp h with ⟨more, hfront, hu⟩ | ⟨more, hblanks, hback⟩
  · exact ⟨more, hfront, hu⟩
  · cases more with
    | nil => exact ⟨[], by simpa using hblanks.symm, hback.symm⟩
    | cons e more =>
      obtain ⟨rfl, -⟩ := List.cons.inj hback
      have hmem : c ∈ blanks d := by
        rw [hblanks]
        exact List.mem_append_right _ List.mem_cons_self
      exact absurd (List.eq_of_mem_replicate hmem) hc

/-- The second text is the first one with spaces in place of some of its characters. -/
inductive Spaced : Text → Text → Prop where
  | nil : Spaced [] []
  | keep (c : Char) {t u : Text} : Spaced t u → Spaced (c :: t) (c :: u)
  | blank (c : Char) {t u : Text} : Spaced t u → Spaced (c :: t) (blanks c ++ u)

namespace Spaced

variable {t u : Text}

theorem size_eq (h : Spaced t u) : u.size = t.size := by
  induction h with
  | nil => rfl
  | keep c _ ih => rw [size_cons, size_cons, ih]
  | blank c _ ih => rw [size_append, size_blanks, size_cons, ih]

theorem forall₂_bytes (h : Spaced t u) :
    List.Forall₂ (fun b b' => b' = b ∨ b' = spaceByte) t.bytes u.bytes := by
  induction h with
  | nil => exact .nil
  | keep c _ ih =>
    rw [bytes_cons, bytes_cons]
    exact List.rel_append (List.forall₂_same.mpr fun b _ => .inl rfl) ih
  | blank c _ ih =>
    rw [bytes_cons, bytes_append, bytes_blanks]
    refine List.rel_append ?_ ih
    rw [List.forall₂_map_right_iff]
    exact List.forall₂_same.mpr fun b _ => .inr rfl

theorem getElem?_bytes (h : Spaced t u) (offset : Nat) :
    u.bytes[offset]? = t.bytes[offset]? ∨ u.bytes[offset]? = some spaceByte := by
  rcases getElem?_of_forall₂ h.forall₂_bytes offset with heq | ⟨b, b', hb, hb', hspaced⟩
  · exact .inl heq
  · rw [hb, hb']
    exact hspaced.imp (congrArg some) (congrArg some)

/-- What is not a space was there before, behind as many bytes. -/
theorem exists_append_cons (h : Spaced t u) {front back : Text} {c : Char}
    (hu : u = front ++ c :: back) (hc : c ≠ ' ') :
    ∃ front' back', t = front' ++ c :: back' ∧ Spaced front' front ∧ Spaced back' back := by
  induction h generalizing front with
  | nil => exact absurd hu (by simp)
  | @keep d t u h ih =>
    cases front with
    | nil =>
      obtain ⟨rfl, rfl⟩ := List.cons.inj hu
      exact ⟨[], t, rfl, .nil, h⟩
    | cons e front =>
      obtain ⟨rfl, hrest⟩ := List.cons.inj hu
      obtain ⟨front', back', rfl, hfront, hback⟩ := ih hrest
      exact ⟨d :: front', back', rfl, .keep d hfront, hback⟩
  | @blank d t u h ih =>
    obtain ⟨more, rfl, hrest⟩ := exists_of_blanks_append_eq hc hu
    obtain ⟨front', back', rfl, hfront, hback⟩ := ih hrest
    exact ⟨d :: front', back', rfl, .blank d hfront, hback⟩

end Spaced

namespace Text

theorem spaced_maskFrom (escapes : Escapes) (l : LiteralState) (t : Text) :
    Spaced t (maskFrom escapes l t) := by
  induction t generalizing l with
  | nil =>
    rw [maskFrom]
    exact .nil
  | cons c rest ih =>
    rw [maskFrom_step]
    by_cases hc : l.hides c = true
    · rw [if_pos hc]
      exact .blank c (ih _)
    · rw [if_neg hc]
      exact .keep c (ih _)

/-- What a mask shows, but for spaces and quotes, stands outside literals in the text, behind as many
bytes. -/
theorem exists_of_maskFrom_eq {escapes : Escapes} {l : LiteralState} {t front back : Text}
    {c : Char} (h : maskFrom escapes l t = front ++ c :: back) (hspace : c ≠ ' ')
    (hquote : c ≠ '\x27') :
    ∃ before after, t = before ++ c :: after ∧ size before = size front ∧
      maskFrom escapes .outside after = back := by
  induction t generalizing l front with
  | nil =>
    rw [maskFrom] at h
    simp at h
  | cons d rest ih =>
    rw [maskFrom_step] at h
    by_cases hd : l.hides d = true
    · rw [if_pos hd] at h
      obtain ⟨more, rfl, hrest⟩ := exists_of_blanks_append_eq hspace h
      obtain ⟨before, after, rfl, hsize, hafter⟩ := ih hrest
      exact ⟨d :: before, after, rfl, by simp [hsize], hafter⟩
    · rw [if_neg hd] at h
      cases front with
      | nil =>
        obtain ⟨rfl, hback⟩ := List.cons.inj h
        have houtside : l.nextUnder escapes d = .outside := by
          cases l <;> simp_all [LiteralState.hides, LiteralState.nextUnder, LiteralState.next]
        rw [houtside] at hback
        exact ⟨[], rest, rfl, rfl, hback⟩
      | cons e front =>
        obtain ⟨rfl, hrest⟩ := List.cons.inj h
        obtain ⟨before, after, rfl, hsize, hafter⟩ := ih hrest
        exact ⟨d :: before, after, rfl, by simp [hsize], hafter⟩

/-- Up to the next quote a mask shows the text itself, where it is outside literals. -/
theorem exists_of_maskFrom_outside_eq {escapes : Escapes} {t front back : Text}
    (h : maskFrom escapes .outside t = front ++ back) (hfront : '\x27' ∉ front) :
    ∃ after, t = front ++ after := by
  induction front generalizing t with
  | nil => exact ⟨t, rfl⟩
  | cons c front ih =>
    obtain ⟨hc, hmore⟩ := List.ne_and_not_mem_of_not_mem_cons hfront
    cases t with
    | nil =>
      rw [maskFrom] at h
      cases h
    | cons d rest =>
      rw [maskFrom] at h
      obtain ⟨rfl, hrest⟩ := List.cons.inj h
      rw [if_neg (Ne.symm hc)] at hrest
      obtain ⟨after, rfl⟩ := ih hrest hmore
      exact ⟨after, rfl⟩

end Text

/-! ## Masks of masks -/

/-- Where the scan over a mask stands when the scan over the text stands here: the mask has no
escapes. -/
def LiteralState.shown : LiteralState → LiteralState
  | .outside => .outside
  | .inside => .inside
  | .escaped => .inside

namespace LiteralState

theorem of_hides {l : LiteralState} {c : Char} (h : l.hides c = true) (escapes : Escapes) :
    l.shown = .inside ∧ (l.nextUnder escapes c).shown = .inside := by
  cases l with
  | outside => cases h
  | inside =>
    have hc : c ≠ '\x27' := by simpa [hides] using h
    refine ⟨rfl, ?_⟩
    rw [nextUnder]
    split
    · rfl
    · simp [next, hc, shown]
  | escaped => exact ⟨rfl, by simp [nextUnder, next, shown]⟩

theorem of_not_hides {l : LiteralState} {c : Char} (h : ¬ l.hides c = true)
    (escapes escapes' : Escapes) :
    l.shown.hides c = false ∧ l.shown.nextUnder escapes' c = (l.nextUnder escapes c).shown := by
  cases l with
  | outside =>
    refine ⟨rfl, ?_⟩
    by_cases hc : c = '\x27' <;> simp [shown, nextUnder, next, hc]
  | inside =>
    have hc : c = '\x27' := by simpa [hides] using h
    subst hc
    simp [shown, hides, nextUnder, next]
  | escaped => exact absurd rfl h

end LiteralState

namespace Text

/-- Between the quotes of a mask there are spaces only, so no convention finds more to hide. -/
theorem maskFrom_maskFrom (escapes escapes' : Escapes) (l : LiteralState) (t : Text) :
    maskFrom escapes' l.shown (maskFrom escapes l t) = maskFrom escapes l t := by
  induction t generalizing l with
  | nil => simp [maskFrom]
  | cons c rest ih =>
    have hrest := ih (l.nextUnder escapes c)
    rw [maskFrom_step]
    by_cases hc : l.hides c = true
    · obtain ⟨hbefore, hafter⟩ := LiteralState.of_hides hc escapes
      rw [hafter] at hrest
      rw [if_pos hc, hbefore, maskFrom_blanks_append, hrest]
    · obtain ⟨hkept, hnext⟩ := LiteralState.of_not_hides hc escapes escapes'
      rw [if_neg hc, List.singleton_append, maskFrom_step, hkept, hnext, hrest]
      rfl

/-- A mask has the length of its text, each of its bytes is the byte of the text at the same offset
or a space, and a character in it that is no space stands where it stood.  The mask of a mask is the
mask itself. -/
theorem mask_geometry (t : Text) :
    t.mask.bytes.length = t.bytes.length ∧
      (∀ offset : Nat, t.mask.bytes[offset]? = t.bytes[offset]? ∨
        t.mask.bytes[offset]? = some spaceByte) ∧
      (∀ front c back, t.mask = front ++ c :: back → c ≠ ' ' →
        ∃ front' back', t = front' ++ c :: back' ∧ size front' = size front ∧
          size back' = size back) ∧
      t.mask.mask = t.mask := by
  have hspaced : Spaced t t.mask := spaced_maskFrom _ _ _
  refine ⟨hspaced.forall₂_bytes.length_eq.symm, hspaced.getElem?_bytes, ?_,
    maskFrom_maskFrom t.escapes t.mask.escapes .outside t⟩
  intro front c back hmask hc
  obtain ⟨front', back', ht, hfront, hback⟩ := hspaced.exists_append_cons hmask hc
  exact ⟨front', back', ht, hfront.size_eq.symm, hback.size_eq.symm⟩

/-- The accented letter has two bytes, so two spaces stand for it. -/
example : mask "a = 'h\u00e9' b".toList = "a = '   ' b".toList := by decide

end Text

/-! ## Masks and quoted runs -/

namespace QuoteState

/-- Whether a character read in this state stands strictly inside a single-quoted run. -/
def hides : QuoteState → Char → Bool
  | .inside .single, c => c ≠ '\x27'
  | .escaped .single, _ => true
  | _, _ => false

/-- Whether the scan stands in a run of double quotes or backticks. -/
def inName : QuoteState → Bool
  | .inside quote => quote ≠ .single
  | .escaped quote => quote ≠ .single
  | .code => false

/-- Where a scan that knows single quotes only stands when it is in step. -/
def literal : QuoteState → LiteralState
  | .inside .single => .inside
  | .escaped .single => .escaped
  | _ => .outside

end QuoteState

namespace Text

def maskRunsFrom (escapes : Escapes) : QuoteState → Text → Text
  | _, [] => []
  | s, c :: rest =>
    (if s.hides c then blanks c else [c]) ++ maskRunsFrom escapes (s.next escapes c) rest

/-- Blanks what stands strictly inside the single-quoted runs of a text, as the reading finds them
that knows all quotes. -/
def maskRuns (t : Text) : Text := maskRunsFrom t.escapes .code t

/-- In runs of double quotes and backticks, spaces and single quotes alone stand behind an odd number
of single quotes of the run. -/
def QuotesPairedFrom (escapes : Escapes) : QuoteState → (odd : Bool) → Text → Prop
  | _, _, [] => True
  | s, odd, c :: rest =>
    (odd = true → c = ' ' ∨ c = '\x27') ∧
      QuotesPairedFrom escapes (s.next escapes c) (xor odd (s.inName && c == '\x27')) rest

def QuotesPaired (t : Text) : Prop := QuotesPairedFrom t.escapes .code false t

instance decidableQuotesPairedFrom (escapes : Escapes) :
    (s : QuoteState) → (odd : Bool) → (t : Text) → Decidable (QuotesPairedFrom escapes s odd t)
  | _, _, [] => isTrue trivial
  | s, odd, c :: rest =>
    have := decidableQuotesPairedFrom escapes (s.next escapes c)
      (xor odd (s.inName && c == '\x27')) rest
    inferInstanceAs (Decidable (_ ∧ _))

instance (t : Text) : Decidable t.QuotesPaired := decidableQuotesPairedFrom _ _ _ t

end Text

namespace QuoteState

theorem hides_literal (s : QuoteState) (c : Char) : s.literal.hides c = s.hides c := by
  cases s with
  | code => rfl
  | inside quote => cases quote <;> rfl
  | escaped quote => cases quote <;> rfl

theorem literal_of_inName {s : QuoteState} (h : s.inName = true) : s.literal = .outside := by
  cases s with
  | code => rfl
  | inside quote =>
    cases quote with
    | single => cases h
    | double => rfl
    | backtick => rfl
  | escaped quote =>
    cases quote with
    | single => cases h
    | double => rfl
    | backtick => rfl

/-- A run of other quotes ends in code, so no single-quoted run starts at its end. -/
theorem literal_next_of_inName {s : QuoteState} (h : s.inName = true) (escapes : Escapes)
    (c : Char) : (s.next escapes c).literal = .outside := by
  cases s with
  | code => cases h
  | inside quote =>
    rw [next]
    split
    · exact literal_of_inName (s := .escaped quote) h
    · split
      · rfl
      · exact literal_of_inName (s := .inside quote) h
  | escaped quote => exact literal_of_inName (s := .inside quote) h

/-- The two scans stay in step, but for a single quote in a run of other quotes. -/
theorem nextUnder_literal (escapes : Escapes) (s : QuoteState) (c : Char) :
    s.literal.nextUnder escapes c =
      if s.inName && c == '\x27' then .inside else (s.next escapes c).literal := by
  by_cases hs : s.inName = true
  · rw [literal_of_inName hs, literal_next_of_inName hs, hs]
    by_cases hc : c = '\x27' <;> simp [hc, LiteralState.nextUnder, LiteralState.next]
  rw [Bool.eq_false_iff.mpr hs]
  show s.literal.nextUnder escapes c = (s.next escapes c).literal
  cases s with
  | code =>
    by_cases hsingle : c = '\x27'
    · simp [hsingle, literal, LiteralState.nextUnder, LiteralState.next, next, Quote.ofChar?]
    · have hopened : (next escapes .code c).literal = .outside := by
        by_cases hdouble : c = '\x22'
        · simp [hdouble, next, Quote.ofChar?, literal]
        · by_cases hback : c = '\x60' <;>
            simp [hsingle, hdouble, hback, next, Quote.ofChar?, literal]
      rw [hopened]
      simp [hsingle, literal, LiteralState.nextUnder, LiteralState.next]
  | inside quote =>
    have hquote : quote = .single := by simpa [inName] using hs
    subst hquote
    by_cases hescape : escapes = .backslash ∧ c = '\\'
    · simp [hescape, literal, LiteralState.nextUnder, next]
    · have hplain : ¬ (c = '\\' ∧ escapes = .backslash ∧ Quote.single ≠ .backtick) :=
        fun h => hescape ⟨h.2.1, h.1⟩
      rw [next, if_neg hplain, LiteralState.nextUnder, if_neg fun h => hescape ⟨h.1, h.2.2⟩]
      by_cases hc : c = '\x27' <;> simp [hc, literal, LiteralState.next, Quote.char]
  | escaped quote =>
    have hquote : quote = .single := by simpa [inName] using hs
    subst hquote
    simp [literal, LiteralState.nextUnder, LiteralState.next, next]

theorem next_inside_of_inName {quote : Quote} (hquote : quote ≠ .single) (escapes : Escapes)
    {c : Char} (hc : c = ' ' ∨ c = '\x27') : next escapes (.inside quote) c = .inside quote := by
  have hescape : c ≠ '\\' := by rcases hc with rfl | rfl <;> simp
  have hclose : c ≠ quote.char := by
    rintro rfl
    cases quote with
    | single => exact hquote rfl
    | double => exact absurd hc (by decide)
    | backtick => exact absurd hc (by decide)
  simp [next, hescape, hclose]

theorem exists_next_of_inName {s : QuoteState} (h : s.inName = true) (escapes : Escapes) {c : Char}
    (hc : c = '\x27') : ∃ quote, quote ≠ .single ∧ s.next escapes c = .inside quote := by
  cases s with
  | code => cases h
  | inside quote =>
    have hquote : quote ≠ .single := by simpa [inName] using h
    exact ⟨quote, hquote, next_inside_of_inName hquote escapes (.inr hc)⟩
  | escaped quote => exact ⟨quote, by simpa [inName] using h, rfl⟩

end QuoteState

namespace Text

/-- Behind an odd number of single quotes in a run of other quotes, the scan that knows single quotes
only stands inside; else it is in step. -/
theorem maskFrom_eq_maskRunsFrom_iff (escapes : Escapes) (s : QuoteState) (odd : Bool)
    (hodd : odd = true → ∃ quote, quote ≠ .single ∧ s = .inside quote) (t : Text) :
    maskFrom escapes (if odd then .inside else s.literal) t = maskRunsFrom escapes s t ↔
      QuotesPairedFrom escapes s odd t := by
  induction t generalizing s odd with
  | nil => simp [maskFrom, maskRunsFrom, QuotesPairedFrom]
  | cons c rest ih =>
    rw [maskRunsFrom, QuotesPairedFrom, maskFrom_step]
    cases odd with
    | false =>
      have hname : (s.inName && c == '\x27') = true →
          ∃ quote, quote ≠ .single ∧ s.next escapes c = .inside quote := by
        intro h
        rw [Bool.and_eq_true, beq_iff_eq] at h
        exact QuoteState.exists_next_of_inName h.1 escapes h.2
      have hrest := ih (s.next escapes c) (s.inName && c == '\x27') hname
      rw [← QuoteState.nextUnder_literal] at hrest
      simp [QuoteState.hides_literal, hrest]
    | true =>
      obtain ⟨quote, hquote, rfl⟩ := hodd rfl
      have hkept : QuoteState.hides (.inside quote) c = false := by
        cases quote with
        | single => exact absurd rfl hquote
        | double => rfl
        | backtick => rfl
      have hname : QuoteState.inName (.inside quote) = true := by
        simpa [QuoteState.inName] using hquote
      rw [hkept, hname]
      by_cases hspace : c = ' '
      · subst hspace
        have hblanks : blanks ' ' = [' '] := by decide
        have hinside : LiteralState.inside.nextUnder escapes ' ' = .inside := if_neg (by simp)
        have hrest := ih (.inside quote) true hodd
        rw [QuoteState.next_inside_of_inName hquote escapes (.inl rfl)]
        simpa [hblanks, hinside] using hrest
      · by_cases hsingle : c = '\x27'
        · subst hsingle
          have houtside : LiteralState.inside.nextUnder escapes '\x27' = .outside := by
            simp [LiteralState.nextUnder, LiteralState.next]
          have hrest := ih (.inside quote) false (by simp)
          rw [QuoteState.literal_of_inName hname] at hrest
          rw [QuoteState.next_inside_of_inName hquote escapes (.inr rfl)]
          simpa [houtside, LiteralState.hides] using hrest
        · -- The one scan writes spaces, and the other one keeps the character.
          constructor
          · intro h
            rw [if_pos rfl, if_pos (by simpa [LiteralState.hides] using hsingle)] at h
            exact absurd (eq_space_of_blanks_append h) hspace
          · rintro ⟨h, -⟩
            rcases h rfl with h | h
            · exact absurd h hspace
            · exact absurd h hsingle

/-- The mask of a text hides what stands strictly inside its single-quoted runs, and nothing else,
exactly when the single quotes in its other runs are paired. -/
theorem mask_eq_maskRuns_iff (t : Text) : t.mask = t.maskRuns ↔ t.QuotesPaired :=
  maskFrom_eq_maskRunsFrom_iff t.escapes .code false (by simp) t

/-- A quoted name with an apostrophe hides the statement behind it. -/
theorem mask_hides_statement :
    ¬ QuotesPaired "SELECT \"it's\"; DROP TABLE x".toList ∧
      mask "SELECT \"it's\"; DROP TABLE x".toList ≠
        maskRuns "SELECT \"it's\"; DROP TABLE x".toList ∧
      mask "SELECT \"it's\"; DROP TABLE x".toList = "SELECT \"it'                ".toList := by
  have hpaired : ¬ QuotesPaired "SELECT \"it's\"; DROP TABLE x".toList := by decide
  exact ⟨hpaired, fun h => hpaired ((mask_eq_maskRuns_iff _).mp h), by decide⟩

end Text
end SqlAudit
