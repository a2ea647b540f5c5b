import SqlAudit.Proofs.Pattern.Evaluation
import SqlAudit.Proofs.Text.Identifier

/-!
Stretches of a text that a search passes over.  Most patterns start with a whole word; a search for
such a pattern only has to look where one of its words stands.
-/

namespace SqlAudit

open Text

namespace Pattern

theorem matchAt?_eq_map_first? (p : Pattern) (c : Cursor) :
    p.matchAt? c = (p.first? some ⟨c, []⟩).map fun w => ⟨c, w.cursor, w.captures⟩ := by
  rw [matchAt?, first?]
  cases p.ways ⟨c, []⟩ <;> rfl

theorem matchAt?_of_first? {p : Pattern} {c : Cursor} {w : Way}
    (h : p.first? some ⟨c, []⟩ = some w) : p.matchAt? c = some ⟨c, w.cursor, w.captures⟩ := by
  rw [matchAt?_eq_map_first?, h]
  rfl

theorem matchAt?_eq_none {p : Pattern} {c : Cursor} (h : p.first? some ⟨c, []⟩ = none) :
    p.matchAt? c = none := by
  rw [matchAt?_eq_map_first?, h]
  rfl

theorem exists_matchAt? {p : Pattern} {c : Cursor} {P : Match → Prop} {w : Way}
    (h : p.first? some ⟨c, []⟩ = some w) (hP : P ⟨c, w.cursor, w.captures⟩) :
    ∃ m, p.matchAt? c = some m ∧ P m := ⟨_, matchAt?_of_first? h, hP⟩

/-! ## Patterns bound to the start -/

theorem findBetween?_start_eq_none (ps : List Pattern) {before : Text} (hbefore : before ≠ [])
    (t : Text) : (all (start :: ps)).findBetween? before t = none := by
  have hnone : ∀ (b a : Text), b ≠ [] → (all (start :: ps)).matchAt? ⟨b, a⟩ = none := by
    intro b a hb
    apply matchAt?_eq_none
    rw [first?_all_cons, first?_start, if_neg (by simpa using hb)]
  induction t generalizing before with
  | nil => rw [findBetween?, hnone _ _ hbefore]
  | cons c rest ih =>
    rw [findBetween?, hnone _ _ hbefore]
    exact ih (List.cons_ne_nil _ _)

/-- A pattern that is bound to the start of a text is looked for there only. -/
theorem find?_start (ps : List Pattern) (t : Text) :
    (all (start :: ps)).find? t = (all (start :: ps)).matchAt? (Cursor.first t) := by
  cases t with
  | nil => rfl
  | cons c rest =>
    rw [find?, findFrom?, Cursor.first, findBetween?]
    cases (all (start :: ps)).matchAt? ⟨[], c :: rest⟩ with
    | some m => rfl
    | none => exact findBetween?_start_eq_none ps (List.cons_ne_nil _ _) rest

theorem find?_start_of_first? {ps : List Pattern} {t : Text} {w : Way}
    (h : (all ps).first? some ⟨⟨[], t⟩, []⟩ = some w) :
    (all (start :: ps)).find? t = some ⟨Cursor.first t, w.cursor, w.captures⟩ := by
  rw [find?_start]
  apply matchAt?_of_first?
  rw [first?_all_cons, first?_start]
  exact h

theorem exists_find?_start {ps : List Pattern} {t : Text} {P : Match → Prop} {w : Way}
    (h : (all ps).first? some ⟨⟨[], t⟩, []⟩ = some w)
    (hP : P ⟨Cursor.first t, w.cursor, w.captures⟩) :
    ∃ m, (all (start :: ps)).find? t = some m ∧ P m :=
  ⟨_, find?_start_of_first? h, hP⟩

theorem find?_start_eq_none {ps : List Pattern} {t : Text}
    (h : (all ps).first? some ⟨⟨[], t⟩, []⟩ = none) : (all (start :: ps)).find? t = none := by
  rw [find?_start]
  apply matchAt?_eq_none
  rw [first?_all_cons, first?_start]
  exact h

theorem find?_start_word_eq_none {s : String} {ps : List Pattern} {t : Text}
    (h : opens s.toList t = false) : (all (start :: word s :: ps)).find? t = none := by
  apply find?_start_eq_none
  rw [first?_all_cons, first?_word_eq_none h]

/-! ## Stretches without a match -/

/-- A pattern matches nowhere in a stretch of text, given what stands before and after it. -/
def Skips (p : Pattern) : (before t rest : Text) → Prop
  | _, [], _ => True
  | before, c :: t, rest =>
    p.matchAt? ⟨before, c :: (t ++ rest)⟩ = none ∧ Skips p (c :: before) t rest

variable {p : Pattern} {before t rest : Text}

theorem skips_append {u : Text} : p.Skips before (t ++ u) rest ↔
    p.Skips before t (u ++ rest) ∧ p.Skips (t.reverse ++ before) u rest := by
  induction t generalizing before with
  | nil => simp [Skips]
  | cons c t ih =>
    rw [List.cons_append, Skips, Skips, ih, List.append_assoc, List.reverse_cons,
      List.append_assoc, List.singleton_append, and_assoc]

theorem findBetween?_of_skips (h : p.Skips before t rest) :
    p.findBetween? before (t ++ rest) = p.findBetween? (t.reverse ++ before) rest := by
  induction t generalizing before with
  | nil => rfl
  | cons c t ih =>
    obtain ⟨hnone, hskips⟩ := h
    rw [List.cons_append, findBetween?, hnone, List.reverse_cons, List.append_assoc]
    exact ih hskips

theorem findBetween?_of_matchAt? {found : Match} (h : p.matchAt? ⟨before, t⟩ = some found) :
    p.findBetween? before t = some found := by
  cases t with
  | nil => rw [findBetween?, h]
  | cons c rest => rw [findBetween?, h]

theorem findUpTo_of_skips (h : p.Skips before t rest) (count : Nat) :
    p.findUpTo count ⟨before, t ++ rest⟩ = p.findUpTo count ⟨t.reverse ++ before, rest⟩ := by
  cases count with
  | zero => rfl
  | succ count =>
    have hfind : p.findFrom? ⟨before, t ++ rest⟩ = p.findFrom? ⟨t.reverse ++ before, rest⟩ :=
      findBetween?_of_skips h
    rw [findUpTo, findUpTo, hfind]

theorem findUpTo_of_matchAt? {c : Cursor} {m : Match} (h : p.matchAt? c = some m) (count : Nat) :
    p.findUpTo (count + 1) c = m :: p.findUpTo count m.stop := by
  have hfind : p.findFrom? c = some m := findBetween?_of_matchAt? h
  rw [findUpTo, hfind]

/-! ## Patterns that start with a word -/

/-- A text starts with a whole word, in any case. -/
def StartsWord (letters : List Char) (t : Text) : Prop :=
  opens letters t = true ∧ Stops isWordChar (t.drop letters.length)

def SameWord (letters w : List Char) : Prop :=
  letters.length = w.length ∧ opens letters w = true

instance (letters w : List Char) : Decidable (SameWord letters w) :=
  inferInstanceAs (Decidable (_ ∧ _))

/-- A word at the start of a text is all the word characters there. -/
theorem sameWord_of_startsWord {letters w : List Char}
    (hletters : ∀ c ∈ letters, isIdentifierChar c = true) (hw : ∀ c ∈ w, isWordChar c = true)
    (hrest : Stops isWordChar rest) (h : StartsWord letters (w ++ rest)) :
    SameWord letters w := by
  obtain ⟨hopens, hstops⟩ := h
  induction letters generalizing w with
  | nil =>
    cases w with
    | nil => exact ⟨rfl, rfl⟩
    | cons c w =>
      rw [List.length_nil, List.drop_zero, List.cons_append, stops_cons,
        hw c List.mem_cons_self] at hstops
      cases hstops
  | cons letter letters ih =>
    have hletter := hletters letter List.mem_cons_self
    cases w with
    | nil =>
      cases rest with
      | nil => cases hopens
      | cons c rest =>
        rw [List.nil_append, opens, Bool.and_eq_true] at hopens
        rw [stops_cons, isWordChar_of_sameLetter hletter hopens.1] at hrest
        cases hrest
    | cons c w =>
      rw [List.cons_append, opens, Bool.and_eq_true] at hopens
      obtain ⟨hlength, hw'⟩ := ih (fun d hd => hletters d (List.mem_cons_of_mem _ hd))
        (fun d hd => hw d (List.mem_cons_of_mem _ hd)) hopens.2 (by simpa using hstops)
      exact ⟨by simp [hlength], by rw [opens, hopens.1, hw']; rfl⟩

section

variable {β : Type} {k : Way → Option β} {captures : List Capture} {s : String}

/-- Letters that open a text are word characters of it. -/
theorem isWordChar_of_opens {letters : List Char}
    (hletters : ∀ c ∈ letters, isIdentifierChar c = true) (h : opens letters t = true) :
    (t.take letters.length).length = letters.length ∧
      ∀ c ∈ t.take letters.length, isWordChar c = true := by
  induction letters generalizing t with
  | nil => simp
  | cons letter letters ih =>
    cases t with
    | nil => cases h
    | cons c t =>
      rw [opens, Bool.and_eq_true] at h
      obtain ⟨hlength, hchars⟩ := ih (fun d hd => hletters d (List.mem_cons_of_mem _ hd)) h.2
      rw [List.length_cons, List.take_succ_cons, List.length_cons, hlength]
      refine ⟨rfl, fun d hd => ?_⟩
      rcases List.mem_cons.mp hd with rfl | hd
      · exact isWordChar_of_sameLetter (hletters letter List.mem_cons_self) h.1
      · exact hchars d hd

theorem startsWord_of_gap (h : (word s).first? (gap.first? k) ⟨⟨before, t⟩, captures⟩ ≠ none) :
    StartsWord s.toList t := by
  rw [first?_word] at h
  by_cases hopens : opens s.toList t = true
  · refine ⟨hopens, fun c hc => ?_⟩
    rw [if_pos hopens] at h
    cases hblank : isBlank c with
    | true => exact isWordChar_eq_false_of_isBlank hblank
    | false =>
      refine absurd (first?_gap_eq_none fun d hd => ?_) h
      rw [hc] at hd
      cases hd
      exact hblank
  · rw [if_neg hopens] at h
    exact absurd rfl h

/-- Before letters that open a text there is an edge unless a word goes on there. -/
theorem atEdge_iff_of_opens {letters : List Char} (hne : letters ≠ [])
    (hletters : ∀ c ∈ letters, isIdentifierChar c = true) (h : opens letters t = true) :
    Cursor.atEdge ⟨before, t⟩ = true ↔ Stops isWordChar before := by
  obtain ⟨letter, more, rfl⟩ := List.exists_cons_of_ne_nil hne
  have hafter : t.head?.any isWordChar = true := by
    cases t with
    | nil => cases h
    | cons c t =>
      rw [opens, Bool.and_eq_true] at h
      exact isWordChar_of_sameLetter (hletters letter List.mem_cons_self) h.1
  rw [stops_iff_any_head?, Cursor.atEdge, hafter]
  simp

/-- After letters that open a text there is an edge unless the word goes on. -/
theorem atEdge_drop_iff_of_opens {letters : List Char} (hne : letters ≠ [])
    (hletters : ∀ c ∈ letters, isIdentifierChar c = true) (h : opens letters t = true)
    (b : Text) :
    Cursor.atEdge ⟨(t.take letters.length).reverse ++ b, t.drop letters.length⟩ = true ↔
      Stops isWordChar (t.drop letters.length) := by
  obtain ⟨hlength, hchars⟩ := isWordChar_of_opens hletters h
  have hlast : ((t.take letters.length).reverse ++ b).head?.any isWordChar = true := by
    cases hreverse : (t.take letters.length).reverse with
    | nil =>
      rw [List.reverse_eq_nil_iff] at hreverse
      rw [hreverse, List.length_nil] at hlength
      exact absurd (List.eq_nil_of_length_eq_zero hlength.symm) hne
    | cons d others =>
      have hd : d ∈ t.take letters.length := by
        rw [← List.mem_reverse, hreverse]
        exact List.mem_cons_self
      simpa using hchars d hd
  rw [stops_iff_any_head?, Cursor.atEdge, hlast]
  simp

theorem startsWord_of_edge (hs : s.toList ≠ [])
    (hletters : ∀ c ∈ s.toList, isIdentifierChar c = true)
    (h : (word s).first? (edge.first? k) ⟨⟨before, t⟩, captures⟩ ≠ none) :
    StartsWord s.toList t := by
  rw [first?_word] at h
  by_cases hopens : opens s.toList t = true
  · have hedge := atEdge_drop_iff_of_opens hs hletters hopens before
    rw [if_pos hopens, first?_edge] at h
    refine ⟨hopens, Decidable.byContradiction fun hgoes => ?_⟩
    exact h (if_neg (mt hedge.mp hgoes))
  · rw [if_neg hopens] at h
    exact absurd rfl h

end

theorem first?_edge_after_word {β : Type} {k : Way → Option β} {captures : List Capture}
    (hbefore : before.head?.any isWordChar = true) (hrest : Stops isWordChar rest) :
    edge.first? k ⟨⟨before, rest⟩, captures⟩ = k ⟨⟨before, rest⟩, captures⟩ := by
  have hafter := (stops_iff_any_head? isWordChar rest).mp hrest
  rw [first?_edge, if_pos (by rw [Cursor.atEdge, hbefore, hafter]; rfl)]

theorem Identifier.sameLetters_of_sameWord {x : Identifier} {letters : List Char}
    (h : SameWord letters x.text) : sameLetters x.text letters = true := by
  have hchars := fun c hc => x.isIdentifierChar_of_mem (c := c) hc
  revert h hchars
  generalize x.text = w
  intro ⟨hlength, hopens⟩ hchars
  rw [sameLetters, beq_iff_eq]
  induction letters generalizing w with
  | nil =>
    rw [List.eq_nil_of_length_eq_zero hlength.symm]
  | cons letter letters ih =>
    cases w with
    | nil => cases hlength
    | cons c w =>
      rw [opens, Bool.and_eq_true,
        sameLetter_eq_of_isIdentifierChar (hchars c List.mem_cons_self), beq_iff_eq] at hopens
      rw [List.map_cons, List.map_cons, hopens.1,
        ih w (by simpa using hlength) hopens.2 fun d hd => hchars d (List.mem_cons_of_mem _ hd)]

def isPhraseWord (s : String) : Bool := !s.toList.isEmpty && s.toList.all isIdentifierChar

theorem of_isPhraseWord {s : String} (h : isPhraseWord s = true) :
    s.toList ≠ [] ∧ ∀ c ∈ s.toList, isIdentifierChar c = true := by
  simpa [isPhraseWord] using h

theorem isWordChar_of_isPhraseWord {s : String} (h : isPhraseWord s = true) :
    ∀ c ∈ s.toList, isWordChar c = true :=
  fun c hc => isWordChar_of_isIdentifierChar ((of_isPhraseWord h).2 c hc)

/-- No word opens a text that does not go on with one. -/
theorem opens_eq_false_of_stops {s : String} (hs : isPhraseWord s = true)
    (ht : Stops isWordChar t) :
    opens s.toList t = false := by
  obtain ⟨hne, hletters⟩ := of_isPhraseWord hs
  obtain ⟨letter, letters, hcons⟩ := List.exists_cons_of_ne_nil hne
  rw [hcons] at hletters ⊢
  cases t with
  | nil => rfl
  | cons c t =>
    rw [opens, Bool.and_eq_false_iff, Bool.eq_false_iff]
    refine .inl fun hsame => ?_
    rw [stops_cons, isWordChar_of_sameLetter (hletters letter List.mem_cons_self) hsame] at ht
    cases ht

section

variable {β : Type} {k : Way → Option β} {captures : List Capture} {s : String}
  (hs : isPhraseWord s = true)

include hs

theorem first?_edge_before (hbefore : Stops isWordChar before) :
    edge.first? k ⟨⟨before, s.toList ++ t⟩, captures⟩ = k ⟨⟨before, s.toList ++ t⟩, captures⟩ := by
  obtain ⟨hne, hletters⟩ := of_isPhraseWord hs
  rw [first?_edge, if_pos]
  exact (atEdge_iff_of_opens hne hletters (opens_append_self _ _)).mpr hbefore

theorem first?_edge_after (hrest : Stops isWordChar rest) :
    edge.first? k ⟨⟨s.toList.reverse ++ before, rest⟩, captures⟩ =
      k ⟨⟨s.toList.reverse ++ before, rest⟩, captures⟩ := by
  have hne : s.toList.reverse ≠ [] := mt List.reverse_eq_nil_iff.mp (of_isPhraseWord hs).1
  obtain ⟨c, more, hcons⟩ := List.exists_cons_of_ne_nil hne
  have hc : isWordChar c = true := by
    apply isWordChar_of_isPhraseWord hs
    rw [← List.mem_reverse, hcons]
    exact List.mem_cons_self
  apply first?_edge_after_word _ hrest
  rw [hcons]
  simpa using hc

end

/-- A pattern matches only at the edge of a word, before a text with some property. -/
def LedBy (p : Pattern) (P : Text → Prop) : Prop :=
  ∀ c : Cursor, p.matchAt? c ≠ none → c.atEdge = true ∧ P c.after

variable {P : Text → Prop}

theorem ledBy_edge {ps : List Pattern} (h : ∀ w, (all ps).first? some w ≠ none → P w.cursor.after) :
    (all (edge :: ps)).LedBy P := by
  intro c hmatch
  rw [matchAt?_eq_map_first?, ne_eq, Option.map_eq_none_iff, first?_all_cons, first?_edge] at hmatch
  by_cases hedge : c.atEdge = true
  · rw [if_pos hedge] at hmatch
    exact ⟨hedge, h _ hmatch⟩
  · rw [if_neg hedge] at hmatch
    exact absurd rfl hmatch

theorem LedBy.matchAt?_eq_none (hled : p.LedBy P) {c : Cursor}
    (h : ¬ (c.atEdge = true ∧ P c.after)) : p.matchAt? c = none := by
  cases hmatch : p.matchAt? c with
  | none => rfl
  | some m => exact absurd (hled c (by simp [hmatch])) h

/-- Inside a word there is no edge. -/
theorem skips_inside (hled : p.LedBy P) {c : Char} (hc : isWordChar c = true)
    {w : Text} (hw : ∀ c ∈ w, isWordChar c = true) : p.Skips (c :: before) w rest := by
  induction w generalizing c before with
  | nil => trivial
  | cons d w ih =>
    have hd := hw d List.mem_cons_self
    refine ⟨?_, ih hd fun e he => hw e (List.mem_cons_of_mem _ he)⟩
    apply hled.matchAt?_eq_none
    rintro ⟨hedge, -⟩
    simp [Cursor.atEdge, hc, hd] at hedge

/-- A search passes over a word before which the pattern does not match. -/
theorem skips_word (hled : p.LedBy P) {w : Text} (hw : ∀ c ∈ w, isWordChar c = true)
    (hP : ¬ P (w ++ rest)) : p.Skips before w rest := by
  cases w with
  | nil => trivial
  | cons c w =>
    refine ⟨?_, skips_inside hled (hw c List.mem_cons_self)
      fun d hd => hw d (List.mem_cons_of_mem _ hd)⟩
    exact hled.matchAt?_eq_none fun hmatch => hP hmatch.2

/-! ## Patterns that start with one of some words -/

/-- A pattern matches only where one of some words stands. -/
def LedByWords (p : Pattern) (heads : List String) : Prop :=
  p.LedBy fun t => ∃ s ∈ heads, StartsWord s.toList t

theorem exists_of_first?_oneWordOf {heads : List String} {q : Pattern} {ps : List Pattern}
    {w : Way} (h : (all (oneWordOf heads :: q :: ps)).first? some w ≠ none) :
    ∃ s ∈ heads, (word s).first? (q.first? ((all ps).first? some)) w ≠ none := by
  have hfun : (all (q :: ps)).first? some = q.first? ((all ps).first? some) :=
    funext fun w => first?_all_cons some _ _ w
  rw [first?_all_cons, hfun, oneWordOf, first?_any, ne_eq, List.findSome?_eq_none_iff] at h
  simp only [List.mem_map, forall_exists_index, and_imp, forall_apply_eq_imp_iff₂,
    Classical.not_forall] at h
  obtain ⟨s, hs, hfirst⟩ := h
  exact ⟨s, hs, hfirst⟩

theorem ledByWords_oneWordOf_gap (heads : List String) (ps : List Pattern) :
    (all (edge :: oneWordOf heads :: gap :: ps)).LedByWords heads := by
  apply ledBy_edge
  rintro ⟨⟨before, t⟩, captures⟩ h
  obtain ⟨s, hs, hfirst⟩ := exists_of_first?_oneWordOf h
  exact ⟨s, hs, startsWord_of_gap hfirst⟩

theorem ledByWords_gap (s : String) (ps : List Pattern) :
    (all (edge :: word s :: gap :: ps)).LedByWords [s] :=
  ledByWords_oneWordOf_gap [s] ps

theorem ledByWords_edge {heads : List String} (hheads : ∀ s ∈ heads, isPhraseWord s = true)
    (ps : List Pattern) :
    (all (edge :: oneWordOf heads :: edge :: ps)).LedByWords heads := by
  apply ledBy_edge
  rintro ⟨⟨before, t⟩, captures⟩ h
  obtain ⟨s, hs, hfirst⟩ := exists_of_first?_oneWordOf h
  obtain ⟨hne, hletters⟩ := of_isPhraseWord (hheads s hs)
  exact ⟨s, hs, startsWord_of_edge hne hletters hfirst⟩

section

variable {heads : List String} (hled : p.LedByWords heads)
  (hheads : ∀ s ∈ heads, isPhraseWord s = true)

include hled hheads

theorem matchAt?_eq_none_of_separator (ht : Stops isWordChar t) :
    p.matchAt? ⟨before, t⟩ = none := by
  apply LedBy.matchAt?_eq_none hled
  rintro ⟨-, s, hs, hopens, -⟩
  rw [opens_eq_false_of_stops (hheads s hs) ht] at hopens
  cases hopens

/-- A search passes over a character between words. -/
theorem skips_cons {c : Char} (hc : isWordChar c = false) (h : p.Skips (c :: before) t rest) :
    p.Skips before (c :: t) rest :=
  ⟨matchAt?_eq_none_of_separator hled hheads (stops_of_head hc), h⟩

theorem skips_separators_append {x : Text} (hx : ∀ c ∈ x, isWordChar c = false)
    (h : p.Skips (x.reverse ++ before) t rest) : p.Skips before (x ++ t) rest := by
  induction x generalizing before with
  | nil => exact h
  | cons c x ih =>
    refine skips_cons hled hheads (hx c List.mem_cons_self)
      (ih (fun d hd => hx d (List.mem_cons_of_mem _ hd)) ?_)
    rwa [List.reverse_cons, List.append_assoc] at h

/-- A search passes over a word that is none of those it looks for. -/
theorem skips_word_append {w : Text} (hw : ∀ c ∈ w, isWordChar c = true)
    (hother : ∀ s ∈ heads, ¬ SameWord s.toList w) (hstops : Stops isWordChar (t ++ rest))
    (h : p.Skips (w.reverse ++ before) t rest) : p.Skips before (w ++ t) rest := by
  rw [skips_append]
  refine ⟨skips_word hled hw ?_, h⟩
  rintro ⟨s, hs, hstarts⟩
  exact hother s hs (sameWord_of_startsWord (of_isPhraseWord (hheads s hs)).2 hw hstops hstarts)

end

theorem findUpTo_nil {s : String} (hled : p.LedByWords [s]) (hs : isPhraseWord s = true)
    (count : Nat) (before : Text) : p.findUpTo count ⟨before, []⟩ = [] := by
  cases count with
  | zero => rfl
  | succ count =>
    have hfind : p.findFrom? ⟨before, []⟩ = none :=
      matchAt?_eq_none_of_separator hled (by simpa using hs) (stops_nil _)
    rw [findUpTo, hfind]

end Pattern
end SqlAudit
