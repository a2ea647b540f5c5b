import Mathlib.Data.List.Induction
import SqlAudit.Lexical.Segment
import SqlAudit.Proofs.Lexical.OpenQuote

/-!
Lists at the top level, taken apart and joined again.  A scan for the commas between items carries
the quote and the depth of parentheses, and each item but the last leaves both as it found them.
Trimming an item keeps that, and it does not change the reading that the list settles on: next to a
comma, a backslash before the blanks that go uses up the comma instead.
-/

namespace SqlAudit

open Text

structure ListState where
  quote : QuoteState
  depth : Nat
  deriving DecidableEq

namespace ListState

/-- Where an item starts. -/
def top : ListState := ⟨.code, 0⟩

def next (escapes : Escapes) (s : ListState) (c : Char) : ListState where
  quote := s.quote.next escapes c
  depth :=
    if s.quote.holds c then s.depth
    else if c = '(' then s.depth + 1
    else if c = ')' then s.depth - 1
    else s.depth

theorem next_of_isBlank {c : Char} (hc : isBlank c = true) (escapes : Escapes) (s : ListState) :
    s.next escapes c = ⟨s.quote.settled, s.depth⟩ := by
  have hopen : c ≠ '(' := by
    rintro rfl
    exact absurd hc (by decide)
  have hclose : c ≠ ')' := by
    rintro rfl
    exact absurd hc (by decide)
  rw [next, QuoteState.next_of_isInert (isInert_of_isBlank hc), if_neg hopen, if_neg hclose,
    ite_self]

theorem foldl_next_top_of_isBlank {r : Text} (hr : ∀ c ∈ r, isBlank c = true) (escapes : Escapes) :
    r.foldl (next escapes) top = top := by
  induction r with
  | nil => rfl
  | cons c rest ih =>
    rw [List.foldl_cons, next_of_isBlank (hr c List.mem_cons_self)]
    exact ih fun d hd => hr d (List.mem_cons_of_mem c hd)

/-- Blanks bring no scan back to where an item starts. -/
theorem eq_top_of_foldl_next {r : Text} (hr : ∀ c ∈ r, isBlank c = true) {escapes : Escapes}
    {s : ListState} (h : r.foldl (next escapes) s = top) : s = top := by
  induction r generalizing s with
  | nil => exact h
  | cons c rest ih =>
    have hnext := ih (fun d hd => hr d (List.mem_cons_of_mem c hd)) h
    rw [next_of_isBlank (hr c List.mem_cons_self), top, mk.injEq] at hnext
    obtain ⟨quote, depth⟩ := s
    rw [top, mk.injEq]
    exact ⟨QuoteState.eq_code_of_settled hnext.1, hnext.2⟩

end ListState

namespace Text

open ListState

/-! ## Cutting -/

/-- The items of a list that is read on from a state. -/
def itemsFrom (escapes : Escapes) (s : ListState) (t : Text) : List Text :=
  cutFrom ',' s.depth (marksFrom escapes s.quote t)

/-- A comma cuts where an item could start. -/
theorem itemsFrom_cons (escapes : Escapes) (s : ListState) (c : Char) (rest : Text) :
    itemsFrom escapes s (c :: rest) =
      if s = top ∧ c = ',' then [] :: itemsFrom escapes top rest
      else extend c (itemsFrom escapes (s.next escapes c) rest) := by
  obtain ⟨quote, depth⟩ := s
  rw [itemsFrom, marksFrom, cutFrom, itemsFrom, itemsFrom, ListState.next]
  by_cases hholds : quote.holds c = true
  · have hcut : ¬ ((⟨quote, depth⟩ : ListState) = top ∧ c = ',') := by
      rintro ⟨hs, rfl⟩
      cases hs
      cases hholds
    rw [if_pos hholds, if_neg hcut]
    simp only [hholds, if_true]
  · obtain ⟨rfl, hnext⟩ :=
      QuoteState.next_code_of_holds_eq_false escapes (Bool.eq_false_iff.mpr hholds)
    simp only [hholds, hnext, Bool.false_eq_true, if_false, top, mk.injEq, true_and]
    by_cases hopen : c = '('
    · subst hopen
      simp
    · by_cases hclose : c = ')'
      · subst hclose
        simp
      · simp only [hopen, hclose, if_false]
        by_cases hcut : c = ',' ∧ depth = 0
        · rw [if_pos hcut, if_pos ⟨hcut.2, hcut.1⟩, hcut.2]
        · rw [if_neg hcut, if_neg fun h => hcut ⟨h.2, h.1⟩]

/-- No comma of the text cuts. -/
def Uncut (escapes : Escapes) : ListState → Text → Prop
  | _, [] => True
  | s, c :: rest => ¬ (s = top ∧ c = ',') ∧ Uncut escapes (s.next escapes c) rest

section

variable {escapes : Escapes} {s : ListState} {a : Text}

theorem uncut_append_iff (b : Text) : Uncut escapes s (a ++ b) ↔
    Uncut escapes s a ∧ Uncut escapes (a.foldl (ListState.next escapes) s) b := by
  induction a generalizing s with
  | nil => exact ⟨fun h => ⟨trivial, h⟩, fun h => h.2⟩
  | cons c rest ih => rw [List.cons_append, Uncut, Uncut, ih, List.foldl_cons, and_assoc]

theorem itemsFrom_append (h : Uncut escapes s a) (b : Text) :
    itemsFrom escapes s (a ++ b) =
      a.foldr extend (itemsFrom escapes (a.foldl (ListState.next escapes) s) b) := by
  induction a generalizing s with
  | nil => rfl
  | cons c rest ih => rw [List.cons_append, itemsFrom_cons, if_neg h.1, ih h.2]; rfl

theorem itemsFrom_of_uncut (h : Uncut escapes s a) : itemsFrom escapes s a = [a] := by
  have happend := itemsFrom_append h []
  have hnil : ∀ s, itemsFrom escapes s [] = [[]] := fun s => rfl
  rwa [List.append_nil, hnil, foldr_extend_cons, List.append_nil] at happend

theorem itemsFrom_append_comma (h : Uncut escapes s a)
    (htop : a.foldl (ListState.next escapes) s = top) (b : Text) :
    itemsFrom escapes s (a ++ ',' :: b) = a :: itemsFrom escapes top b := by
  rw [itemsFrom_append h, htop, itemsFrom_cons, if_pos ⟨rfl, rfl⟩, foldr_extend_cons,
    List.append_nil]

/-- The first comma that cuts. -/
theorem uncut_or_exists (escapes : Escapes) (s : ListState) (t : Text) :
    Uncut escapes s t ∨ ∃ a b : Text, t = a ++ ',' :: b ∧ Uncut escapes s a ∧
      a.foldl (ListState.next escapes) s = top := by
  induction t generalizing s with
  | nil => exact .inl trivial
  | cons c rest ih =>
    by_cases hcut : s = top ∧ c = ','
    · obtain ⟨rfl, rfl⟩ := hcut
      exact .inr ⟨[], rest, rfl, trivial, rfl⟩
    · rcases ih (s.next escapes c) with hrest | ⟨a, b, rfl, ha, htop⟩
      · exact .inl ⟨hcut, hrest⟩
      · exact .inr ⟨c :: a, b, rfl, ⟨hcut, ha⟩, htop⟩

theorem uncut_trim (h : Uncut escapes top a) : Uncut escapes top (trim a) := by
  obtain ⟨lead, trail, ha, hlead, -⟩ := exists_trim a
  rw [ha, uncut_append_iff, uncut_append_iff, foldl_next_top_of_isBlank hlead] at h
  exact h.2.1

theorem foldl_next_trim (h : a.foldl (ListState.next escapes) top = top) :
    (trim a).foldl (ListState.next escapes) top = top := by
  obtain ⟨lead, trail, ha, hlead, htrail⟩ := exists_trim a
  rw [ha, List.foldl_append, foldl_next_top_of_isBlank hlead, List.foldl_append] at h
  exact eq_top_of_foldl_next htrail h

end

/-! ## Items -/

/-- Texts that are taken apart again when they are joined by commas. -/
inductive Items (escapes : Escapes) : List Text → Prop where
  | last {a : Text} : Uncut escapes top a → Items escapes [a]
  | more {a : Text} {rest : List Text} : Uncut escapes top a →
      a.foldl (ListState.next escapes) top = top → Items escapes rest → Items escapes (a :: rest)

namespace Items

variable {escapes : Escapes} {ts : List Text}

theorem ne_nil (h : Items escapes ts) : ts ≠ [] := by
  cases h <;> exact List.cons_ne_nil _ _

theorem itemsFrom_intercalate (h : Items escapes ts) :
    itemsFrom escapes top ([','].intercalate ts) = ts := by
  induction h with
  | last ha => rw [List.intercalate_singleton, itemsFrom_of_uncut ha]
  | more ha htop hrest ih =>
    rw [List.intercalate_cons_of_ne_nil hrest.ne_nil, List.append_assoc, List.singleton_append,
      itemsFrom_append_comma ha htop, ih]

theorem map_trim (h : Items escapes ts) : Items escapes (ts.map trim) := by
  induction h with
  | last ha => exact .last (uncut_trim ha)
  | more ha htop _ ih => exact .more (uncut_trim ha) (foldl_next_trim htop) ih

theorem of_concat {u : Text} (h : Items escapes (ts ++ [u])) : ts = [] ∨ Items escapes ts := by
  induction ts with
  | nil => exact .inl rfl
  | cons a rest ih =>
    right
    rw [List.cons_append] at h
    generalize hlist : a :: (rest ++ [u]) = list at h
    cases h with
    | last _ => simp at hlist
    | more ha htop hrest =>
      obtain ⟨rfl, rfl⟩ := List.cons.inj hlist
      rcases ih hrest with rfl | hrest
      · exact .last ha
      · exact .more ha htop hrest

end Items

theorem items_itemsFrom (escapes : Escapes) (t : Text) :
    Items escapes (itemsFrom escapes top t) ∧ [','].intercalate (itemsFrom escapes top t) = t := by
  -- What stands after the first comma that cuts is a list of its own, and it is shorter.
  obtain ⟨n, hn⟩ : ∃ n, t.length = n := ⟨_, rfl⟩
  induction n using Nat.strongRecOn generalizing t with
  | ind n ih =>
    rcases uncut_or_exists escapes top t with huncut | ⟨a, b, rfl, ha, htop⟩
    · rw [itemsFrom_of_uncut huncut]
      exact ⟨.last huncut, List.intercalate_singleton⟩
    · rw [List.length_append, List.length_cons] at hn
      obtain ⟨hitems, hjoin⟩ := ih b.length (by omega) b rfl
      rw [itemsFrom_append_comma ha htop]
      refine ⟨.more ha htop hitems, ?_⟩
      rw [List.intercalate_cons_of_ne_nil hitems.ne_nil, hjoin, List.append_assoc]
      rfl

/-! ## Empty items at the end -/

theorem dropTrailingEmpty_concat (ts : List Text) (u : Text) :
    dropTrailingEmpty (ts ++ [u]) = if u = [] then dropTrailingEmpty ts else ts ++ [u] := by
  rw [dropTrailingEmpty, List.reverse_append, List.reverse_singleton, List.singleton_append,
    List.dropWhile_cons]
  by_cases hu : u = []
  · rw [if_pos (by simpa using hu), if_pos hu, dropTrailingEmpty]
  · rw [if_neg (by simpa using hu), if_neg hu, List.reverse_cons, List.reverse_reverse]

theorem ne_nil_of_getLast?_dropTrailingEmpty {ts : List Text} {u : Text}
    (h : (dropTrailingEmpty ts).getLast? = some u) : u ≠ [] := by
  induction ts using List.reverseRecOn with
  | nil => cases h
  | append_singleton ts v ih =>
    rw [dropTrailingEmpty_concat] at h
    by_cases hv : v = []
    · rw [if_pos hv] at h
      exact ih h
    · rw [if_neg hv, List.getLast?_concat] at h
      rwa [← Option.some.inj h]

theorem dropTrailingEmpty_eq_self {ts : List Text} (h : ∀ u, ts.getLast? = some u → u ≠ []) :
    dropTrailingEmpty ts = ts := by
  rcases List.eq_nil_or_concat ts with rfl | ⟨ts, u, rfl⟩
  · rfl
  · rw [List.concat_eq_append] at h ⊢
    rw [dropTrailingEmpty_concat, if_neg (h u List.getLast?_concat)]

theorem Items.dropTrailingEmpty {escapes : Escapes} {ts : List Text} (h : Items escapes ts) :
    Text.dropTrailingEmpty ts = [] ∨ Items escapes (Text.dropTrailingEmpty ts) := by
  induction ts using List.reverseRecOn with
  | nil => exact .inl rfl
  | append_singleton ts u ih =>
    rw [dropTrailingEmpty_concat]
    by_cases hu : u = []
    · rw [if_pos hu]
      rcases h.of_concat with rfl | h
      · exact .inl rfl
      · exact ih h
    · rw [if_neg hu]
      exact .inr h

/-! ## The reading of the joined items -/

theorem intercalate_concat {sep : Text} {ts : List Text} (hts : ts ≠ []) (u : Text) :
    sep.intercalate (ts ++ [u]) = sep.intercalate ts ++ (sep ++ u) := by
  induction ts with
  | nil => exact absurd rfl hts
  | cons a rest ih =>
    rw [List.cons_append, List.intercalate_cons_of_ne_nil (by simp)]
    by_cases hrest : rest = []
    · rw [hrest, List.nil_append, List.intercalate_singleton, List.intercalate_singleton,
        List.append_assoc]
    · rw [ih hrest, List.intercalate_cons_of_ne_nil hrest, List.append_assoc, List.append_assoc,
        List.append_assoc]

theorem settled_foldl_next_map_trim (escapes : Escapes) {s : QuoteState} (hs : s.settled = s)
    (ts : List Text) :
    (([','].intercalate (ts.map trim)).foldl (QuoteState.next escapes) s).settled =
      (([','].intercalate ts).foldl (QuoteState.next escapes) s).settled := by
  induction ts generalizing s with
  | nil => rfl
  | cons a rest ih =>
    cases rest with
    | nil =>
      rw [List.map_singleton, List.intercalate_singleton, List.intercalate_singleton,
        settled_foldl_next_trim escapes hs]
    | cons b more =>
      -- The comma settles the state, whether a backslash before the blanks is still to be used up
      -- or not.
      have hcomma : isInert ',' = true := by decide
      have hrest := ih (s := (a.foldl (QuoteState.next escapes) s).settled)
        (QuoteState.settled_settled _)
      rw [List.map_cons] at hrest
      rw [List.map_cons, List.map_cons, List.intercalate_cons_cons, List.intercalate_cons_cons,
        List.foldl_append, List.foldl_append, List.foldl_append, List.foldl_append,
        List.foldl_cons, List.foldl_cons, List.foldl_nil, List.foldl_nil,
        QuoteState.next_of_isInert hcomma, QuoteState.next_of_isInert hcomma,
        settled_foldl_next_trim escapes hs, hrest]

theorem settled_foldl_next_dropTrailingEmpty (escapes : Escapes) (s : QuoteState)
    (ts : List Text) :
    (([','].intercalate (dropTrailingEmpty ts)).foldl (QuoteState.next escapes) s).settled =
      (([','].intercalate ts).foldl (QuoteState.next escapes) s).settled := by
  induction ts using List.reverseRecOn with
  | nil => rfl
  | append_singleton ts u ih =>
    rw [dropTrailingEmpty_concat]
    by_cases hu : u = []
    · rw [if_pos hu, ih, hu]
      by_cases hts : ts = []
      · rw [hts]
        rfl
      · rw [intercalate_concat hts, List.append_nil, List.foldl_append, List.foldl_cons,
          List.foldl_nil, QuoteState.next_of_isInert (by decide), QuoteState.settled_settled]
    · rw [if_neg hu]

/-- The joined items leave the quote open that the list leaves open, under either reading. -/
theorem openQuote?_segments (escapes : Escapes) (t : Text) :
    openQuote? escapes ([','].intercalate (t.segments ',')) = t.openQuote? escapes := by
  obtain ⟨-, hjoin⟩ := items_itemsFrom t.escapes t
  have hsettled := settled_foldl_next_dropTrailingEmpty escapes .code
    ((itemsFrom t.escapes top t).map trim)
  rw [settled_foldl_next_map_trim escapes rfl, hjoin] at hsettled
  have hopen := congrArg QuoteState.open? hsettled
  rwa [QuoteState.open?_settled, QuoteState.open?_settled] at hopen

theorem escapes_segments (t : Text) : escapes ([','].intercalate (t.segments ',')) = t.escapes := by
  rw [escapes, openQuote?_segments, openQuote?_segments, ← escapes]

theorem trim_of_mem_segments {t fragment : Text} {delimiter : Char}
    (h : fragment ∈ t.segments delimiter) : trim fragment = fragment := by
  have hmem : fragment ∈ (cutFrom delimiter 0 (t.marks t.escapes)).map trim :=
    List.mem_reverse.mp ((List.dropWhile_sublist _).subset (List.mem_reverse.mp h))
  obtain ⟨cut, -, rfl⟩ := List.mem_map.mp hmem
  exact trim_trim cut

/-- The items of a list have no blanks at their ends, the last one is not empty, and joined by
commas they are a list of the same items. -/
theorem segments_intercalate_segments (t : Text) :
    (∀ item ∈ t.segments ',', trim item = item) ∧
      (∀ item, (t.segments ',').getLast? = some item → item ≠ []) ∧
      segments ([','].intercalate (t.segments ',')) ',' = t.segments ',' := by
  have hlast : ∀ item, (t.segments ',').getLast? = some item → item ≠ [] :=
    fun item h => ne_nil_of_getLast?_dropTrailingEmpty h
  refine ⟨fun item h => trim_of_mem_segments h, hlast, ?_⟩
  have hitems : t.segments ',' = [] ∨ Items t.escapes (t.segments ',') :=
    (items_itemsFrom t.escapes t).1.map_trim.dropTrailingEmpty
  rcases hitems with hnil | hitems
  · rw [hnil]
    rfl
  · have htrim : (t.segments ',').map trim = t.segments ',' := by
      conv => rhs; rw [← List.map_id (t.segments ',')]
      exact List.map_congr_left fun item h => trim_of_mem_segments h
    calc segments ([','].intercalate (t.segments ',')) ','
      _ = dropTrailingEmpty ((itemsFrom (escapes ([','].intercalate (t.segments ','))) top
            ([','].intercalate (t.segments ','))).map trim) := rfl
      _ = dropTrailingEmpty ((t.segments ',').map trim) := by
        rw [escapes_segments, hitems.itemsFrom_intercalate]
      _ = t.segments ',' := by rw [htrim, dropTrailingEmpty_eq_self hlast]

/-- A list that closes its literal by backslash escapes alone and has a backslash before the blanks
that are trimmed. -/
theorem segments_intercalate_segments_escaped :
    segments "'it\\'s', d \\ ,, ".toList ',' = ["'it\\'s'".toList, "d \\".toList] ∧
      escapes "'it\\'s', d \\ ,, ".toList = .backslash ∧
      trim "d \\".toList = "d \\".toList ∧ "d \\".toList ≠ [] ∧
      segments "'it\\'s',d \\".toList ',' = ["'it\\'s'".toList, "d \\".toList] := by
  have hitems : segments "'it\\'s', d \\ ,, ".toList ',' =
      ["'it\\'s'".toList, "d \\".toList] := by decide
  have hjoined : [','].intercalate ["'it\\'s'".toList, "d \\".toList] =
      "'it\\'s',d \\".toList := by decide
  obtain ⟨htrim, hlast, hagain⟩ := segments_intercalate_segments "'it\\'s', d \\ ,, ".toList
  rw [hitems] at htrim hlast hagain
  rw [hjoined] at hagain
  exact ⟨hitems, by decide, htrim _ (by simp), hlast _ rfl, hagain⟩

end Text
end SqlAudit
