import SqlAudit.Lexical.Enclosed
import SqlAudit.Proofs.Lexical.Appending
import SqlAudit.Proofs.Pattern.Extension
import SqlAudit.Proofs.Pattern.Phrase
import SqlAudit.Schema.Name

/-!
Names that need no quotes: bare names, and bare names with dots between them.  They are read as they
are written, and no scanner takes a part of them for anything else.
-/

namespace SqlAudit

open Text Pattern

theorem Cursor.upTo_append (before x rest before' : Text) :
    Cursor.upTo ⟨before, x ++ rest⟩ ⟨before', rest⟩ = x := by
  rw [Cursor.upTo, List.length_append, Nat.add_sub_cancel, List.take_left]

namespace Text

def isBareName (t : Text) : Bool := !t.isEmpty && t.all isNameChar

def isPlainName (t : Text) : Bool := (pieces (· == '.') t).all isBareName

/-! ## Characters -/

section

variable {c : Char} (hc : isNameChar c = true)

include hc

theorem ne_of_isNameChar {d : Char} (hd : isNameChar d = false) : c ≠ d := by
  rintro rfl
  rw [hc] at hd
  cases hd

theorem isBlank_eq_false_of_isNameChar : isBlank c = false := by
  rw [Bool.eq_false_iff]
  intro hblank
  have hword := isWordChar_eq_false_of_isBlank hblank
  rw [isNameChar, hword, Bool.false_or, beq_iff_eq] at hc
  rw [hc] at hblank
  exact absurd hblank (by decide)

theorem isPlain_of_isNameChar : isPlain c = true := by
  have hne := fun d hd => ne_of_isNameChar (d := d) hc hd
  simp [isPlain, Quote.ofChar?, hne '\x27' rfl, hne '\x22' rfl, hne '\x60' rfl, hne '(' rfl,
    hne ')' rfl, hne '-' rfl, hne '#' rfl, hne '/' rfl]

theorem isInert_of_isNameChar : isInert c = true := by
  have hne := fun d hd => ne_of_isNameChar (d := d) hc hd
  simp [isInert, Quote.ofChar?, hne '\x27' rfl, hne '\x22' rfl, hne '\x60' rfl, hne '\\' rfl,
    hne '-' rfl, hne '#' rfl, hne '/' rfl, hne '*' rfl]

end

theorem of_isBareName {t : Text} (h : isBareName t = true) :
    t ≠ [] ∧ ∀ c ∈ t, isNameChar c = true := by
  simpa [isBareName] using h

/-- The pieces between dots are what the text is put together from. -/
theorem eq_append_of_pieces_dot {t part : Text} {more : List Text}
    (h : pieces (· == '.') t = part :: more) : t = part ++ more.flatMap ('.' :: ·) := by
  induction t generalizing part more with
  | nil =>
    cases h
    rfl
  | cons c rest ih =>
    rw [pieces] at h
    obtain ⟨next, others, hpieces⟩ := List.exists_cons_of_ne_nil (pieces_ne_nil (· == '.') rest)
    have hrest := ih hpieces
    rw [hpieces] at h
    split at h
    · rename_i hdot
      cases h
      rw [beq_iff_eq.mp hdot, hrest]
      rfl
    · cases h
      rw [hrest]
      rfl

theorem exists_parts_of_isPlainName {t : Text} (h : isPlainName t = true) :
    ∃ part more, t = part ++ more.flatMap ('.' :: ·) ∧
      ∀ x ∈ part :: more, x ≠ [] ∧ ∀ c ∈ x, isNameChar c = true := by
  obtain ⟨part, more, hpieces⟩ := List.exists_cons_of_ne_nil (pieces_ne_nil (· == '.') t)
  rw [isPlainName, hpieces, List.all_eq_true] at h
  exact ⟨part, more, eq_append_of_pieces_dot hpieces, fun x hx => of_isBareName (h x hx)⟩

section

variable {t : Text} (h : isPlainName t = true)

include h

theorem exists_cons_of_isPlainName : ∃ c rest, t = c :: rest ∧ isNameChar c = true := by
  obtain ⟨part, more, rfl, hparts⟩ := exists_parts_of_isPlainName h
  obtain ⟨hne, hchars⟩ := hparts part List.mem_cons_self
  obtain ⟨c, rest, rfl⟩ := List.exists_cons_of_ne_nil hne
  exact ⟨c, _, rfl, hchars c List.mem_cons_self⟩

theorem isNameChar_or_dot_of_isPlainName : ∀ c ∈ t, isNameChar c = true ∨ c = '.' := by
  obtain ⟨part, more, rfl, hparts⟩ := exists_parts_of_isPlainName h
  intro c hc
  rcases List.mem_append.mp hc with hc | hc
  · exact .inl ((hparts part List.mem_cons_self).2 c hc)
  · obtain ⟨x, hx, hc⟩ := List.mem_flatMap.mp hc
    rcases List.mem_cons.mp hc with rfl | hc
    · exact .inr rfl
    · exact .inl ((hparts x (List.mem_cons_of_mem part hx)).2 c hc)

theorem isBlank_eq_false_of_isPlainName : ∀ c ∈ t, isBlank c = false := by
  intro c hc
  rcases isNameChar_or_dot_of_isPlainName h c hc with hc | rfl
  · exact isBlank_eq_false_of_isNameChar hc
  · rfl

theorem stops_isBlank_of_isPlainName (rest : Text) : Stops isBlank (t ++ rest) := by
  obtain ⟨c, more, rfl, hc⟩ := exists_cons_of_isPlainName h
  exact stops_of_head (isBlank_eq_false_of_isNameChar hc)

end

/-! ## Names without quotes and blanks -/

theorem trim_eq_self {t : Text} (h : ∀ c ∈ t, isBlank c = false) : trim t = t := by
  have hstart : ∀ x : Text, (∀ c ∈ x, isBlank c = false) → x.dropWhile isBlank = x := by
    intro x hx
    cases x with
    | nil => rfl
    | cons c rest => rw [List.dropWhile_cons, hx c List.mem_cons_self, if_neg (by simp)]
  rw [trim, trimStart, hstart t h, trimEnd, hstart t.reverse fun c hc => h c (List.mem_reverse.mp hc),
    List.reverse_reverse]

/-- A name without quotes and blanks stands for itself. -/
theorem bareName_eq {t : Text} (h : ∀ c ∈ t, isNameChar c = true ∨ c = '.') :
    bareName t = String.ofList t := by
  have hkeep : t.filter (fun c => !(c == '\x22' || c == '\x60' || c == '[' || c == ']')) = t := by
    rw [List.filter_eq_self]
    intro c hc
    rcases h c hc with hc | rfl
    · have hne := fun d hd => ne_of_isNameChar (d := d) hc hd
      simp [hne '\x22' rfl, hne '\x60' rfl, hne '[' rfl, hne ']' rfl]
    · rfl
  have hblank : ∀ c ∈ t, isBlank c = false := by
    intro c hc
    rcases h c hc with hc | rfl
    · exact isBlank_eq_false_of_isNameChar hc
    · rfl
  rw [bareName, unquoted, trim_eq_self hblank, hkeep]

theorem Tidy.of_nameChars {commas : Bool} {t : Text} (h : ∀ c ∈ t, isNameChar c = true ∨ c = '.') :
    Tidy commas t := by
  apply Tidy.of_forall
  intro c hc
  rcases h c hc with hc | rfl
  · exact ⟨isPlain_of_isNameChar hc, fun hcomma => absurd hcomma (ne_of_isNameChar hc rfl)⟩
  · exact ⟨rfl, fun hcomma => absurd hcomma (by decide)⟩

theorem trimmed_of_isBareName {t : Text} (h : isBareName t = true) : Trimmed t := by
  obtain ⟨hne, hchars⟩ := of_isBareName h
  refine ⟨?_, ?_⟩
  · obtain ⟨c, rest, rfl⟩ := List.exists_cons_of_ne_nil hne
    exact ⟨c, rest, rfl, isBlank_eq_false_of_isNameChar (hchars c List.mem_cons_self)⟩
  · have hlast := List.dropLast_concat_getLast hne
    exact ⟨_, _, hlast.symm, isBlank_eq_false_of_isNameChar (hchars _ (List.getLast_mem hne))⟩

theorem isPlainName_of_isBareName {t : Text} (h : isBareName t = true) : isPlainName t = true := by
  have hdot : ∀ c ∈ t, (c == '.') = false := by
    intro c hc
    rw [beq_eq_false_iff_ne]
    exact ne_of_isNameChar ((of_isBareName h).2 c hc) rfl
  rw [isPlainName, pieces_of_forall hdot, List.all_cons, h]
  rfl

end Text

namespace Pattern

variable {β : Type} {k : Way → Option β} {before rest : Text} {captures : List Capture}

/-! ## Words before a gap -/

/-- Letters that open a text do not reach past its word characters. -/
theorem exists_sameWord_of_opens {letters : List Char}
    (hletters : ∀ c ∈ letters, isIdentifierChar c = true) {x : Text} (hrest : Stops isWordChar rest)
    (h : opens letters (x ++ rest) = true) : ∃ w y, x = w ++ y ∧ SameWord letters w := by
  induction letters generalizing x with
  | nil => exact ⟨[], x, rfl, rfl, rfl⟩
  | cons letter letters ih =>
    have hletter := hletters letter List.mem_cons_self
    cases x with
    | nil =>
      cases rest with
      | nil => cases h
      | cons c rest =>
        rw [List.nil_append, opens, Bool.and_eq_true] at h
        rw [stops_cons, isWordChar_of_sameLetter hletter h.1] at hrest
        cases hrest
    | cons c x =>
      rw [List.cons_append, opens, Bool.and_eq_true] at h
      obtain ⟨w, y, rfl, hlength, hw⟩ :=
        ih (fun d hd => hletters d (List.mem_cons_of_mem letter hd)) h.2
      exact ⟨c :: w, y, rfl, congrArg Nat.succ hlength, by rw [opens, h.1, hw]; rfl⟩

/-- Before a gap, a word does not match inside a text without blanks. -/
theorem first?_word_gap_eq_none {s : String} {x : Text} (hs : isPhraseWord s = true)
    (hx : ∀ c ∈ x, isBlank c = false) (hrest : Stops isWordChar rest)
    (hnone : ∀ b, gap.first? k ⟨⟨b, rest⟩, captures⟩ = none) :
    (word s).first? (gap.first? k) ⟨⟨before, x ++ rest⟩, captures⟩ = none := by
  rw [first?_word]
  split
  · rename_i hopens
    obtain ⟨w, y, rfl, hsame⟩ := exists_sameWord_of_opens (of_isPhraseWord hs).2 hrest hopens
    rw [hsame.1, List.append_assoc, List.drop_left]
    cases y with
    | nil => exact hnone _
    | cons c y => exact first?_gap_eq_none (stops_of_head (hx c (by simp)))
  · rfl

/-! ## Reading -/

/-- A repetition is one round more, or none. -/
theorem first?_star {p : Pattern} (hp : 0 < p.minWidth) (w : Way) :
    (star p).first? k w = (p.first? ((star p).first? k) w).or (k w) := by
  have hseq := first?_seq k p (star p) w
  rw [first?, ways] at hseq
  rw [first?, ways_star hp, List.findSome?_append, hseq]
  simp

/-- No qualified name goes on behind a space if neither a blank nor a dot follows. -/
theorem first?_dot_eq_none (hblank : Stops isBlank rest) (hdot : Stops (· == '.') rest) :
    (all [space, sign '.', space, Pattern.name]).first? k
      ⟨⟨before, ' ' :: rest⟩, captures⟩ = none := by
  rw [first?_all, List.foldr_cons, List.foldr_cons, first?_space_sign (by decide) hblank,
    first?_sign_eq_none hdot]

theorem first?_spacedName_of_isPlainName {t : Text} (ht : isPlainName t = true)
    (hrest : Stops isNameChar rest)
    (hdot : ∀ before captures,
      (all [space, sign '.', space, Pattern.name]).first? some ⟨⟨before, rest⟩, captures⟩ = none)
    {v : β} (h : k ⟨⟨t.reverse ++ before, rest⟩, captures⟩ = some v) :
    spacedName.first? k ⟨⟨before, t ++ rest⟩, captures⟩ = some v := by
  obtain ⟨part, more, rfl, hparts⟩ := exists_parts_of_isPlainName ht
  have hstops : ∀ parts : List Text,
      Stops isNameChar (parts.flatMap ('.' :: ·) ++ rest) := by
    intro parts
    cases parts with
    | nil => exact hrest
    | cons x parts => exact stops_of_head rfl
  -- Each part behind a dot is one more round.
  have hstar : ∀ (parts : List Text) (before : Text),
      (∀ x ∈ parts, x ≠ [] ∧ ∀ c ∈ x, isNameChar c = true) →
      k ⟨⟨(parts.flatMap ('.' :: ·)).reverse ++ before, rest⟩, captures⟩ = some v →
      (star (all [space, sign '.', space, Pattern.name])).first? k
        ⟨⟨before, parts.flatMap ('.' :: ·) ++ rest⟩, captures⟩ = some v := by
    intro parts
    induction parts with
    | nil =>
      intro before _ hk
      rw [List.flatMap_nil, List.nil_append, first?_star_of_none (hdot _ _)]
      exact hk
    | cons x parts ih =>
      intro before hparts hk
      obtain ⟨hne, hchars⟩ := hparts x List.mem_cons_self
      have hblank : Stops isBlank (x ++ (parts.flatMap ('.' :: ·) ++ rest)) := by
        obtain ⟨c, x, rfl⟩ := List.exists_cons_of_ne_nil hne
        exact stops_of_head (isBlank_eq_false_of_isNameChar (hchars c List.mem_cons_self))
      rw [first?_star (by decide), first?_all]
      simp only [List.foldr_cons, List.foldr_nil, List.flatMap_cons, List.cons_append,
        List.append_assoc]
      rw [first?_space_of_stops (stops_of_head rfl), first?_sign, first?_space_of_stops hblank,
        first?_name_of_some hne hchars (hstops parts)
          (ih _ (fun y hy => hparts y (List.mem_cons_of_mem x hy)) (by simpa using hk)),
        Option.some_or]
  obtain ⟨hne, hchars⟩ := hparts part List.mem_cons_self
  rw [spacedName, first?_seq, List.append_assoc]
  apply first?_name_of_some hne hchars (hstops more)
  apply hstar more _ fun x hx => hparts x (List.mem_cons_of_mem part hx)
  simpa using h

theorem matchAt?_name_of_isBareName {t : Text} (ht : isBareName t = true) :
    Pattern.name.matchAt? (Cursor.first t) = some ⟨Cursor.first t, ⟨t.reverse, []⟩, []⟩ := by
  obtain ⟨hne, hchars⟩ := of_isBareName ht
  apply matchAt?_of_first? (w := ⟨⟨t.reverse, []⟩, []⟩)
  have h : Pattern.name.first? some ⟨⟨[], t ++ []⟩, []⟩ = some ⟨⟨t.reverse ++ [], []⟩, []⟩ :=
    first?_name_of_some hne hchars (stops_nil isNameChar) rfl
  rw [List.append_nil, List.append_nil] at h
  exact h

end Pattern

theorem Text.columnNames_listed {names : List Text} (h : ∀ t ∈ names, isBareName t = true) :
    columnNames (listed names) = names.map String.ofList := by
  have hitems : ∀ item ∈ names, Tidy false item ∧ Trimmed item := by
    intro item hitem
    obtain ⟨-, hchars⟩ := of_isBareName (h item hitem)
    exact ⟨Tidy.of_nameChars fun c hc => .inl (hchars c hc), trimmed_of_isBareName (h item hitem)⟩
  have hread : ∀ t ∈ names, (Pattern.name.matchAt? (Cursor.first t)).map
      (fun m => bareName m.text) = some (String.ofList t) := by
    intro t ht
    have htext : Cursor.upTo (Cursor.first t) ⟨t.reverse, []⟩ = t := by
      have htake := Cursor.upTo_append [] t [] t.reverse
      rwa [List.append_nil] at htake
    obtain ⟨-, hchars⟩ := of_isBareName (h t ht)
    rw [matchAt?_name_of_isBareName (h t ht), Option.map_some, Match.text, htext,
      bareName_eq fun c hc => .inl (hchars c hc)]
  have hmap : names.filterMap (fun t => (Pattern.name.matchAt? (Cursor.first t)).map
      fun m => bareName m.text) = names.map String.ofList := by
    rw [List.filterMap_congr hread, List.filterMap_eq_map']
  rw [columnNames, segments_listed hitems, hmap, List.filter_eq_self]
  intro s hs
  obtain ⟨t, ht, rfl⟩ := List.mem_map.mp hs
  simpa [← String.toList_inj] using (of_isBareName (h t ht)).1

end SqlAudit
