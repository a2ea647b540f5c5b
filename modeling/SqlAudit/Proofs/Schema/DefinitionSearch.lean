import SqlAudit.Proofs.Schema.ConstraintReading

/-!
Where definitions are found.  A search for the definitions of tables or indexes passes over
everything inside a definition, even over names that are spelled like its first word, because of
what follows them there.
-/

namespace SqlAudit

open Text Pattern Declaration

namespace Pattern

/-- A pattern does not match at a word, in whatever case, before a text. -/
def Blocks (p : Pattern) (s : String) (rest : Text) : Prop :=
  ∀ x before : Text, SameWord s.toList x → p.matchAt? ⟨before, x ++ rest⟩ = none

/-- A search passes over a text, whatever stands before it. -/
def Passes (p : Pattern) (t rest : Text) : Prop := ∀ before, p.Skips before t rest

variable {p : Pattern} {s : String} {t u rest : Text}

theorem passes_nil : p.Passes [] rest := fun _ => trivial

theorem Passes.append (ht : p.Passes t (u ++ rest)) (hu : p.Passes u rest) :
    p.Passes (t ++ u) rest :=
  fun before => skips_append.mpr ⟨ht before, hu _⟩

theorem blocks_of_gap {ps : List Pattern}
    (h : ∀ before, gap.first? ((all ps).first? some) ⟨⟨before, rest⟩, []⟩ = none) :
    Blocks (all (edge :: word s :: gap :: ps)) s rest := by
  intro x before hsame
  apply matchAt?_eq_none
  rw [first?_all_cons, first?_edge]
  split
  · have hfun : (all (gap :: ps)).first? some = gap.first? ((all ps).first? some) :=
      funext fun w => first?_all_cons some _ _ w
    rw [first?_all_cons, first?_word, hfun]
    split
    · rw [hsame.1, List.take_left, List.drop_left]
      exact h _
    · rfl
  · rfl

section

variable (hled : p.LedByWords [s]) (hs : isPhraseWord s = true)

include hled hs

/-- A search passes over a word before a text with which the pattern does not go on. -/
theorem passes_word {w : Text} (hw : ∀ c ∈ w, isWordChar c = true) (hrest : Stops isWordChar rest)
    (hblocks : Blocks p s rest) : p.Passes w rest := by
  intro before
  cases w with
  | nil => trivial
  | cons c w =>
    refine ⟨?_, skips_inside hled (hw c List.mem_cons_self) ?_⟩
    · by_cases hsame : SameWord s.toList (c :: w)
      · exact hblocks _ before hsame
      · apply hled.matchAt?_eq_none
        rintro ⟨-, head, hhead, hstarts⟩
        rw [List.mem_singleton.mp hhead] at hstarts
        exact hsame (sameWord_of_startsWord (of_isPhraseWord hs).2 hw hrest hstarts)
    · exact fun d hd => hw d (List.mem_cons_of_mem c hd)

theorem passes_cons {c : Char} (hc : isWordChar c = false) (ht : p.Passes t rest) :
    p.Passes (c :: t) rest := by
  intro before
  exact skips_cons hled (by simpa using hs) hc (ht _)

theorem passes_joined {words : List String} (hwords : ∀ x ∈ words, isPhraseWord x = true)
    (hother : ∀ x ∈ words, ¬ SameWord s.toList x.toList) (hrest : Stops isWordChar rest) :
    p.Passes (joined words) rest := by
  intro before
  rw [← List.append_nil (joined words)]
  exact skips_joined_append hled (by simpa using hs) hwords (by simpa using hother) hrest trivial

end

end Pattern

namespace Declaration

/-! ## What follows the first word of a definition -/

def definitionPatterns : List Pattern :=
  [Extraction.createTablePattern, Extraction.createIndexPattern]

theorem ledByWords_of_mem {p : Pattern} (hp : p ∈ definitionPatterns) :
    p.LedByWords ["CREATE"] := by
  simp only [definitionPatterns, List.mem_cons, List.not_mem_nil, or_false] at hp
  rcases hp with rfl | rfl
  · exact ledByWords_gap "CREATE" _
  · exact ledByWords_gap "CREATE" _

/-- The words that may follow the first word of a definition of a table. -/
def tableWords : List String := ["OR", "GLOBAL", "LOCAL", "TEMP", "UNLOGGED", "TABLE"]

/-- The words that may follow in a definition of an index, apart from the one that makes it
unique. -/
def indexWords : List String := ["NON", "CLUSTERED", "INDEX"]

def NamesNoTable (u : Text) : Prop := ∀ s ∈ tableWords, opens s.toList u = false

def NamesNoIndex (u : Text) : Prop := ∀ s ∈ indexWords, opens s.toList u = false

/-- After the word for unique indexes, a text does not go on with a definition. -/
def EndsUnique (t : Text) : Prop :=
  Stops isBlank t ∨ ∃ v, t = ' ' :: v ∧ Stops isBlank v ∧ NamesNoIndex v

section

variable {u : Text}

theorem blocks_createTable (hblank : Stops isBlank u) (hu : NamesNoTable u) :
    Blocks Extraction.createTablePattern "CREATE" (' ' :: u) := by
  apply blocks_of_gap
  intro before
  have hnone : ∀ {s : String} {k : Way → Option Way},
      s ∈ tableWords →
      (word s).first? k ⟨⟨' ' :: before, u⟩, []⟩ = none :=
    fun hs => first?_word_eq_none (hu _ hs)
  rw [first?_gap hblank, first?_all]
  simp only [List.foldr_cons, List.foldr_nil, first?_opt, first?_all_cons, oneWordOf, List.map_cons,
    List.map_nil, first?_seq, first?_any_cons, first?_any_nil, Option.or_none]
  rw [hnone (by decide), hnone (by decide), hnone (by decide), hnone (by decide), hnone (by decide),
    hnone (by decide)]
  rfl

theorem blocks_createIndex (hblank : Stops isBlank u) (hu : NamesNoIndex u)
    (hunique : opens "UNIQUE".toList u = true → EndsUnique (u.drop "UNIQUE".toList.length)) :
    Blocks Extraction.createIndexPattern "CREATE" (' ' :: u) := by
  -- Neither before nor after the word for unique indexes can the pattern go on.
  have hindex : ∀ {k : Way → Option Way} {v before : Text} {captures : List Capture},
      NamesNoIndex v →
      (opt (all [opt (word "NON"), word "CLUSTERED", gap])).first? ((word "INDEX").first? k)
        ⟨⟨before, v⟩, captures⟩ = none := by
    intro k v before captures hv
    have hnone : ∀ {s : String} {k : Way → Option Way}, s ∈ indexWords →
        (word s).first? k ⟨⟨before, v⟩, captures⟩ = none :=
      fun hs => first?_word_eq_none (hv _ hs)
    rw [first?_opt, first?_all_cons, first?_opt, hnone (by decide), Option.none_or, first?_all_cons,
      hnone (by decide), hnone (by decide), Option.none_or]
  apply blocks_of_gap
  intro before
  rw [first?_gap hblank, first?_all]
  simp only [List.foldr_cons, List.foldr_nil]
  rw [first?_opt, hindex hu, Option.or_none, first?_capture, first?_seq, first?_word]
  split
  · rename_i hopens
    rcases hunique hopens with hstops | ⟨v, hdrop, hv, hnames⟩
    · rw [first?_gap_eq_none hstops]
    · rw [hdrop, first?_gap hv, hindex hnames]
  · rfl

end

/-- A text that does not go on with a definition behind its first word and a space. -/
structure Harmless (u : Text) : Prop where
  blank : Stops isBlank u
  noTable : NamesNoTable u
  noIndex : NamesNoIndex u
  unique : opens "UNIQUE".toList u = true → EndsUnique (u.drop "UNIQUE".toList.length)

section

variable {p : Pattern} (hp : p ∈ definitionPatterns) {u rest : Text}

include hp

theorem Harmless.blocks (h : Harmless u) : Blocks p "CREATE" (' ' :: u) := by
  simp only [definitionPatterns, List.mem_cons, List.not_mem_nil, or_false] at hp
  rcases hp with rfl | rfl
  · exact blocks_createTable h.blank h.noTable
  · exact blocks_createIndex h.blank h.noIndex h.unique

theorem blocks_of_stops (h : Stops isBlank rest) : Blocks p "CREATE" rest := by
  simp only [definitionPatterns, List.mem_cons, List.not_mem_nil, or_false] at hp
  rcases hp with rfl | rfl
  · exact blocks_of_gap fun before => first?_gap_eq_none h
  · exact blocks_of_gap fun before => first?_gap_eq_none h

end

section

variable {w t : Text}

theorem harmless_append (hne : w ≠ []) (hblank : Stops isBlank w)
    (h : ∀ s ∈ tableWords ++ indexWords, opens (s.toList.take w.length) w = false)
    (hunique : opens "UNIQUE".toList (w ++ t) = true →
      EndsUnique ((w ++ t).drop "UNIQUE".toList.length)) : Harmless (w ++ t) := by
  refine ⟨?_, ?_, ?_, hunique⟩
  · obtain ⟨c, more, hcons⟩ := List.exists_cons_of_ne_nil hne
    rw [hcons, stops_cons] at hblank
    rw [hcons]
    exact stops_of_head hblank
  · intro s hs
    exact opens_append_eq_false (h s (List.mem_append_left _ hs)) t
  · intro s hs
    exact opens_append_eq_false (h s (List.mem_append_right _ hs)) t

/-- A word that differs from all that may follow is harmless. -/
theorem harmless_of_differ (hne : w ≠ []) (hblank : Stops isBlank w)
    (h : ∀ s ∈ tableWords ++ indexWords, opens (s.toList.take w.length) w = false)
    (hunique : opens ("UNIQUE".toList.take w.length) w = false) : Harmless (w ++ t) := by
  refine harmless_append hne hblank h fun hopens => ?_
  rw [opens_append_eq_false hunique] at hopens
  cases hopens

theorem harmless_unique (h : EndsUnique t) : Harmless ("UNIQUE".toList ++ t) :=
  harmless_append (by decide) (by decide) (by decide) fun _ => by rwa [List.drop_left]

theorem harmless_paren : Harmless ('(' :: t) :=
  harmless_of_differ (w := ['(']) (by decide) (by decide) (by decide) (by decide)

theorem harmless_column (item : ColumnItem) : Harmless (item.rest ++ t) := by
  obtain ⟨hne, hblank, -⟩ := of_mem_typeNames item.type item.known
  have htypes : ∀ type ∈ typeNames,
      (∀ s ∈ tableWords ++ indexWords,
        opens (s.toList.take type.toList.length) type.toList = false) ∧
      (opens ("UNIQUE".toList.take type.toList.length) type.toList = false ∨
        type = "UNIQUEIDENTIFIER") := by
    decide +kernel
  obtain ⟨hwords, hunique⟩ := htypes item.type item.known
  rw [ColumnItem.rest, List.append_assoc]
  rcases hunique with hunique | hunique
  · exact harmless_of_differ hne hblank hwords hunique
  · refine harmless_append hne hblank hwords fun _ => ?_
    rw [hunique]
    exact .inl (stops_of_head rfl)

/-- What follows a fragment: the next one or the end of the list. -/
def EndsItem (t : Text) : Prop := ∃ c rest, t = c :: rest ∧ (c = ',' ∨ c = ')')

theorem EndsItem.stops {accepts : Char → Bool} (h : EndsItem t) (hcomma : accepts ',' = false)
    (hclose : accepts ')' = false) : Stops accepts t := by
  obtain ⟨c, rest, rfl, rfl | rfl⟩ := h
  · exact stops_of_head hcomma
  · exact stops_of_head hclose

theorem eq_unique_of_words {m : Modifier} {more : List String} (h : m.words = "UNIQUE" :: more) :
    m = .unique := by
  cases m with
  | unique => rfl
  | counting spelling => cases spelling <;> simp [Modifier.words, Counting.word] at h
  | _ => simp [Modifier.words] at h

theorem harmless_modifiers (ht : EndsItem t) (m : Modifier) (ms : List Modifier) :
    Harmless (m.print ++ (ColumnItem.printModifiers ms ++ t)) := by
  have hfirst : ∀ s ∈ Modifier.firstWords, s.toList ≠ [] ∧ Stops isBlank s.toList ∧
      (∀ x ∈ tableWords ++ indexWords, opens (x.toList.take s.toList.length) s.toList = false) ∧
      (s = "UNIQUE" ∨ opens ("UNIQUE".toList.take s.toList.length) s.toList = false) := by
    decide
  obtain ⟨s, hs, more, hwords⟩ := m.exists_words_eq
  obtain ⟨hne, hblank, hother, rfl | hunique⟩ := hfirst s hs
  · have hends : EndsUnique (ColumnItem.printModifiers ms ++ t) := by
      cases ms with
      | nil => exact .inl (ht.stops rfl rfl)
      | cons next ms =>
        rw [Modifier.printModifiers_cons, List.cons_append, List.append_assoc, Modifier.print,
          List.append_assoc]
        refine .inr ⟨_, rfl, next.stops_words (by decide) _, fun x hx => ?_⟩
        apply next.opens_words_eq_false
        exact fun s hs => (hfirst s hs).2.2.1 x (List.mem_append_right _ hx)
    rw [eq_unique_of_words hwords]
    exact harmless_unique hends
  · obtain ⟨tail, htail⟩ := exists_joined_eq s more
    rw [Modifier.print, hwords, htail, List.append_assoc, List.append_assoc]
    exact harmless_of_differ hne hblank hother hunique

theorem harmless_clause (clause : Clause) : Harmless (clause.print ++ t) := by
  have hkey : ∀ u : Text, EndsUnique (' ' :: ("KEY".toList ++ u)) := by
    intro u
    refine .inr ⟨_, rfl, stops_isBlank_of_isPhraseWord rfl u, fun s hs => ?_⟩
    apply opens_append_eq_false
    exact (by decide : ∀ s ∈ indexWords,
      opens (s.toList.take "KEY".toList.length) "KEY".toList = false) s hs
  cases clause with
  | primaryKey columns =>
    rw [Clause.print_primaryKey, List.append_assoc]
    exact harmless_of_differ (by decide) (by decide) (by decide) (by decide)
  | foreignKey columns table targets =>
    rw [Clause.print_foreignKey, List.append_assoc]
    exact harmless_of_differ (by decide) (by decide) (by decide) (by decide)
  | uniqueColumns columns =>
    rw [Clause.print_uniqueColumns, List.append_assoc, List.cons_append, List.append_assoc]
    refine harmless_unique (.inr ⟨_, rfl, columns.stops_print rfl _, fun s hs => ?_⟩)
    exact opens_eq_false_of_stops ((by decide : ∀ s ∈ indexWords, isPhraseWord s = true) s hs)
      (columns.stops_print rfl _)
  | key unique name columns =>
    cases unique with
    | true =>
      rw [Clause.print_uniqueKey, List.append_assoc, List.cons_append, List.append_assoc]
      exact harmless_unique (hkey _)
    | false =>
      rw [Clause.print_key, List.append_assoc]
      exact harmless_of_differ (by decide) (by decide) (by decide) (by decide)

end

/-! ## Literals -/

theorem sameLetter_quote {letter : Char} (h : isIdentifierChar letter = true) :
    sameLetter letter '\x27' = false := by
  rw [Bool.eq_false_iff]
  intro hsame
  exact absurd (isWordChar_of_sameLetter h hsame) (by decide)

/-- Letters at the start of a literal are letters of its text. -/
theorem opens_of_opens_doubled {letters : List Char}
    (hletters : ∀ letter ∈ letters, isIdentifierChar letter = true) {t rest : Text}
    (h : opens letters (doubled t ++ '\x27' :: rest) = true) : opens letters t = true := by
  induction letters generalizing t with
  | nil => rfl
  | cons letter letters ih =>
    have hquote := sameLetter_quote (hletters letter List.mem_cons_self)
    cases t with
    | nil =>
      rw [doubled, List.flatMap_nil, List.nil_append, opens, hquote] at h
      cases h
    | cons c t =>
      rw [doubled_cons] at h
      by_cases hc : c = '\x27'
      · rw [if_pos hc, hc, List.cons_append, opens, hquote] at h
        cases h
      · rw [if_neg hc, List.cons_append, opens, Bool.and_eq_true] at h
        rw [opens, h.1, ih (fun d hd => hletters d (List.mem_cons_of_mem letter hd)) h.2]
        rfl

/-- Without the letters that have another form, letters are found in lower case. -/
theorem isPrefix_of_opens {letters : List Char}
    (hletters : ∀ letter ∈ letters, letter.toLower ≠ 's' ∧ letter.toLower ≠ 'k') {t : Text}
    (h : opens letters t = true) : letters.map Char.toLower <+: t.map Char.toLower := by
  induction letters generalizing t with
  | nil => exact List.nil_prefix
  | cons letter letters ih =>
    cases t with
    | nil => cases h
    | cons c t =>
      obtain ⟨hs, hk⟩ := hletters letter List.mem_cons_self
      rw [opens, Bool.and_eq_true] at h
      have hletter : letter.toLower = c.toLower := by
        have hsame := h.1
        simp only [sameLetter, beq_eq_false_iff_ne.mpr hs, beq_eq_false_iff_ne.mpr hk,
          Bool.and_false, Bool.or_false, beq_iff_eq] at hsame
        exact hsame.symm
      rw [List.map_cons, List.map_cons, hletter]
      exact (List.prefix_cons_inj _).mpr
        (ih (fun d hd => hletters d (List.mem_cons_of_mem letter hd)) h.2)

section

variable {p : Pattern} (hp : p ∈ definitionPatterns) {rest : Text}

include hp

theorem passes_quoted (value : DefaultValue) : p.Passes (quoted value.text) rest := by
  have hled := ledByWords_of_mem hp
  have hnone : ∀ (t before : Text), ¬ "create".toList <:+: t.map Char.toLower →
      p.matchAt? ⟨before, doubled t ++ '\x27' :: rest⟩ = none := by
    intro t before ht
    apply hled.matchAt?_eq_none
    rintro ⟨-, s, hs, hopens, -⟩
    rw [List.mem_singleton.mp hs] at hopens
    have hopens := opens_of_opens_doubled (of_isPhraseWord rfl).2 hopens
    exact ht (isPrefix_of_opens (by simp) hopens).isInfix
  have hinside : ∀ t : Text, ¬ "create".toList <:+: t.map Char.toLower →
      p.Passes (doubled t ++ ['\x27']) rest := by
    intro t ht
    induction t with
    | nil => exact passes_cons hled rfl rfl passes_nil
    | cons c t ih =>
      have hmore := ih fun hwithin => ht (hwithin.trans (List.suffix_cons _ _).isInfix)
      by_cases hc : c = '\x27'
      · rw [doubled_cons, if_pos hc, hc]
        exact passes_cons hled rfl rfl (passes_cons hled rfl rfl hmore)
      · intro before
        have hfirst := hnone (c :: t) before ht
        rw [doubled_cons, if_neg hc] at hfirst ⊢
        rw [List.cons_append] at hfirst ⊢
        refine ⟨?_, hmore _⟩
        rwa [List.append_assoc]
  exact passes_cons hled rfl rfl (hinside value.text value.besides)

/-! ## Names and lists -/

/-- A search passes over a text without blanks before a text with which no definition goes on. -/
theorem passes_unbroken {u : Text} (hu : ∀ c ∈ u, isBlank c = false) (hrest : Stops isWordChar rest)
    (hblocks : Blocks p "CREATE" rest) : p.Passes u rest := by
  have hnone : ∀ u before : Text, (∀ c ∈ u, isBlank c = false) →
      p.matchAt? ⟨before, u ++ rest⟩ = none := by
    intro u before hu
    by_cases hopens : opens "CREATE".toList (u ++ rest) = true
    · obtain ⟨w, y, rfl, hsame⟩ := exists_sameWord_of_opens (of_isPhraseWord rfl).2 hrest hopens
      rw [List.append_assoc]
      cases y with
      | nil => exact hblocks w before hsame
      | cons c y =>
        exact blocks_of_stops hp (stops_of_head (hu c (by simp))) w before hsame
    · apply LedBy.matchAt?_eq_none (ledByWords_of_mem hp)
      rintro ⟨-, s, hs, hstarts, -⟩
      rw [List.mem_singleton.mp hs] at hstarts
      exact hopens hstarts
  induction u with
  | nil => exact passes_nil
  | cons c u ih =>
    intro before
    exact ⟨hnone (c :: u) before hu,
      ih (fun d hd => hu d (List.mem_cons_of_mem c hd)) _⟩

theorem passes_identifier (x : Identifier) (hrest : Stops isWordChar rest)
    (hblocks : Blocks p "CREATE" rest) : p.Passes x.text rest :=
  passes_unbroken hp (fun _ hc => x.isBlank_of_mem hc) hrest hblocks

theorem passes_unbroken_before_space {u t : Text} (hu : ∀ c ∈ u, isBlank c = false)
    (h : Harmless t) : p.Passes u (' ' :: t) :=
  passes_unbroken hp hu (stops_of_head rfl) (h.blocks hp)

theorem passes_before_space (x : Identifier) {u : Text} (h : Harmless u) :
    p.Passes x.text (' ' :: u) :=
  passes_unbroken_before_space hp (fun _ hc => x.isBlank_of_mem hc) h

theorem passes_before_sign (x : Identifier) {c : Char} (hword : isWordChar c = false)
    (hblank : isBlank c = false) : p.Passes x.text (c :: rest) :=
  passes_identifier hp x (stops_of_head hword)
    (blocks_of_stops hp (stops_of_head hblank))

theorem passes_sign {c : Char} (hc : isWordChar c = false) {t : Text} (h : p.Passes t rest) :
    p.Passes (c :: t) rest := passes_cons (ledByWords_of_mem hp) rfl hc h

theorem passes_words {words : List String} (hwords : ∀ x ∈ words, isPhraseWord x = true)
    (hother : ∀ x ∈ words, ¬ SameWord "CREATE".toList x.toList) (hrest : Stops isWordChar rest) :
    p.Passes (joined words) rest := passes_joined (ledByWords_of_mem hp) rfl hwords hother hrest

theorem passes_listed {items : List Text}
    (h : ∀ item ∈ items, ∀ rest, EndsItem rest → p.Passes item rest) (hrest : EndsItem rest) :
    p.Passes (listed items) rest := by
  induction items with
  | nil => exact passes_nil
  | cons item more ih =>
    cases more with
    | nil =>
      rw [listed, List.intercalate_singleton]
      exact h item List.mem_cons_self rest hrest
    | cons next more =>
      have hmore := ih fun other hother => h other (List.mem_cons_of_mem item hother)
      rw [listed_cons_cons]
      refine (h item List.mem_cons_self _ ⟨',', _, rfl, .inl rfl⟩).append ?_
      exact passes_sign hp rfl (passes_sign hp rfl hmore)

theorem passes_inner (names : Names) : p.Passes names.inner (')' :: rest) := by
  refine passes_listed hp ?_ ⟨')', rest, rfl, .inr rfl⟩
  intro item hitem rest hrest
  obtain ⟨x, -, rfl⟩ := List.mem_map.mp hitem
  exact passes_identifier hp x (hrest.stops rfl rfl)
    (blocks_of_stops hp (hrest.stops rfl rfl))

theorem passes_names (names : Names) : p.Passes names.print rest :=
  passes_sign hp rfl
    ((passes_inner hp names).append (passes_sign hp rfl passes_nil))

/-! ## Items -/

theorem passes_modifiers (hrest : EndsItem rest) (ms : List Modifier) :
    p.Passes (ColumnItem.printModifiers ms) rest := by
  induction ms with
  | nil => exact passes_nil
  | cons m ms ih =>
    have hfollow : Stops isWordChar (ColumnItem.printModifiers ms ++ rest) ∧
        Blocks p "CREATE" (ColumnItem.printModifiers ms ++ rest) := by
      cases ms with
      | nil =>
        exact ⟨hrest.stops rfl rfl,
          blocks_of_stops hp (hrest.stops rfl rfl)⟩
      | cons next ms =>
        rw [Modifier.printModifiers_cons, List.cons_append, List.append_assoc]
        exact ⟨stops_of_head rfl, (harmless_modifiers hrest next ms).blocks hp⟩
    have hoperand : p.Passes m.operand (ColumnItem.printModifiers ms ++ rest) ∧
        Stops isWordChar (m.operand ++ (ColumnItem.printModifiers ms ++ rest)) := by
      cases m with
      | default value =>
        exact ⟨passes_sign hp rfl (passes_quoted hp value), stops_of_head rfl⟩
      | references table column =>
        cases column with
        | none =>
          exact ⟨passes_sign hp rfl (passes_identifier hp _ hfollow.1 hfollow.2),
            stops_of_head rfl⟩
        | some column =>
          refine ⟨passes_sign hp rfl ?_, stops_of_head rfl⟩
          refine (passes_before_sign hp table.toIdentifier (by decide) (by decide)).append ?_
          refine passes_sign hp rfl ?_
          exact (passes_before_sign hp column.toIdentifier (by decide) (by decide)).append
            (passes_sign hp rfl passes_nil)
      | _ => exact ⟨passes_nil, hfollow.1⟩
    have hwords : ∀ x ∈ m.words, ¬ SameWord "CREATE".toList x.toList :=
      (by decide : ∀ words ∈ Modifier.phrases, ∀ x ∈ words, ¬ SameWord "CREATE".toList x.toList) _
        m.words_mem_phrases
    rw [Modifier.printModifiers_cons, Modifier.print, List.append_assoc]
    refine passes_sign hp rfl (Passes.append ?_ (hoperand.1.append ih))
    rw [List.append_assoc]
    exact passes_words hp m.isPhraseWord_of_mem_words hwords hoperand.2

theorem passes_arguments (arguments : Arguments) : p.Passes arguments.print rest := by
  have hdigits : ∀ (n : UInt32) {c : Char} {t : Text}, isWordChar c = false → isBlank c = false →
      p.Passes (Arguments.digits n) (c :: t) := by
    intro n c t hword hblank
    have hchars : ∀ d ∈ Arguments.digits n, isWordChar d = true := fun d hd =>
      isWordChar_of_isIdentifierChar (Arguments.isIdentifierChar_of_mem_digits hd)
    exact passes_word (ledByWords_of_mem hp) rfl hchars (stops_of_head hword)
      (blocks_of_stops hp (stops_of_head hblank))
  cases arguments with
  | none => exact passes_nil
  | one n =>
    exact passes_sign hp rfl ((hdigits n (by decide) (by decide)).append
      (passes_sign hp rfl passes_nil))
  | two precision scale =>
    refine passes_sign hp rfl ((hdigits precision (by decide) (by decide)).append ?_)
    refine passes_sign hp rfl (passes_sign hp rfl ?_)
    exact (hdigits scale (by decide) (by decide)).append (passes_sign hp rfl passes_nil)

theorem passes_type {type : String} (h : type ∈ typeNames) (hrest : Stops isWordChar rest) :
    p.Passes type.toList rest := by
  rcases List.mem_append.mp h with h | h
  · obtain ⟨words, hwords, rfl⟩ := List.mem_map.mp h
    rw [toList_intercalate hwords]
    apply passes_words hp (isPhraseWord_of_mem_longTypes hwords) _ hrest
    exact (by decide +kernel : ∀ words ∈ Column.longTypes, ∀ x ∈ words,
      ¬ SameWord "CREATE".toList x.toList) words hwords
  · have hword : ¬ SameWord "CREATE".toList type.toList :=
      (by decide +kernel : ∀ s ∈ Column.shortTypes, ¬ SameWord "CREATE".toList s.toList) type h
    rw [← joined_singleton]
    exact passes_words hp (by simpa using isPhraseWord_of_mem_shortTypes h) (by simpa using hword)
      hrest

theorem passes_column (item : ColumnItem) (hrest : EndsItem rest) : p.Passes item.print rest := by
  have hstops : Stops isWordChar (ColumnItem.printModifiers item.modifiers ++ rest) := by
    cases item.modifiers with
    | nil => exact hrest.stops rfl rfl
    | cons m ms => exact stops_of_head rfl
  have htype : Stops isWordChar
      (item.arguments.print ++ (ColumnItem.printModifiers item.modifiers ++ rest)) := by
    cases item.arguments with
    | none => exact hstops
    | one n => exact stops_of_head rfl
    | two precision scale => exact stops_of_head rfl
  rw [ColumnItem.print_eq]
  refine (passes_before_space hp _ (harmless_column item)).append (passes_sign hp rfl ?_)
  refine Passes.append ?_ ((passes_arguments hp item.arguments).append
    (passes_modifiers hp hrest item.modifiers))
  rw [List.append_assoc]
  exact passes_type hp item.known htype

theorem passes_clause (clause : Clause) (hrest : EndsItem rest) : p.Passes clause.print rest := by
  have hspace : ∀ {t : Text}, Stops isWordChar (' ' :: t) := stops_of_head rfl
  cases clause with
  | primaryKey columns =>
    exact (passes_words hp (by decide) (by decide) hspace).append
      (passes_sign hp rfl (passes_names hp columns))
  | foreignKey columns table targets =>
    have htable : p.Passes (table.text ++ Clause.printTargets targets) rest := by
      cases targets with
      | none =>
        rw [Clause.printTargets, Option.map_none, Option.getD_none, List.append_nil]
        exact passes_identifier hp table (hrest.stops rfl rfl)
          (blocks_of_stops hp (hrest.stops rfl rfl))
      | some names =>
        exact (passes_before_space hp table harmless_paren).append
          (passes_sign hp rfl (passes_names hp names))
    refine (passes_words hp (by decide) (by decide) hspace).append (passes_sign hp rfl ?_)
    refine (passes_names hp columns).append (passes_sign hp rfl ?_)
    exact (passes_words hp (by decide) (by decide) hspace).append (passes_sign hp rfl htable)
  | uniqueColumns columns =>
    exact (passes_words hp (by decide) (by decide) hspace).append
      (passes_sign hp rfl (passes_names hp columns))
  | key unique name columns =>
    have hname : p.Passes (Clause.printName name ++ columns.print) rest := by
      cases name with
      | none => exact passes_names hp columns
      | some x =>
        rw [Clause.printName, Option.map_some, Option.getD_some, List.append_assoc]
        exact (passes_before_space hp x.toIdentifier harmless_paren).append
          (passes_sign hp rfl (passes_names hp columns))
    refine Passes.append ?_ (passes_sign hp rfl hname)
    cases unique with
    | true => exact passes_words hp (by decide) (by decide) hspace
    | false => exact passes_words hp (by decide) (by decide) hspace

/-- A search for definitions passes over the items of a definition. -/
theorem passes_item (item : Item) (hrest : EndsItem rest) : p.Passes item.print rest := by
  cases item with
  | column item => exact passes_column hp item hrest
  | constraint label clause =>
    cases label with
    | none => exact passes_clause hp clause hrest
    | some label =>
      refine (passes_words hp (by decide) (by decide) (stops_of_head rfl)).append ?_
      refine passes_sign hp rfl ?_
      exact (passes_before_space hp label (harmless_clause clause)).append
        (passes_sign hp rfl (passes_clause hp clause hrest))

theorem passes_items (items : List Item) :
    p.Passes (listed (items.map Item.print) ++ [')', ';', '\n']) rest := by
  refine Passes.append ?_ ?_
  · refine passes_listed hp ?_ ⟨')', _, rfl, .inr rfl⟩
    intro item hitem rest hrest
    obtain ⟨x, -, rfl⟩ := List.mem_map.mp hitem
    exact passes_item hp x hrest
  · exact passes_sign hp rfl (passes_sign hp rfl (passes_sign hp rfl passes_nil))

end

end Declaration
end SqlAudit
