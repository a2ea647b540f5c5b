import SqlAudit.Proofs.Schema.DefinitionSearch

/-!
The definitions of a script are found one after the other.
-/

namespace SqlAudit

open Text Pattern Declaration

namespace Declaration

/-! ## Tables -/

/-- A definition of a table is found, whatever the name of the table. -/
theorem matchAt?_table (x : Identifier) {before : Text} (hbefore : Stops isWordChar before)
    (rest : Text) :
    ∃ m, Extraction.createTablePattern.matchAt? ⟨before, "CREATE".toList ++ ' ' ::
        ("TABLE".toList ++ ' ' :: (x.text ++ ' ' :: '(' :: rest))⟩ = some m ∧
      m.start.before = before ∧ m.textOf .table = x.text ∧
      m.stop = ⟨'(' :: ' ' :: (x.text.reverse ++ ' ' :: ("TABLE".toList.reverse ++ ' ' ::
        ("CREATE".toList.reverse ++ before))), rest⟩ := by
  have hcondition : ∀ {k : Way → Option Way} {b : Text} {captures : List Capture},
      (word "IF").first? (gap.first? ((word "NOT").first? k))
        ⟨⟨b, x.text ++ ' ' :: '(' :: rest⟩, captures⟩ = none := by
    intro k b captures
    rw [first?_word_gap rfl (fun c hc => x.isWordChar_of_mem hc) (stops_of_head rfl)]
    split
    · rw [first?_gap (stops_of_head rfl), first?_word_eq_none (opens_eq_false_of_stops rfl
        (stops_of_head rfl))]
    · rfl
  apply exists_matchAt?
  · rw [Extraction.createTablePattern, first?_all]
    simp only [List.foldr_cons, List.foldr_nil]
    rw [first?_edge_before rfl hbefore, first?_word_append,
      first?_gap (stops_isBlank_of_isPhraseWord rfl _)]
    simp only [first?_opt, first?_all, List.foldr_cons, List.foldr_nil, oneWordOf, List.map_cons,
      List.map_nil, first?_seq, first?_any_cons, first?_any_nil, Option.or_none]
    rw [first?_word_of_differ (by decide), first?_word_of_differ (by decide),
      first?_word_of_differ (by decide), first?_word_of_differ (by decide),
      first?_word_of_differ (by decide), Option.none_or, Option.none_or, Option.none_or,
      Option.none_or, first?_word_append, first?_gap (x.stops_isBlank _), first?_opt, first?_all]
    simp only [List.foldr_cons]
    rw [hcondition, Option.none_or, first?_capture]
    apply first?_spacedName_of_isPlainName x.isPlainName (stops_of_head rfl)
      (fun _ _ => first?_dot_eq_none (stops_of_head rfl) (stops_of_head rfl))
    apply first?_space_of_some (stops_of_head rfl)
    rw [first?_sign]
  · exact ⟨rfl, Cursor.upTo_append _ _ _ _, rfl⟩

/-! ## Indexes -/

def indexTarget : List Pattern :=
  [opt (seq (word "ONLY") gap), capture .table spacedName, space,
    opt (all [word "USING", gap, many1 isWordChar, space]), sign '(']

def indexTail : List Pattern :=
  opt (seq (word "CONCURRENTLY") gap) ::
    opt (all [word "IF", gap, word "NOT", gap, word "EXISTS", gap]) ::
    capture .index Pattern.name :: gap :: word "ON" :: gap :: indexTarget

theorem createIndexPattern_eq : Extraction.createIndexPattern =
    all (edge :: word "CREATE" :: gap :: opt (capture .unique (seq (word "UNIQUE") gap)) ::
      opt (all [opt (word "NON"), word "CLUSTERED", gap]) :: word "INDEX" :: gap ::
        indexTail) := rfl

section

variable {before rest : Text} {captures : List Capture}

theorem indexTarget_paren :
    indexTarget.foldr first? some ⟨⟨before, '(' :: rest⟩, captures⟩ = none := by
  have hparen : Stops (fun c => isNameChar c || "\x60\x22[".toList.contains c) ('(' :: rest) :=
    stops_of_head rfl
  have hname : ∀ {k : Way → Option Way} {cs : List Capture},
      spacedName.first? k ⟨⟨before, '(' :: rest⟩, cs⟩ = none := by
    intro k cs
    rw [spacedName, first?_seq, first?_name_eq_none hparen]
  have honly : opens "ONLY".toList ('(' :: rest) = false :=
    opens_eq_false_of_stops rfl (stops_of_head rfl)
  simp only [indexTarget, List.foldr_cons, List.foldr_nil]
  rw [first?_opt, first?_seq, first?_word_eq_none honly, Option.none_or, first?_capture, hname]

/-- A word is read as a name up to the gap after it. -/
theorem first?_indexName {x : Text} (hx : x.isBareName = true) {k : Way → Option Way} {t : Text}
    (ht : Stops isBlank t) :
    (capture .index Pattern.name).first? (gap.first? k) ⟨⟨before, x ++ ' ' :: t⟩, captures⟩ =
      k ⟨⟨' ' :: (x.reverse ++ before), t⟩,
        ⟨.index, ⟨before, x ++ ' ' :: t⟩, ⟨x.reverse ++ before, ' ' :: t⟩⟩ :: captures⟩ := by
  obtain ⟨hne, hchars⟩ := of_isBareName hx
  have hquote : ∀ c ∈ x, "\x60\x22[".toList.contains c = false := by
    intro c hc
    have hne := fun d hd => ne_of_isNameChar (d := d) (hchars c hc) hd
    simp [hne '\x60' (by decide), hne '\x22' (by decide), hne '[' (by decide)]
  rw [first?_capture]
  refine (first?_name_of_blocked hne hchars hquote (stops_of_head rfl) ?_).trans ?_
  · rintro ⟨⟨b, a⟩, cs⟩ d hd hhead
    apply first?_gap_eq_none
    intro c hc
    rw [hhead] at hc
    cases hc
    exact isBlank_eq_false_of_isNameChar (hchars d hd)
  · rw [first?_gap ht]

section

variable {table : Text} (htable : table.isPlainName = true)

include htable

theorem indexTarget_table :
    indexTarget.foldr first? some ⟨⟨before, table ++ ' ' :: '(' :: rest⟩, captures⟩ =
      some ⟨⟨'(' :: ' ' :: (table.reverse ++ before), rest⟩,
        ⟨.table, ⟨before, table ++ ' ' :: '(' :: rest⟩,
          ⟨table.reverse ++ before, ' ' :: '(' :: rest⟩⟩ :: captures⟩ := by
  have hname : ∀ {k : Way → Option Way} {b : Text} {cs : List Capture},
      (capture .table spacedName).first? k ⟨⟨b, '(' :: rest⟩, cs⟩ = none := by
    intro k b cs
    rw [first?_capture, spacedName, first?_seq, first?_name_eq_none (stops_of_head rfl)]
  have husing : opens "USING".toList ('(' :: rest) = false :=
    opens_eq_false_of_stops rfl (stops_of_head rfl)
  have honly : ∀ {k : Way → Option Way},
      (seq (word "ONLY") gap).first? ((capture .table spacedName).first? k)
        ⟨⟨before, table ++ ' ' :: '(' :: rest⟩, captures⟩ = none := by
    intro k
    rw [first?_seq]
    apply first?_word_gap_eq_none rfl (isBlank_eq_false_of_isPlainName htable) (stops_of_head rfl)
    intro b
    rw [first?_gap (stops_of_head rfl), hname]
  simp only [indexTarget, List.foldr_cons, List.foldr_nil]
  rw [first?_opt, honly, Option.none_or, first?_capture]
  apply first?_spacedName_of_isPlainName htable (stops_of_head rfl)
    (fun _ _ => first?_dot_eq_none (stops_of_head rfl) (stops_of_head rfl))
  apply first?_space_of_some (stops_of_head rfl)
  rw [first?_opt, first?_all_cons, first?_word_eq_none husing, Option.none_or, first?_sign]

variable {x : Text} (hx : x.isBareName = true)

include hx

theorem indexTail_names :
    indexTail.foldr first? some ⟨⟨before, x ++ ' ' :: ("ON".toList ++ ' ' ::
        (table ++ ' ' :: '(' :: rest))⟩, captures⟩ =
      some ⟨⟨'(' :: ' ' :: (table.reverse ++ ' ' :: ("ON".toList.reverse ++ ' ' ::
          (x.reverse ++ before))), rest⟩,
        ⟨.table, ⟨' ' :: ("ON".toList.reverse ++ ' ' :: (x.reverse ++ before)),
            table ++ ' ' :: '(' :: rest⟩,
          ⟨table.reverse ++ ' ' :: ("ON".toList.reverse ++ ' ' :: (x.reverse ++ before)),
            ' ' :: '(' :: rest⟩⟩ ::
        ⟨.index,
          ⟨before, x ++ ' ' :: ("ON".toList ++ ' ' :: (table ++ ' ' :: '(' :: rest))⟩,
          ⟨x.reverse ++ before, ' ' :: ("ON".toList ++ ' ' ::
            (table ++ ' ' :: '(' :: rest))⟩⟩ :: captures⟩ := by
  have honBlank : Stops isBlank ("ON".toList ++ ' ' :: (table ++ ' ' :: '(' :: rest)) :=
    stops_isBlank_of_isPhraseWord rfl _
  have hunbroken : ∀ c ∈ x, isBlank c = false :=
    fun c hc => isBlank_eq_false_of_isNameChar ((of_isBareName hx).2 c hc)
  -- An index may be named like the word that may stand before its name; then no table is left.
  have hconcurrently : ∀ {b : Text},
      (capture .index Pattern.name).first? (gap.first? ((word "ON").first? (gap.first?
        (indexTarget.foldr first? some)))) ⟨⟨b, "ON".toList ++ ' ' ::
          (table ++ ' ' :: '(' :: rest)⟩, captures⟩ = none := by
    intro b
    refine (first?_indexName (x := "ON".toList) (by decide)
      (stops_isBlank_of_isPlainName htable _)).trans ?_
    apply first?_word_gap_eq_none rfl (isBlank_eq_false_of_isPlainName htable) (stops_of_head rfl)
    intro b
    rw [first?_gap (stops_of_head rfl), indexTarget_paren]
  have hcondition : ∀ {k : Way → Option Way} {b : Text} {cs : List Capture},
      (word "IF").first? (gap.first? ((word "NOT").first? k)) ⟨⟨b, x ++ ' ' ::
        ("ON".toList ++ ' ' :: (table ++ ' ' :: '(' :: rest))⟩, cs⟩ = none := by
    intro k b cs
    apply first?_word_gap_eq_none rfl hunbroken (stops_of_head rfl)
    intro b
    rw [first?_gap honBlank, first?_word_of_differ (by decide)]
  simp only [indexTail, List.foldr_cons]
  rw [first?_opt, first?_seq, first?_word_gap_eq_none rfl hunbroken (stops_of_head rfl),
    Option.none_or, first?_opt, first?_all]
  · simp only [List.foldr_cons]
    rw [hcondition, Option.none_or, first?_indexName hx honBlank, first?_word_append,
      first?_gap (stops_isBlank_of_isPlainName htable _), indexTarget_table htable]
  · intro b
    rw [first?_gap honBlank, first?_opt, first?_all_cons, first?_word_of_differ (by decide),
      Option.none_or, hconcurrently]

theorem matchAt?_index (unique : Bool) (rest : Text) (hbefore : Stops isWordChar before) :
    ∃ m, Extraction.createIndexPattern.matchAt?
        ⟨before, joined (if unique then ["CREATE", "UNIQUE", "INDEX"] else ["CREATE", "INDEX"]) ++
          ' ' :: (x ++ ' ' :: ("ON".toList ++ ' ' :: (table ++ ' ' :: '(' :: rest)))⟩ =
        some m ∧
      m.textOf .table = table ∧ m.textOf .index = x ∧
      (m.part? .unique).isSome = unique ∧ m.stop.after = rest := by
  have hxBlank : Stops isBlank (x ++ ' ' :: ("ON".toList ++ ' ' :: (table ++ ' ' :: '(' :: rest))) :=
    stops_isBlank_of_isPlainName (isPlainName_of_isBareName hx) _
  -- What is read from the last of the first words on.
  have hindex : ∀ {b : Text} {cs : List Capture}, (opt (all [opt (word "NON"), word "CLUSTERED",
      gap])).first? ((word "INDEX").first? (gap.first? (indexTail.foldr first? some)))
        ⟨⟨b, "INDEX".toList ++ ' ' :: (x ++ ' ' :: ("ON".toList ++ ' ' ::
          (table ++ ' ' :: '(' :: rest)))⟩, cs⟩ =
      indexTail.foldr first? some ⟨⟨' ' :: ("INDEX".toList.reverse ++ b), x ++ ' ' ::
        ("ON".toList ++ ' ' :: (table ++ ' ' :: '(' :: rest))⟩, cs⟩ := by
    intro b cs
    rw [first?_opt, first?_all_cons, first?_opt, first?_word_of_differ (by decide), Option.none_or,
      first?_all_cons, first?_word_of_differ (by decide), Option.none_or, first?_word_append,
      first?_gap hxBlank]
  rw [createIndexPattern_eq]
  cases unique with
  | true =>
    rw [if_pos rfl, joined_cons_cons, joined_cons_cons, joined_singleton, List.append_assoc,
      List.cons_append, List.append_assoc, List.cons_append]
    apply exists_matchAt?
    · rw [first?_all]
      simp only [List.foldr_cons]
      rw [first?_edge_before rfl hbefore, first?_word_append,
        first?_gap (stops_isBlank_of_isPhraseWord rfl _), first?_opt, first?_capture, first?_seq,
        first?_word_append, first?_gap (stops_isBlank_of_isPhraseWord rfl _), hindex,
        indexTail_names htable hx, Option.some_or]
    · exact ⟨Cursor.upTo_append _ _ _ _, Cursor.upTo_append _ _ _ _, rfl, rfl⟩
  | false =>
    rw [if_neg (by simp), joined_cons_cons, joined_singleton, List.append_assoc, List.cons_append]
    apply exists_matchAt?
    · rw [first?_all]
      simp only [List.foldr_cons]
      rw [first?_edge_before rfl hbefore, first?_word_append,
        first?_gap (stops_isBlank_of_isPhraseWord rfl _), first?_opt, first?_capture, first?_seq,
        first?_word_of_differ (by decide), Option.none_or, hindex, indexTail_names htable hx]
    · exact ⟨Cursor.upTo_append _ _ _ _, Cursor.upTo_append _ _ _ _, rfl, rfl⟩

end

end

/-! ## Other definitions -/

/-- A search for indexes passes over a table. -/
theorem passes_table (table : TableItem) {rest : Text} :
    Extraction.createIndexPattern.Passes table.print rest := by
  have hp : Extraction.createIndexPattern ∈ definitionPatterns := by simp [definitionPatterns]
  have hblocks : ∀ t : Text,
      Blocks Extraction.createIndexPattern "CREATE" (' ' :: ("TABLE".toList ++ t)) := by
    intro t
    refine blocks_createIndex (stops_isBlank_of_isPhraseWord rfl t) ?_ ?_
    · intro s hs
      apply opens_append_eq_false
      exact (by decide : ∀ s ∈ indexWords,
        opens (s.toList.take "TABLE".toList.length) "TABLE".toList = false) s hs
    · intro hopens
      rw [opens_append_eq_false (by decide)] at hopens
      cases hopens
  rw [TableItem.print, joined_cons_cons, joined_singleton, List.append_assoc, List.cons_append]
  refine Passes.append ?_ (passes_sign hp rfl (Passes.append ?_ (passes_sign hp rfl ?_)))
  · rw [List.cons_append, List.append_assoc]
    exact passes_word (ledByWords_of_mem hp) rfl (List.all_eq_true.mp rfl) (stops_of_head rfl)
      (hblocks _)
  · rw [← joined_singleton]
    exact passes_words hp (by decide) (by decide) (stops_of_head rfl)
  · exact (passes_before_space hp table.name harmless_paren).append
      (passes_sign hp rfl (passes_sign hp rfl (passes_items hp table.items)))

/-- A search for tables passes over an index, if it passes over its list. -/
theorem passes_indexText {x table list rest : Text} (unique : Bool)
    (hx : ∀ c ∈ x, isBlank c = false) (htable : ∀ c ∈ table, isBlank c = false)
    (hlist : Extraction.createTablePattern.Passes list rest) :
    Extraction.createTablePattern.Passes
      (joined (if unique then ["CREATE", "UNIQUE", "INDEX"] else ["CREATE", "INDEX"]) ++ ' ' ::
        (x ++ ' ' :: (joined ["ON"] ++ ' ' :: (table ++ ' ' :: '(' :: list)))) rest := by
  have hp : Extraction.createTablePattern ∈ definitionPatterns := by simp [definitionPatterns]
  have hon : ∀ {t : Text}, Harmless (joined ["ON"] ++ t) := by
    intro t
    rw [joined_singleton]
    exact harmless_of_differ (by decide) (by decide) (by decide) (by decide)
  have htail : Extraction.createTablePattern.Passes (' ' :: (x ++ ' ' ::
      (joined ["ON"] ++ ' ' :: (table ++ ' ' :: '(' :: list)))) rest := by
    refine passes_sign hp rfl ((passes_unbroken_before_space hp hx hon).append ?_)
    refine passes_sign hp rfl (Passes.append ?_ ?_)
    · exact passes_words hp (by decide) (by decide) (stops_of_head rfl)
    refine passes_sign hp rfl ((passes_unbroken_before_space hp htable harmless_paren).append ?_)
    exact passes_sign hp rfl (passes_sign hp rfl hlist)
  -- The second word shows that no table is defined.
  have hhead : ∀ (s : String) (more : List String), isPhraseWord s = true →
      (∀ x ∈ tableWords, opens (x.toList.take s.toList.length) s.toList = false) →
      (∀ x ∈ s :: more, isPhraseWord x = true ∧ ¬ SameWord "CREATE".toList x.toList) →
      ∀ t : Text,
        Extraction.createTablePattern.Passes (joined ("CREATE" :: s :: more)) (' ' :: t) := by
    intro s more hs hother hwords t
    obtain ⟨tail, hjoined⟩ := exists_joined_eq s more
    have hblocks : Blocks Extraction.createTablePattern "CREATE"
        (' ' :: joined (s :: more) ++ ' ' :: t) := by
      rw [hjoined, List.cons_append, List.append_assoc]
      exact blocks_createTable (stops_isBlank_of_isPhraseWord hs _)
        fun x hx => opens_append_eq_false (hother x hx) _
    rw [joined_cons_cons]
    refine Passes.append ?_ (passes_sign hp rfl (passes_words hp (fun x hx => (hwords x hx).1)
      (fun x hx => (hwords x hx).2) (stops_of_head rfl)))
    exact passes_word (ledByWords_of_mem hp) rfl (List.all_eq_true.mp rfl) (stops_of_head rfl)
      hblocks
  refine Passes.append ?_ htail
  cases unique with
  | true => exact hhead "UNIQUE" ["INDEX"] rfl (by decide) (by decide) _
  | false => exact hhead "INDEX" [] rfl (by decide) (by decide) _

theorem passes_index (index : IndexItem) {rest : Text} :
    Extraction.createTablePattern.Passes index.print rest := by
  have hp : Extraction.createTablePattern ∈ definitionPatterns := by simp [definitionPatterns]
  have hlist : Extraction.createTablePattern.Passes (index.columns.inner ++ [')', ';', '\n']) rest :=
    (passes_inner hp index.columns).append (passes_sign hp rfl
      (passes_sign hp rfl (passes_sign hp rfl passes_nil)))
  rw [IndexItem.print, index.columns.print_append]
  exact passes_indexText index.unique (fun _ hc => index.name.isBlank_of_mem hc)
    (fun _ hc => index.table.isBlank_of_mem hc) hlist

end Declaration
end SqlAudit
