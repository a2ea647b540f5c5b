import SqlAudit.Proofs.Pattern.Reach
import SqlAudit.Proofs.Schema.NameReading
import SqlAudit.Proofs.Schema.ReferenceResolution
import SqlAudit.Review.PredicateCheck

/-!
The tables of a statement.  A search goes on right behind the table name that it found, so every
round reads something and there is a last one.  Along a chain of joins every table is found: the
word behind a table name is its alias or the `JOIN` of the next table, and the search starts before
both.
-/

namespace SqlAudit

open Text Pattern

namespace PredicateCheck

/-! ## Rounds -/

/-- Where the search goes on after a match. -/
def resume (m : Match) : Cursor := (m.part? .table).elim m.stop Capture.stop

/-- The search for tables from a position has a last round, and this is what it finds. -/
inductive Finds (tables : List Table) : Cursor → List TableUse → Prop where
  | last {c : Cursor} : tablePattern.findFrom? c = none → Finds tables c []
  | more {c : Cursor} {m : Match} {uses : List TableUse} : tablePattern.findFrom? c = some m →
      Finds tables (resume m) uses → Finds tables c ((tableUse? tables m).toList ++ uses)

/-- Every round reads something. -/
theorem length_resume_lt {c : Cursor} {m : Match} (h : tablePattern.findFrom? c = some m) :
    (resume m).after.length < c.after.length := by
  obtain ⟨hreach, hm⟩ := reaches_of_findFrom? h
  have hstart := length_le_of_reaches hreach
  have hways := (of_matchAt?_eq_some hm).2
  have hwidth : 0 < tablePattern.minWidth := by decide
  rw [resume]
  cases hpart : m.part? .table with
  | none =>
    have hread := minWidth_le_of_mem_ways hways
    simp only [Option.elim_none] at *
    omega
  | some name =>
    obtain ⟨p, hp, w, v, hread, hfirst, hstop⟩ := readBy_of_part? hm hpart
    have hname : ∀ p ∈ tablePattern.bodies .table, 0 < p.minWidth := by decide
    have hpositive := hname p hp
    have hwide := minWidth_le_of_mem_ways hread
    have hmem : name ∈ m.captures := List.mem_of_find?_eq_some hpart
    rcases reaches_of_mem_captures hways hmem with hnone | ⟨hbefore, -, -⟩
    · cases hnone
    · have hlead := length_le_of_reaches hbefore
      rw [hfirst] at hlead
      rw [Option.elim_some, hstop]
      simp only at hlead
      omega

theorem finds_tableUsesFrom (tables : List Table) {count : Nat} {c : Cursor}
    (h : c.after.length ≤ count) : Finds tables c (tableUsesFrom tables count c) := by
  induction count generalizing c with
  | zero =>
    cases hfind : tablePattern.findFrom? c with
    | none => exact .last hfind
    | some m =>
      have hlength := length_resume_lt hfind
      omega
  | succ count ih =>
    rw [tableUsesFrom]
    cases hfind : tablePattern.findFrom? c with
    | none => exact .last hfind
    | some m =>
      have hlength := length_resume_lt hfind
      exact .more hfind (ih (by omega))

/-- In every statement the search has a last round. -/
theorem finds_tableUses (tables : List Table) (statement : Text) :
    Finds tables (Cursor.first statement) (tableUses tables statement) :=
  finds_tableUsesFrom tables (Nat.le_refl _)

theorem Finds.unique {tables : List Table} {c : Cursor} {uses others : List TableUse}
    (h : Finds tables c uses) (hother : Finds tables c others) : uses = others := by
  induction h generalizing others with
  | last hnone =>
    cases hother with
    | last _ => rfl
    | more hsome _ =>
      rw [hnone] at hsome
      cases hsome
  | more hfind _ ih =>
    cases hother with
    | last hnone =>
      rw [hfind] at hnone
      cases hnone
    | more hsome hrest =>
      rw [hfind] at hsome
      rw [← Option.some.inj hsome] at hrest ⊢
      rw [ih hrest]

/-- A search goes on as it would from a later position if nothing matches before that. -/
theorem Finds.of_skips {tables : List Table} {before t rest : Text} {uses : List TableUse}
    (h : tablePattern.Skips before t rest) (hrest : Finds tables ⟨t.reverse ++ before, rest⟩ uses) :
    Finds tables ⟨before, t ++ rest⟩ uses := by
  have hfind : tablePattern.findFrom? ⟨before, t ++ rest⟩ =
      tablePattern.findFrom? ⟨t.reverse ++ before, rest⟩ := findBetween?_of_skips h
  cases hrest with
  | last hnone => exact .last (hfind.trans hnone)
  | more hsome hmore => exact .more (hfind.trans hsome) hmore

/-! ## One table -/

/-- A run of characters that is captured. -/
def ofRun (part : Part) (before x rest : Text) : Capture :=
  ⟨part, ⟨before, x ++ rest⟩, ⟨x.reverse ++ before, rest⟩⟩

theorem text_ofRun (part : Part) (before x rest : Text) : (ofRun part before x rest).text = x :=
  Cursor.upTo_append _ _ _ _

/-- What stands behind a table name, and the word in it that is taken for an alias. -/
inductive Labelled : Text → Option Identifier → Prop where
  | empty : Labelled [] none
  | bare (x : Identifier) {rest : Text} : ¬ SameWord "AS".toList x.text → Stops isWordChar rest →
      Labelled (' ' :: (x.text ++ rest)) (some x)
  | marked (x : Identifier) {rest : Text} : Stops isWordChar rest →
      Labelled (' ' :: ("AS".toList ++ ' ' :: (x.text ++ rest))) (some x)

namespace Labelled

variable {rest : Text} {label : Option Identifier}

theorem stops (h : Labelled rest label) {accepts : Char → Bool} (hspace : accepts ' ' = false) :
    Stops accepts rest := by
  cases h with
  | empty => exact stops_nil _
  | bare _ _ _ => exact stops_of_head hspace
  | marked _ _ => exact stops_of_head hspace

/-- The word is captured, and nothing else. -/
theorem exists_first?_eq (h : Labelled rest label) (before : Text) (captures : List Capture) :
    ∃ (stop : Cursor) (own : Option Capture),
      (opt (all [gap, opt (seq "AS" gap), capture .label plainWord])).first? some
        ⟨⟨before, rest⟩, captures⟩ = some ⟨stop, own.toList ++ captures⟩ ∧
      (∀ c ∈ own, c.part = .label) ∧ own.map Capture.text = label.map Identifier.text := by
  have hword : ∀ (x : Identifier) (b : Text) {tail : Text}, Stops isWordChar tail →
      (all [capture .label plainWord]).first? some ⟨⟨b, x.text ++ tail⟩, captures⟩ =
        some ⟨⟨x.text.reverse ++ b, tail⟩, ofRun .label b x.text tail :: captures⟩ := by
    intro x b tail htail
    rw [first?_all_cons, first?_capture]
    exact x.first?_plainWord htail (first?_all_nil _ _)
  cases h with
  | empty =>
    refine ⟨⟨before, []⟩, none, ?_, by simp, rfl⟩
    rw [first?_opt, first?_all_cons, first?_gap_eq_none (stops_nil _), Option.none_or]
    rfl
  | @bare x tail hx htail =>
    let lead := ' ' :: before
    refine ⟨⟨x.text.reverse ++ lead, tail⟩, some (ofRun .label lead x.text tail), ?_,
      by simp [ofRun], congrArg some (text_ofRun _ _ _ _)⟩
    have hunmarked : (seq "AS" gap).first? ((all [capture .label plainWord]).first? some)
        ⟨⟨lead, x.text ++ tail⟩, captures⟩ = none := by
      rw [first?_seq, first?_word_gap (by decide) (fun c hc => x.isWordChar_of_mem hc) htail,
        if_neg hx]
    rw [first?_opt, first?_all_cons, first?_gap (x.stops_isBlank tail), first?_all_cons, first?_opt,
      hunmarked, Option.none_or, hword x _ htail, Option.some_or]
    rfl
  | @marked x tail htail =>
    let lead := ' ' :: ("AS".toList.reverse ++ ' ' :: before)
    refine ⟨⟨x.text.reverse ++ lead, tail⟩, some (ofRun .label lead x.text tail), ?_,
      by simp [ofRun], congrArg some (text_ofRun _ _ _ _)⟩
    have hblank : Stops isBlank ("AS".toList ++ ' ' :: (x.text ++ tail)) :=
      stops_isBlank_of_isPhraseWord (by decide) _
    have hmarked : (seq "AS" gap).first? ((all [capture .label plainWord]).first? some)
        ⟨⟨' ' :: before, "AS".toList ++ ' ' :: (x.text ++ tail)⟩, captures⟩ =
          (all [capture .label plainWord]).first? some ⟨⟨lead, x.text ++ tail⟩, captures⟩ := by
      rw [first?_seq, first?_word_append, first?_gap (x.stops_isBlank tail)]
    rw [first?_opt, first?_all_cons, first?_gap hblank, first?_all_cons,
      first?_opt, hmarked, hword x _ htail, Option.some_or, Option.some_or]
    rfl

end Labelled

theorem first?_fromOrJoin {β : Type} {k : Way → Option β} {before t : Text}
    {captures : List Capture} {s : String} (hs : s = "FROM" ∨ s = "JOIN") :
    (oneWordOf ["FROM", "JOIN", "UPDATE"]).first? k ⟨⟨before, s.toList ++ t⟩, captures⟩ =
      k ⟨⟨s.toList.reverse ++ before, t⟩, captures⟩ := by
  have hother : ∀ other w : String, opens (other.toList.take w.toList.length) w.toList = false →
      (word other).first? k ⟨⟨before, w.toList ++ t⟩, captures⟩ = none :=
    fun other w h => first?_word_of_differ h
  rw [oneWordOf, List.map_cons, List.map_cons, List.map_singleton, first?_any_cons, first?_any_cons,
    any]
  rcases hs with rfl | rfl
  · rw [first?_word_append, hother "JOIN" "FROM" (by decide), hother "UPDATE" "FROM" (by decide),
      Option.none_or, Option.or_none]
  · rw [first?_word_append, hother "FROM" "JOIN" (by decide), hother "UPDATE" "JOIN" (by decide),
      Option.none_or, Option.or_none]

/-- A table is matched with the word behind its name, and the search goes on between the two. -/
theorem exists_matchAt?_table {s : String} (hs : s = "FROM" ∨ s = "JOIN") {before rest : Text}
    (hbefore : Stops isWordChar before) (x : Identifier) {label : Option Identifier}
    (h : Labelled rest label) :
    ∃ (m : Match) (after : Text),
      tablePattern.matchAt? ⟨before, s.toList ++ ' ' :: (x.text ++ rest)⟩ = some m ∧
      resume m = ⟨after, rest⟩ ∧ m.textOf .table = x.text ∧
      m.textOf? .label = label.map Identifier.text := by
  have hphrase : isPhraseWord s = true := by
    rcases hs with rfl | rfl <;> decide
  have hname : Stops isNameChar rest := h.stops (by decide)
  have hdot : Stops (· == '.') rest := h.stops (by decide)
  let lead := ' ' :: (s.toList.reverse ++ before)
  let name := ofRun .table lead x.text rest
  obtain ⟨stop, own, hlabel, hpart, htext⟩ := h.exists_first?_eq (x.text.reverse ++ lead) [name]
  let m : Match := ⟨⟨before, s.toList ++ ' ' :: (x.text ++ rest)⟩, stop, own.toList ++ [name]⟩
  have htable : m.part? .table = some name := by
    rw [Match.part?]
    cases own with
    | none => rfl
    | some c => simp [m, hpart c rfl, name, ofRun]
  have hown : m.part? .label = own := by
    rw [Match.part?]
    cases own with
    | none => rfl
    | some c => simp [m, hpart c rfl]
  have hfirst : tablePattern.first? some ⟨m.start, []⟩ = some ⟨stop, own.toList ++ [name]⟩ := by
    rw [tablePattern, first?_all_cons, first?_edge_before hphrase hbefore, first?_all_cons,
      first?_fromOrJoin hs, first?_all_cons, first?_gap (x.stops_isBlank rest), first?_all_cons,
      first?_capture]
    exact x.first?_dottedName hname hdot hlabel
  refine ⟨m, x.text.reverse ++ lead, matchAt?_of_first? hfirst, ?_, ?_, ?_⟩
  · rw [resume, htable]
    rfl
  · rw [Match.textOf, Match.textOf?, htable, Option.map_some, text_ofRun]
    rfl
  · rw [Match.textOf?, hown, htext]

/-! ## Chains -/

theorem ledByWords_tablePattern : tablePattern.LedByWords ["FROM", "JOIN", "UPDATE"] :=
  ledByWords_oneWordOf_gap _ _

theorem isPhraseWord_of_head : ∀ s ∈ ["FROM", "JOIN", "UPDATE"], isPhraseWord s = true := by decide

theorem skips_space {before t rest : Text} (h : tablePattern.Skips (' ' :: before) t rest) :
    tablePattern.Skips before (' ' :: t) rest :=
  skips_cons ledByWords_tablePattern isPhraseWord_of_head (by decide) h

/-- An alias, which may have `AS` before it. -/
structure Label where
  word : Identifier
  marked : Bool
  free : ∀ s ∈ ["AS", "FROM", "UPDATE"] ++ notAliases, sameName s word.name = false

namespace Label

def text (l : Label) : Text :=
  if l.marked then ' ' :: ("AS".toList ++ ' ' :: l.word.text) else ' ' :: l.word.text

theorem not_sameWord (l : Label) {s : String} (hs : s ∈ ["AS", "FROM", "UPDATE"] ++ notAliases) :
    ¬ SameWord s.toList l.word.text := by
  intro h
  have hname : sameName s l.word.name = true := by
    apply sameName_symm
    rw [sameName, Identifier.name, String.toList_ofList]
    exact Identifier.sameLetters_of_sameWord h
  rw [l.free s hs] at hname
  cases hname

theorem skips (l : Label) (before : Text) {rest : Text} (hrest : Stops isWordChar rest) :
    tablePattern.Skips before l.text rest := by
  have hword : ∀ b, tablePattern.Skips b l.word.text rest := by
    intro b
    have hheads : ∀ s ∈ ["FROM", "JOIN", "UPDATE"], s ∈ ["AS", "FROM", "UPDATE"] ++ notAliases := by
      decide
    rw [← List.append_nil l.word.text]
    exact skips_word_append ledByWords_tablePattern isPhraseWord_of_head
      (fun c hc => l.word.isWordChar_of_mem hc) (fun s hs => l.not_sameWord (hheads s hs)) hrest
      trivial
  rw [text]
  by_cases hmarked : l.marked = true
  · rw [if_pos hmarked]
    apply skips_space
    exact skips_word_append ledByWords_tablePattern isPhraseWord_of_head
      (isWordChar_of_isPhraseWord (by decide : isPhraseWord "AS" = true)) (by decide)
      (stops_of_head (by decide)) (skips_space (hword _))
  · rw [if_neg hmarked]
    exact skips_space (hword _)

end Label

/-- A declared table in a chain, with its alias. -/
structure Link (tables : List Table) where
  table : Table
  declared : table ∈ tables
  label : Option Label

namespace Link

variable {tables : List Table}

def use (l : Link tables) : TableUse := ⟨l.table, l.label.map (·.word.name)⟩

end Link

def labelText (label : Option Label) : Text := label.elim [] Label.text

variable {tables : List Table}

def joins : List (Link tables) → Text
  | [] => []
  | l :: more =>
    ' ' :: ("JOIN".toList ++ ' ' :: (l.table.name.toList ++ (labelText l.label ++ joins more)))

def chain (first : Link tables) (more : List (Link tables)) : Text :=
  "FROM".toList ++ ' ' :: (first.table.name.toList ++ (labelText first.label ++ joins more))

theorem stops_joins (links : List (Link tables)) : Stops isWordChar (joins links) := by
  cases links with
  | nil => exact stops_nil _
  | cons l more => exact stops_of_head (by decide)

theorem skips_labelText (label : Option Label) (links : List (Link tables)) (before : Text) :
    tablePattern.Skips before (labelText label) (joins links) := by
  cases label with
  | none => trivial
  | some l => exact l.skips before (stops_joins links)

/-- The word behind a table name is its alias, or it is none of a table. -/
theorem exists_labelled (label : Option Label) (links : List (Link tables)) :
    ∃ word, Labelled (labelText label ++ joins links) word ∧
      (word.map Identifier.name).filter (fun name => !notAliases.any (sameName · name)) =
        label.map (·.word.name) := by
  cases label with
  | some l =>
    refine ⟨some l.word, ?_, ?_⟩
    · show Labelled (l.text ++ joins links) _
      rw [Label.text]
      by_cases hmarked : l.marked = true
      · rw [if_pos hmarked, List.cons_append, List.append_assoc, List.cons_append]
        exact .marked l.word (stops_joins links)
      · rw [if_neg hmarked, List.cons_append]
        exact .bare l.word (l.not_sameWord (by decide)) (stops_joins links)
    · have hfree : notAliases.any (sameName · l.word.name) = false := by
        rw [List.any_eq_false]
        intro s hs
        rw [l.free s (List.mem_append_right _ hs)]
        exact Bool.false_ne_true
      rw [Option.map_some, Option.filter_some, hfree]
      rfl
  | none =>
    cases links with
    | nil => exact ⟨none, .empty, rfl⟩
    | cons l more =>
      -- The `JOIN` of the next table is taken for an alias and is not kept.
      let word : Identifier := ⟨"JOIN".toList, rfl⟩
      have hstops : Stops isWordChar
          (' ' :: (l.table.name.toList ++ (labelText l.label ++ joins more))) :=
        stops_of_head (by decide)
      exact ⟨some word, .bare word (by decide) hstops, by decide⟩

section

variable (hnames : ∀ table ∈ tables, isIdentifier table.name.toList = true)
  (hdistinct : Extraction.DistinctNames tables)

include hnames hdistinct

/-- A round finds a table with its alias. -/
theorem finds_link {s : String} (hs : s = "FROM" ∨ s = "JOIN") {before : Text}
    (hbefore : Stops isWordChar before) (l : Link tables) (more : List (Link tables))
    {uses : List TableUse}
    (hrest : ∀ after, Finds tables ⟨after, labelText l.label ++ joins more⟩ uses) :
    Finds tables ⟨before, s.toList ++
      ' ' :: (l.table.name.toList ++ (labelText l.label ++ joins more))⟩ (l.use :: uses) := by
  obtain ⟨word, hlabelled, hword⟩ := exists_labelled l.label more
  let x : Identifier := ⟨l.table.name.toList, hnames l.table l.declared⟩
  obtain ⟨m, after, hmatch, hresume, htable, hlabel⟩ :=
    exists_matchAt?_table hs hbefore x hlabelled
  -- No other table has the name, whatever the case.
  have huse : tableUse? tables m = some l.use := by
    have hname : bareName (m.textOf .table) = l.table.name := by
      rw [htable, x.bareName_text, Identifier.name, String.ofList_toList]
    have hfind : findTable? tables l.table.name = some l.table :=
      (Extraction.findTable?_eq_some_iff hdistinct _ _).mpr ⟨l.declared, sameName_refl _⟩
    have hnamed : (m.textOf? .label).map String.ofList = word.map Identifier.name := by
      rw [hlabel, Option.map_map]
      rfl
    rw [tableUse?, hname, hfind, hnamed, hword]
    rfl
  have hmore : Finds tables (resume m) uses := by
    rw [hresume]
    exact hrest after
  have hfind : tablePattern.findFrom?
      ⟨before, s.toList ++ ' ' :: (x.text ++ (labelText l.label ++ joins more))⟩ = some m :=
    findBetween?_of_matchAt? hmatch
  have hround := Finds.more hfind hmore
  rwa [huse] at hround

-- The induction is on the joins; the search starts before the alias, if there is one.
theorem finds_joins (label : Option Label) (links : List (Link tables)) (before : Text) :
    Finds tables ⟨before, labelText label ++ joins links⟩ (links.map Link.use) := by
  induction links generalizing label before with
  | nil =>
    refine Finds.of_skips (skips_labelText label [] before) (.last ?_)
    exact matchAt?_eq_none_of_separator ledByWords_tablePattern isPhraseWord_of_head (stops_nil _)
  | cons l more ih =>
    refine Finds.of_skips (skips_labelText label (l :: more) before) ?_
    have hspace : ∀ b rest, tablePattern.Skips b [' '] rest := fun b rest => skips_space trivial
    refine Finds.of_skips (hspace _ ("JOIN".toList ++ _)) ?_
    exact finds_link hnames hdistinct (.inr rfl) (stops_of_head (by decide)) l more (ih l.label)

end

/-- The tables of a chain of joins are found with their aliases, in order. -/
theorem tableUses_chain (hnames : ∀ table ∈ tables, isIdentifier table.name.toList = true)
    (hdistinct : Extraction.DistinctNames tables) (first : Link tables)
    (more : List (Link tables)) :
    Finds tables (Cursor.first (chain first more)) ((first :: more).map Link.use) ∧
      tableUses tables (chain first more) = (first :: more).map Link.use := by
  have hfinds : Finds tables (Cursor.first (chain first more)) ((first :: more).map Link.use) :=
    finds_link hnames hdistinct (.inl rfl) (stops_nil _) first more
      (finds_joins hnames hdistinct first.label more)
  exact ⟨hfinds, (finds_tableUses tables _).unique hfinds⟩

def keywordTables : List Table := [{ name := "JOIN", line := 1 }, { name := "from", line := 2 }]

def keywordFirst : Link keywordTables := ⟨_, .head _, none⟩

def keywordMore : List (Link keywordTables) :=
  [⟨_, .tail _ (.head _), some ⟨⟨"x".toList, rfl⟩, true, by decide⟩⟩,
   ⟨_, .head _, some ⟨⟨"y".toList, rfl⟩, false, by decide⟩⟩]

/-- Tables that are named like the words around them, one of them twice. -/
theorem tableUses_chain_of_keywords :
    ∃ tables : List Table, tables.map Table.name = ["JOIN", "from"] ∧
      (tableUses tables "FROM JOIN JOIN from AS x JOIN JOIN y".toList).map
          (fun use => (use.table.name, use.label)) =
        [("JOIN", none), ("from", some "x"), ("JOIN", some "y")] := by
  have huses : tableUses keywordTables (chain keywordFirst keywordMore) =
      (keywordFirst :: keywordMore).map Link.use :=
    (tableUses_chain (by decide) (by decide) keywordFirst keywordMore).2
  have hchain : chain keywordFirst keywordMore = "FROM JOIN JOIN from AS x JOIN JOIN y".toList := by decide
  refine ⟨keywordTables, rfl, ?_⟩
  rw [← hchain, huses]
  rfl

end PredicateCheck
end SqlAudit
