import SqlAudit.Proofs.Schema.Origins
import SqlAudit.Proofs.Schema.ReferenceResolution
import SqlAudit.Proofs.Schema.RoundTrip

/-!
Adding the definition of an index to the end of a document.  Whatever the document holds, if it does
not end in a block comment, all that was read from it is read as before, and the first table of the
name gets the index.
-/

namespace SqlAudit

open Text Pattern Declaration

/-! ## Definitions without quotes -/

/-- An index whose definition needs no quotes. -/
structure PlainIndex where
  name : Text
  table : Text
  column : Text
  name_bare : name.isBareName = true
  table_plain : table.isPlainName = true
  column_bare : column.isBareName = true

namespace PlainIndex

variable (i : PlainIndex)

def print : Text :=
  joined ["CREATE", "INDEX"] ++ ' ' ::
    (i.name ++ ' ' :: (joined ["ON"] ++ ' ' :: (i.table ++ ' ' :: '(' :: (i.column ++ [')']))))

/-- The definition as a statement of its own, whatever statement stands before it. -/
def statement : Text := ';' :: '\n' :: (i.print ++ [';', '\n'])

def index : Index := ⟨String.ofList i.name, [String.ofList i.column], false⟩

/-- The index is added to the first table of its name. -/
def addTo (tables : List Table) : List Table :=
  Extraction.modifyFirst (fun table => sameName table.name (String.ofList i.table))
    (fun table => { table with indexes := table.indexes ++ [i.index] }) tables

theorem isNameChar_name : ∀ c ∈ i.name, isNameChar c = true := (of_isBareName i.name_bare).2

theorem isNameChar_column : ∀ c ∈ i.column, isNameChar c = true := (of_isBareName i.column_bare).2

theorem isNameChar_table : ∀ c ∈ i.table, isNameChar c = true ∨ c = '.' :=
  isNameChar_or_dot_of_isPlainName i.table_plain

theorem tidy_column : Tidy true i.column := .of_nameChars fun c hc => .inl (i.isNameChar_column c hc)

/-- A definition is made of characters of names and a few others. -/
theorem forall_mem_statement {P : Char → Prop} (hname : ∀ c, isNameChar c = true → P c)
    (hother : ∀ c ∈ ". ();\n".toList, P c) : ∀ c ∈ i.statement, P c := by
  have hword : ∀ s : String, isPhraseWord s = true → ∀ c ∈ s.toList, P c := fun s hs c hc =>
    hname c (isNameChar_of_isIdentifierChar ((of_isPhraseWord hs).2 c hc))
  have htable : ∀ c ∈ i.table, P c := by
    intro c hc
    rcases i.isNameChar_table c hc with hc | rfl
    · exact hname c hc
    · exact hother '.' (by decide)
  simp only [statement, print, joined_cons_cons, joined_singleton, List.forall_mem_cons,
    List.forall_mem_append]
  exact ⟨hother ';' (by decide), hother '\n' (by decide),
    ⟨⟨hword "CREATE" rfl, hother ' ' (by decide), hword "INDEX" rfl⟩, hother ' ' (by decide),
      fun c hc => hname c (i.isNameChar_name c hc), hother ' ' (by decide),
      hword "ON" rfl, hother ' ' (by decide), htable, hother ' ' (by decide),
      hother '(' (by decide), fun c hc => hname c (i.isNameChar_column c hc),
      hother ')' (by decide), fun c hc => by cases hc⟩,
    hother ';' (by decide), hother '\n' (by decide), fun c hc => by cases hc⟩

theorem isInert_of_mem_statement : ∀ c ∈ i.statement, isInert c = true :=
  i.forall_mem_statement (fun _ => isInert_of_isNameChar) (List.all_eq_true.mp (by decide))

theorem not_mem_statement {c : Char} (hname : isNameChar c = false)
    (hother : c ∉ ". ();\n".toList) : c ∉ i.statement := fun hc =>
  i.forall_mem_statement (P := (· ≠ c)) (fun _ hd => ne_of_isNameChar hd hname)
    (fun _ hd hdc => hother (hdc ▸ hd)) c hc rfl

theorem tidy_statement : Tidy true i.statement := by
  have hend : Tidy true [';', '\n'] := .plain rfl (fun _ => rfl) (.plain rfl (fun _ => rfl) .nil)
  have hlist : Tidy true ('(' :: (i.column ++ [')'])) :=
    .paren i.tidy_column .nil
  have htable : Tidy true i.table := .of_nameChars i.isNameChar_table
  have hname : Tidy true i.name :=
    .of_nameChars fun c hc => .inl (i.isNameChar_name c hc)
  have hprint : Tidy true i.print :=
    (tidy_joined (by decide)).append (tidy_cons_space (hname.append (tidy_cons_space
      ((tidy_joined (by decide)).append (tidy_cons_space (htable.append (tidy_cons_space hlist)))))))
  exact .plain rfl (fun _ => rfl) (.plain rfl (fun _ => rfl) (hprint.append hend))

/-! ## Searches -/

section

variable {p : Pattern} (hp : p ∈ definitionPatterns) {rest : Text}

include hp

/-- Behind the opening parenthesis of its list, a definition holds no other. -/
theorem passes_list : p.Passes (i.column ++ [')', ';', '\n']) rest := by
  have hcolumn : ∀ c ∈ i.column, isBlank c = false :=
    fun c hc => isBlank_eq_false_of_isNameChar (i.isNameChar_column c hc)
  refine (passes_unbroken hp hcolumn (stops_of_head rfl)
    (blocks_of_stops hp (stops_of_head rfl))).append ?_
  exact passes_sign hp rfl (passes_sign hp rfl (passes_sign hp rfl passes_nil))

theorem findUpTo_of_passes_all {t : Text} (h : p.Passes t []) (count : Nat) (before : Text) :
    p.findUpTo count ⟨before, t⟩ = [] := by
  have hpass := findUpTo_of_passes h count before
  rwa [List.append_nil, findUpTo_nil (ledByWords_of_mem hp) rfl] at hpass

end

theorem statement_eq : i.statement = ';' :: '\n' :: (joined ["CREATE", "INDEX"] ++ ' ' ::
    (i.name ++ ' ' :: (joined ["ON"] ++ ' ' :: (i.table ++ ' ' :: '(' ::
      (i.column ++ [')', ';', '\n']))))) := by
  simp [statement, print]

theorem findUpTo_createTable (count : Nat) (before : Text) :
    Extraction.createTablePattern.findUpTo count ⟨before, '\n' :: i.statement⟩ = [] := by
  have hp : Extraction.createTablePattern ∈ definitionPatterns := by simp [definitionPatterns]
  have hname : ∀ c ∈ i.name, isBlank c = false :=
    fun c hc => isBlank_eq_false_of_isNameChar (i.isNameChar_name c hc)
  apply findUpTo_of_passes_all hp
  rw [statement_eq]
  exact passes_sign hp rfl (passes_sign hp rfl (passes_sign hp rfl (passes_indexText false hname
    (isBlank_eq_false_of_isPlainName i.table_plain) (i.passes_list hp))))

theorem findUpTo_createIndex (count : Nat) (before : Text) :
    ∃ m, Extraction.createIndexPattern.findUpTo (count + 1) ⟨before, '\n' :: i.statement⟩ = [m] ∧
      Extraction.owner m = String.ofList i.table ∧ Extraction.definedIndex? m = some i.index := by
  have hp : Extraction.createIndexPattern ∈ definitionPatterns := by simp [definitionPatterns]
  have hskip : Extraction.createIndexPattern.Passes ['\n', ';', '\n']
      (joined ["CREATE", "INDEX"] ++ ' ' :: (i.name ++ ' ' :: ("ON".toList ++ ' ' ::
        (i.table ++ ' ' :: '(' :: (i.column ++ [')', ';', '\n']))))) :=
    passes_sign hp rfl (passes_sign hp rfl (passes_sign hp rfl passes_nil))
  have hbefore : Stops isWordChar (['\n', ';', '\n'].reverse ++ before) := stops_of_head rfl
  obtain ⟨m, hm, htable, hname, hunique, hstop⟩ := matchAt?_index i.table_plain i.name_bare false
    (i.column ++ [')', ';', '\n']) hbefore
  rw [if_neg (by simp)] at hm
  refine ⟨m, ?_, ?_, ?_⟩
  · have hfind := findUpTo_of_passes hskip (count + 1) before
    rw [findUpTo_of_matchAt? hm] at hfind
    have hcursor : m.stop = ⟨m.stop.before, i.column ++ [')', ';', '\n']⟩ := by rw [← hstop]
    rw [hcursor, findUpTo_of_passes_all hp (i.passes_list hp)] at hfind
    rw [statement_eq, joined_singleton]
    exact hfind
  · rw [Extraction.owner, htable, bareName_eq i.isNameChar_table]
  · have henclosed : enclosed? m.stop.after = some i.column := by
      rw [hstop]
      exact i.tidy_column.enclosed?_append [';', '\n']
    have hcolumns : columnNames i.column = [String.ofList i.column] := by
      have hbare : ∀ t ∈ [i.column], isBareName t = true := by simpa using i.column_bare
      have hlisted := columnNames_listed hbare
      rwa [listed, List.intercalate_singleton] at hlisted
    rw [Extraction.definedIndex?, henclosed]
    simp only [hcolumns, hname, bareName_eq fun c hc => .inl (i.isNameChar_name c hc),
      List.isEmpty_cons, Bool.false_eq_true, if_false, hunique, index]

/-! ## The text before -/

theorem stops_statement {accepts : Char → Bool} (h : accepts ';' = false) :
    Stops accepts i.statement := stops_of_head h

theorem held_word {x : String} (hx : isPhraseWord x = true) : Held i.statement (word x) := by
  apply Pattern.held_word
  intro letter hletter
  apply i.stops_statement
  rw [Bool.eq_false_iff]
  intro hsame
  exact absurd (isWordChar_of_sameLetter ((of_isPhraseWord hx).2 letter hletter) hsame) (by decide)

theorem held_gap : Held i.statement gap := held_many1 (i.stops_statement rfl)

theorem held_space : Held i.statement space := held_run false (i.stops_statement rfl)

theorem held_word_gap {x : String} (hx : isPhraseWord x = true) :
    Held i.statement (seq (word x) gap) := held_seq (i.held_word hx) i.held_gap

theorem held_condition :
    Held i.statement (opt (all [word "IF", gap, word "NOT", gap, word "EXISTS", gap])) := by
  apply held_opt
  apply held_all
  simp only [List.forall_mem_cons]
  exact ⟨i.held_word rfl, i.held_gap, i.held_word rfl, i.held_gap, i.held_word rfl, i.held_gap,
    fun q hq => by cases hq⟩

theorem held_name : Held i.statement Pattern.name := by
  -- A quoted name would have to end in its quote, which the statement does not hold.
  have hquoted : ∀ {q c : Char} {accepts : Char → Bool}, q ≠ ';' → c ∉ i.statement →
      Held i.statement (all [sign q, many1 accepts, sign c]) := by
    intro q c accepts hq hc
    exact held_seq (held_char (i.stops_statement (by simpa using Ne.symm hq))) (held_sign_last hc _)
  apply held_any
  simp only [List.forall_mem_cons]
  exact ⟨held_many1 (i.stops_statement rfl),
    hquoted (by decide) (i.not_mem_statement rfl (by decide)),
    hquoted (by decide) (i.not_mem_statement rfl (by decide)),
    hquoted (by decide) (i.not_mem_statement rfl (by decide)), fun q hq => by cases hq⟩

theorem held_spacedName : Held i.statement spacedName :=
  held_seq i.held_name (held_star (held_seq i.held_space
    (held_seq (held_char (i.stops_statement rfl)) (held_seq i.held_space i.held_name))))

/-- A definition of a table up to the parenthesis that opens its list. -/
def tableHead : List Pattern :=
  [edge, word "CREATE", gap, opt (all [word "OR", gap, word "REPLACE", gap]),
    opt (seq (oneWordOf ["GLOBAL", "LOCAL"]) gap),
    opt (any [all [word "TEMP", opt (word "ORARY"), gap], seq (word "UNLOGGED") gap]),
    word "TABLE", gap, opt (all [word "IF", gap, word "NOT", gap, word "EXISTS", gap]),
    capture .table spacedName, space]

/-- A definition of an index up to the parenthesis that opens its list. -/
def indexHead : List Pattern :=
  [edge, word "CREATE", gap, opt (capture .unique (seq (word "UNIQUE") gap)),
    opt (all [opt (word "NON"), word "CLUSTERED", gap]), word "INDEX", gap,
    opt (seq (word "CONCURRENTLY") gap),
    opt (all [word "IF", gap, word "NOT", gap, word "EXISTS", gap]), capture .index Pattern.name,
    gap, word "ON", gap, opt (seq (word "ONLY") gap), capture .table spacedName, space,
    opt (all [word "USING", gap, many1 Text.isWordChar, space])]

theorem held_tableHead : Held i.statement (all tableHead) := by
  apply held_all
  simp only [tableHead, List.forall_mem_cons]
  exact ⟨held_edge, i.held_word rfl, i.held_gap,
    held_opt (held_seq (i.held_word rfl) (held_seq i.held_gap (i.held_word_gap rfl))),
    held_opt (held_seq (held_alt (i.held_word rfl) (i.held_word rfl)) i.held_gap),
    held_opt (held_alt (held_seq (i.held_word rfl) (held_seq (held_opt (i.held_word rfl)) i.held_gap))
      (i.held_word_gap rfl)),
    i.held_word rfl, i.held_gap, i.held_condition, held_capture _ i.held_spacedName, i.held_space,
    fun q hq => by cases hq⟩

theorem held_indexHead : Held i.statement (all indexHead) := by
  apply held_all
  simp only [indexHead, List.forall_mem_cons]
  exact ⟨held_edge, i.held_word rfl, i.held_gap, held_opt (held_capture _ (i.held_word_gap rfl)),
    held_opt (held_seq (held_opt (i.held_word rfl)) (i.held_word_gap rfl)), i.held_word rfl,
    i.held_gap, held_opt (i.held_word_gap rfl), i.held_condition, held_capture _ i.held_name,
    i.held_gap, i.held_word rfl, i.held_gap, held_opt (i.held_word_gap rfl),
    held_capture _ i.held_spacedName, i.held_space,
    held_opt (held_seq (i.held_word rfl) (held_seq i.held_gap
      (held_seq (held_many1 (i.stops_statement rfl)) i.held_space))),
    fun q hq => by cases hq⟩

/-- A definition that starts before the statement ends before it: it would have to read the
parenthesis that opens its list, but gets no further than the first semicolon. -/
theorem ways_definition_extend {p : Pattern} (hp : p ∈ definitionPatterns) (w : Way) :
    p.ways (w.extend ('\n' :: i.statement)) =
      (p.ways w).map (Way.extend ('\n' :: i.statement)) := by
  simp only [definitionPatterns, List.mem_cons, List.not_mem_nil, or_false] at hp
  rcases hp with rfl | rfl
  · show (all (tableHead ++ [sign '('])).ways _ = ((all (tableHead ++ [sign '('])).ways w).map _
    exact ways_extend rfl (by decide) (i.stops_statement rfl) i.held_tableHead (by decide) w
  · show (all (indexHead ++ [sign '('])).ways _ = ((all (indexHead ++ [sign '('])).ways w).map _
    exact ways_extend rfl (by decide) (i.stops_statement rfl) i.held_indexHead (by decide) w

end PlainIndex

namespace Extraction

section

variable {r : Text} (hr : ∀ c ∈ r, isInert c = true) (htidy : Tidy true r)

include hr htidy

theorem enclosed?_extend (m : Match) :
    enclosed? (m.extend r).stop.after = enclosed? m.stop.after :=
  enclosed?_append_of_isInert hr htidy m.stop.after

theorem addIndex_extend (tables : List Table) (m : Match) :
    addIndex tables (m.extend r) = addIndex tables m := by
  rw [addIndex, addIndex, enclosed?_extend hr htidy, m.textOf_extend, m.textOf_extend,
    m.part?_extend, Option.isSome_map]

omit hr htidy in
theorem buildTable_append {document : Text} {name : String} {line start : Nat} {body : Text}
    (h : start + size body ≤ size document) :
    buildTable (document ++ r) name line start body = buildTable document name line start body := by
  apply List.foldl_ext
  intro built fragment hfragment
  have hline : fragment.2.map (document ++ r).lineAt = fragment.2.map document.lineAt := by
    obtain ⟨text, place⟩ := fragment
    cases place with
    | none => rfl
    | some offset =>
      have hlt := lt_of_mem_locate hfragment
      rw [Option.map_some, Option.map_some, lineAt_append_left (by omega)]
  rw [addFragment, addFragment, hline]

theorem addTable_extend {document : Text} {m : Match} (hm : m ∈ createTablePattern.findAll document)
    (found : Extraction) :
    addTable (document ++ r) found (m.extend r) = addTable document found m := by
  obtain ⟨hreach, hmatch⟩ := of_mem_findAll hm
  have hline : (document ++ r).lineAt m.start.offset = document.lineAt m.start.offset :=
    lineAt_append_left (start_offset_lt (by decide) hreach hmatch) r
  rw [addTable, addTable, enclosed?_extend hr htidy, m.textOf_extend]
  cases hbody : enclosed? m.stop.after with
  | none => rfl
  | some body =>
    have hbuild : ∀ name line, buildTable (document ++ r) name line m.stop.offset body =
        buildTable document name line m.stop.offset body :=
      fun _ _ => buildTable_append (stop_offset_add_size_le hm hbody)
    have hstart : (m.extend r).start.offset = m.start.offset := rfl
    have hstop : (m.extend r).stop.offset = m.stop.offset := rfl
    simp only [hstart, hstop, hline, hbuild]

end

theorem modifyFirst_map {α β : Type} {test : β → Bool} {change : β → β} {test' : α → Bool}
    {change' : α → α} {f : α → β} (htest : ∀ a, test (f a) = test' a)
    (hchange : ∀ a, change (f a) = f (change' a)) (l : List α) :
    modifyFirst test change (l.map f) = (modifyFirst test' change' l).map f := by
  induction l with
  | nil => rfl
  | cons a rest ih =>
    rw [List.map_cons, modifyFirst, modifyFirst, htest, hchange, ih]
    split <;> rfl

theorem map_addTo (i : PlainIndex) {β : Type} {f : Table → β}
    (hf : ∀ table indexes, f { table with indexes } = f table) (tables : List Table) :
    (i.addTo tables).map f = tables.map f := by
  apply map_modifyFirst
  intro table
  exact hf table _

/-- An index has no part in the completion of references. -/
theorem resolveReferences_addTo (i : PlainIndex) (tables : List Table) :
    resolveReferences (i.addTo tables) = i.addTo (resolveReferences tables) := by
  rw [resolveReferences, resolveKey_congr (map_addTo i (fun _ _ => rfl) tables), eq_comm]
  apply modifyFirst_map
  · intro table
    rfl
  · intro table
    rfl

/-- A definition at the end of a document gives the first table of its name an index, and changes
nothing else that is read. -/
theorem ofText_append_statement (i : PlainIndex) {sql : Text} (h : sql.endsInBlock false = false) :
    ofText (sql ++ '\n' :: i.statement) =
      { ofText sql with tables := i.addTo (ofText sql).tables } := by
  have hblank : (sql ++ '\n' :: i.statement).blankComments false =
      sql.blankComments false ++ '\n' :: i.statement :=
    blankComments_append_of_isInert h i.isInert_of_mem_statement
  rw [ofText, ofText, hblank]
  generalize sql.blankComments false = document
  have hr : ∀ c ∈ '\n' :: i.statement, isInert c = true :=
    List.forall_mem_cons.mpr ⟨rfl, i.isInert_of_mem_statement⟩
  have htidy : Tidy true ('\n' :: i.statement) := .plain rfl (fun _ => rfl) i.tidy_statement
  have htables : (createTablePattern.findAll (document ++ '\n' :: i.statement)).foldl
        (addTable (document ++ '\n' :: i.statement)) {} =
      (createTablePattern.findAll document).foldl (addTable document) {} := by
    rw [findAll_append (i.ways_definition_extend (by simp [definitionPatterns])) (by decide),
      i.findUpTo_createTable, List.append_nil, List.foldl_map]
    apply List.foldl_ext
    exact fun found m hm => addTable_extend hr htidy hm found
  have hindexes : ∀ tables, (createIndexPattern.findAll (document ++ '\n' :: i.statement)).foldl
        addIndex tables =
      i.addTo ((createIndexPattern.findAll document).foldl addIndex tables) := by
    intro tables
    obtain ⟨m, hm, howner, hindex⟩ := i.findUpTo_createIndex i.statement.length document.reverse
    have hlength : ('\n' :: i.statement).length = i.statement.length + 1 := List.length_cons
    rw [findAll_append (i.ways_definition_extend (by simp [definitionPatterns])) (by decide), hlength,
      hm, List.foldl_append, List.foldl_map]
    simp only [addIndex_extend hr htidy, List.foldl_cons, List.foldl_nil]
    rw [addIndex_eq, hindex, howner]
    rfl
  rw [htables, hindexes, resolveReferences_addTo]

end Extraction
end SqlAudit
