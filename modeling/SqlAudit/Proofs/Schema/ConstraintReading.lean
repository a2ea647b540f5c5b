import SqlAudit.Proofs.Schema.ColumnReading

/-!
Constraints are read as they are written: none is taken for a column, and each clause is read by its
own pattern, with or without a label before it.
-/

namespace SqlAudit

open Text Pattern Declaration

namespace Constraint

/-- A list is read up to the first closing parenthesis. -/
theorem first?_columnList_append {β : Type} {k : Way → Option β} {inner : Text}
    (hinner : ∀ c ∈ inner, (c != ')') = true) (part : Part) (before rest : Text)
    (captures : List Capture) :
    (columnList part).first? k ⟨⟨before, '(' :: (inner ++ ')' :: rest)⟩, captures⟩ =
      k ⟨⟨')' :: (inner.reverse ++ '(' :: before), rest⟩,
        ⟨part, ⟨'(' :: before, inner ++ ')' :: rest⟩,
          ⟨inner.reverse ++ '(' :: before, ')' :: rest⟩⟩ :: captures⟩ := by
  have hend : Stops (· != ')') (')' :: rest) := stops_of_head rfl
  rw [columnList, first?_all]
  simp only [List.foldr_cons, List.foldr_nil]
  rw [first?_sign, first?_capture]
  refine (first?_run_of_blocked false hinner hend ?_).trans ?_
  · intro w d hd hhead
    exact first?_sign_of_ne (by simpa using hinner d hd) hhead
  · rw [first?_sign]

theorem find?_primaryKeyPattern {inner : Text} (hinner : ∀ c ∈ inner, (c != ')') = true)
    (rest : Text) :
    ∃ m, primaryKeyPattern.find? ("PRIMARY".toList ++ ' ' :: ("KEY".toList ++ ' ' ::
        '(' :: (inner ++ ')' :: rest))) = some m ∧ m.textOf .columns = inner := by
  have hedge : Stops isWordChar (' ' :: '(' :: (inner ++ ')' :: rest)) := stops_of_head rfl
  have hopen : Stops (· != '(') ('(' :: (inner ++ ')' :: rest)) := stops_of_head rfl
  apply exists_find?_start
  · rw [first?_all]
    simp only [List.foldr_cons, List.foldr_nil]
    rw [first?_word_append, first?_gap (stops_isBlank_of_isPhraseWord rfl _), first?_word_append,
      first?_edge_after rfl hedge]
    apply first?_many_of_some (x := [' ']) (List.all_eq_true.mp rfl) hopen
    rw [first?_columnList_append hinner]
  · exact Cursor.upTo_append _ _ _ _

end Constraint

namespace Declaration

/-! ## Lists of names -/

namespace Names

variable (names : Names)

def inner : Text := listed (names.toList.map Identifier.text)

theorem print_append (rest : Text) : names.print ++ rest = '(' :: (names.inner ++ ')' :: rest) := by
  rw [print, List.cons_append, List.append_assoc]
  rfl

theorem columnNames_inner : columnNames names.inner = names.strings := by
  have hbare : ∀ t ∈ names.toList.map Identifier.text, isBareName t = true := by
    intro t ht
    obtain ⟨x, -, rfl⟩ := List.mem_map.mp ht
    exact x.isBareName
  rw [inner, columnNames_listed hbare, List.map_map]
  rfl

theorem strings_ne_nil : names.strings ≠ [] := List.cons_ne_nil _ _

theorem not_close_of_mem_inner : ∀ c ∈ names.inner, (c != ')') = true := by
  have hlisted : ∀ l : List Identifier, ∀ c ∈ listed (l.map Identifier.text),
      (c != ')') = true := by
    intro l
    induction l with
    | nil =>
      intro c hc
      cases hc
    | cons x more ih =>
      have hx : ∀ c ∈ x.text, (c != ')') = true := by
        intro c hc
        simpa using ne_of_isIdentifierChar (d := ')') (x.isIdentifierChar_of_mem hc) (by decide)
      cases more with
      | nil => rwa [List.map_singleton, listed, List.intercalate_singleton]
      | cons next more =>
        rw [List.map_cons, List.map_cons, listed_cons_cons]
        intro c hc
        simp only [List.mem_append, List.mem_cons] at hc
        rcases hc with hc | rfl | rfl | hc
        · exact hx c hc
        · decide
        · decide
        · exact ih c hc
  exact hlisted names.toList

theorem tidy_inner : Tidy true names.inner := by
  apply Tidy.listed
  intro item hitem
  obtain ⟨x, -, rfl⟩ := List.mem_map.mp hitem
  exact x.tidy

theorem tidy_print {commas : Bool} : Tidy commas names.print := .paren names.tidy_inner .nil

theorem first?_columnList {β : Type} {k : Way → Option β} (part : Part) (before rest : Text)
    (captures : List Capture) :
    (Constraint.columnList part).first? k ⟨⟨before, names.print ++ rest⟩, captures⟩ =
      k ⟨⟨')' :: (names.inner.reverse ++ '(' :: before), rest⟩,
        ⟨part, ⟨'(' :: before, names.inner ++ ')' :: rest⟩,
          ⟨names.inner.reverse ++ '(' :: before, ')' :: rest⟩⟩ :: captures⟩ := by
  rw [print_append]
  exact Constraint.first?_columnList_append names.not_close_of_mem_inner part before rest captures

theorem stops_print {accepts : Char → Bool} (h : accepts '(' = false) (rest : Text) :
    Stops accepts (names.print ++ rest) := by
  rw [print_append]
  exact stops_of_head h

theorem first?_name_print_eq_none {β : Type} {k : Way → Option β} (before rest : Text)
    (captures : List Capture) :
    Pattern.name.first? k ⟨⟨before, names.print ++ rest⟩, captures⟩ = none :=
  first?_name_eq_none (names.stops_print rfl rest)

end Names

/-! ## Clauses -/

namespace Clause

/-- A pattern that starts with a word does not find a clause that starts with another one. -/
theorem find?_print_eq_none {s first : String} {ps : List Pattern} {t : Text} {clause : Clause}
    (hprint : clause.print = first.toList ++ t)
    (h : opens (s.toList.take first.toList.length) first.toList = false) :
    (all (start :: word s :: ps)).find? clause.print = none := by
  rw [hprint]
  exact find?_start_word_eq_none (opens_append_eq_false h _)

theorem print_primaryKey (columns : Names) : print (.primaryKey columns) =
    "PRIMARY".toList ++ ' ' :: ("KEY".toList ++ ' ' :: (columns.print ++ [])) := by
  rw [print, joined_cons_cons, joined_singleton, List.append_nil, List.append_assoc,
    List.cons_append]

theorem find?_primaryKey (columns : Names) :
    ∃ m, Constraint.primaryKeyPattern.find? (print (.primaryKey columns)) = some m ∧
      m.textOf .columns = columns.inner := by
  rw [print_primaryKey, columns.print_append]
  exact Constraint.find?_primaryKeyPattern columns.not_close_of_mem_inner []

/-- The text after the table that a clause refers to. -/
def printTargets (targets : Option Names) : Text :=
  (targets.map fun names => ' ' :: names.print).getD []

theorem print_foreignKey (columns : Names) (table : Identifier) (targets : Option Names) :
    print (.foreignKey columns table targets) =
      "FOREIGN".toList ++ ' ' :: ("KEY".toList ++ ' ' :: (columns.print ++ ' ' ::
        ("REFERENCES".toList ++ ' ' :: (table.text ++ printTargets targets)))) := by
  rw [print, joined_cons_cons, joined_singleton, joined_singleton, List.append_assoc,
    List.cons_append]
  rfl

/-- Where the reading of a clause ends, after the table that it refers to. -/
def afterTargets (before : Text) (captures : List Capture) : Option Names → Way
  | none => ⟨⟨before, []⟩, captures⟩
  | some names =>
    ⟨⟨')' :: (names.inner.reverse ++ '(' :: ' ' :: before), []⟩,
      ⟨.remote, ⟨'(' :: ' ' :: before, names.inner ++ [')']⟩,
        ⟨names.inner.reverse ++ '(' :: ' ' :: before, [')']⟩⟩ :: captures⟩

section

variable (targets : Option Names) (before : Text) (captures : List Capture)

theorem printTargets_some (names : Names) :
    printTargets (some names) = ' ' :: (names.print ++ []) := by
  rw [List.append_nil]
  rfl

theorem first?_targets :
    space.first? ((opt (Constraint.columnList .remote)).first? some)
        ⟨⟨before, printTargets targets⟩, captures⟩ =
      some (afterTargets before captures targets) := by
  cases targets with
  | none =>
    rw [printTargets, Option.map_none, Option.getD_none, first?_space_of_stops (stops_nil _),
      first?_opt, Constraint.columnList, first?_all_cons, first?_sign_eq_none (stops_nil _),
      Option.none_or]
    rfl
  | some names =>
    rw [printTargets_some]
    apply first?_space_of_some (names.stops_print rfl [])
    rw [first?_opt, names.first?_columnList, Option.some_or]
    rfl

theorem first?_dot_targets : (all [space, sign '.', space, Pattern.name]).first? some
    ⟨⟨before, printTargets targets⟩, captures⟩ = none := by
  cases targets with
  | none =>
    rw [printTargets, Option.map_none, Option.getD_none, first?_all, List.foldr_cons,
      List.foldr_cons, first?_space_of_stops (stops_nil _), first?_sign_eq_none (stops_nil _)]
  | some names =>
    rw [printTargets_some]
    exact first?_dot_eq_none (names.stops_print rfl []) (names.stops_print rfl [])

theorem stops_printTargets : Stops isNameChar (printTargets targets) := by
  cases targets with
  | none => exact stops_nil _
  | some names => exact stops_of_head rfl

end

theorem find?_foreignKey (columns : Names) (table : Identifier) (targets : Option Names) :
    ∃ m, Constraint.foreignKeyPattern.find? (print (.foreignKey columns table targets)) = some m ∧
      m.textOf .columns = columns.inner ∧ m.textOf .table = table.text ∧
      m.textOf .remote = (targets.map Names.inner).getD [] := by
  rw [print_foreignKey]
  apply exists_find?_start
  · rw [first?_all]
    simp only [List.foldr_cons, List.foldr_nil]
    rw [first?_word_append, first?_gap (stops_isBlank_of_isPhraseWord rfl _), first?_word_append]
    apply first?_space_of_some (columns.stops_print rfl _)
    rw [first?_opt, first?_seq, columns.first?_name_print_eq_none, Option.none_or,
      columns.first?_columnList]
    apply first?_space_of_some (stops_isBlank_of_isPhraseWord rfl _)
    rw [first?_word_append, first?_gap (table.stops_isBlank _), first?_capture]
    apply first?_spacedName_of_isPlainName table.isPlainName (stops_printTargets targets)
      (first?_dot_targets targets)
    exact first?_targets targets _ _
  · cases targets with
    | none => exact ⟨Cursor.upTo_append _ _ _ _, Cursor.upTo_append _ _ _ _, rfl⟩
    | some names =>
      exact ⟨Cursor.upTo_append _ _ _ _, Cursor.upTo_append _ _ _ _, Cursor.upTo_append _ _ _ _⟩

def printName (name : Option (NameBesides Column.shortTypes)) : Text :=
  (name.map fun x => x.text ++ [' ']).getD []

theorem print_uniqueColumns (columns : Names) : print (.uniqueColumns columns) =
    "UNIQUE".toList ++ ' ' :: (columns.print ++ []) := by
  rw [print, joined_singleton, List.append_nil]

theorem print_key (name : Option (NameBesides Column.shortTypes)) (columns : Names) :
    print (.key false name columns) =
      "KEY".toList ++ ' ' :: (printName name ++ (columns.print ++ [])) := by
  rw [print, List.append_nil, if_neg (by simp), joined_singleton]
  rfl

theorem print_uniqueKey (name : Option (NameBesides Column.shortTypes)) (columns : Names) :
    print (.key true name columns) =
      "UNIQUE".toList ++ ' ' :: ("KEY".toList ++ ' ' ::
        (printName name ++ (columns.print ++ []))) := by
  rw [print, List.append_nil, if_pos rfl, joined_cons_cons, joined_singleton, List.append_assoc,
    List.cons_append]
  rfl

theorem stops_isBlank_printName (name : Option (NameBesides Column.shortTypes)) (columns : Names) :
    Stops isBlank (printName name ++ (columns.print ++ [])) := by
  cases name with
  | none => exact columns.stops_print rfl []
  | some x =>
    rw [printName, Option.map_some, Option.getD_some, List.append_assoc]
    exact x.stops_isBlank _

/-- A name of an index and its columns are read, whatever is passed over between them. -/
theorem exists_first?_index (name : Option (NameBesides Column.shortTypes)) (columns : Names)
    {k : Way → Option Way} (hk : ∀ before captures, k ⟨⟨before, columns.print ++ []⟩, captures⟩ =
      (Constraint.columnList .columns).first? some ⟨⟨before, columns.print ++ []⟩, captures⟩)
    (before : Text) :
    ∃ w, (opt (seq (capture .index Pattern.name) space)).first? k
        ⟨⟨before, printName name ++ (columns.print ++ [])⟩, []⟩ = some w ∧
      ∀ start, (⟨start, w.cursor, w.captures⟩ : Match).textOf .columns = columns.inner ∧
        (⟨start, w.cursor, w.captures⟩ : Match).textOf? .index = name.map (·.text) := by
  cases name with
  | none =>
    have hname : ∀ k : Way → Option Way, Pattern.name.first? k
        ⟨⟨before, printName none ++ (columns.print ++ [])⟩, []⟩ = none :=
      fun k => columns.first?_name_print_eq_none before [] []
    have hcolumns := (hk before []).trans (columns.first?_columnList .columns before [] [])
    rw [first?_opt, first?_seq, first?_capture, hname, Option.none_or, printName, Option.map_none,
      Option.getD_none, List.nil_append, hcolumns]
    exact ⟨_, rfl, fun start => ⟨Cursor.upTo_append _ _ _ _, rfl⟩⟩
  | some x =>
    have htext : printName (some x) ++ (columns.print ++ []) =
        x.text ++ ' ' :: (columns.print ++ []) := by
      rw [printName, Option.map_some, Option.getD_some, List.append_assoc]
      rfl
    have hread : ∀ {v : Way}, k ⟨⟨' ' :: (x.text.reverse ++ before), columns.print ++ []⟩,
        [⟨.index, ⟨before, x.text ++ ' ' :: (columns.print ++ [])⟩,
          ⟨x.text.reverse ++ before, ' ' :: (columns.print ++ [])⟩⟩]⟩ = some v →
        (seq (capture .index Pattern.name) space).first? k
          ⟨⟨before, x.text ++ ' ' :: (columns.print ++ [])⟩, []⟩ = some v := by
      intro v hv
      rw [first?_seq, first?_capture]
      apply x.first?_name (stops_of_head rfl)
      exact first?_space_of_some (columns.stops_print rfl []) hv
    rw [htext]
    rw [first?_opt, hread ((hk _ _).trans (columns.first?_columnList _ _ _ _)), Option.some_or]
    refine ⟨_, rfl, fun start => ⟨Cursor.upTo_append _ _ _ _, ?_⟩⟩
    exact congrArg some (Cursor.upTo_append _ x.text _ _)

theorem find?_uniqueColumns (columns : Names) :
    ∃ m, Constraint.uniquePattern.find? (print (.uniqueColumns columns)) = some m ∧
      m.textOf .columns = columns.inner ∧ m.textOf? .index = none := by
  obtain ⟨w, hw, hparts⟩ := exists_first?_index none columns (fun _ _ => rfl)
    (' ' :: ("UNIQUE".toList.reverse ++ []))
  have hword : ∀ {s : String} {k : Way → Option Way} {before : Text}, isPhraseWord s = true →
      (word s).first? k ⟨⟨before, columns.print ++ []⟩, []⟩ = none :=
    fun hs => first?_word_eq_none (opens_eq_false_of_stops hs (columns.stops_print rfl []))
  rw [print_uniqueColumns]
  refine exists_find?_start ?_ (hparts _)
  rw [first?_all]
  simp only [List.foldr_cons, List.foldr_nil]
  rw [first?_word_append]
  apply first?_space_of_some (columns.stops_print rfl [])
  rw [first?_opt, first?_seq, oneWordOf, List.map_cons, List.map_singleton, first?_any_cons,
    first?_any_cons, first?_any_nil, hword rfl, hword rfl, Option.none_or, Option.none_or,
    Option.none_or]
  exact hw

theorem find?_uniqueKey (name : Option (NameBesides Column.shortTypes)) (columns : Names) :
    ∃ m, Constraint.uniquePattern.find? (print (.key true name columns)) = some m ∧
      m.textOf .columns = columns.inner ∧ m.textOf? .index = name.map (·.text) := by
  obtain ⟨w, hw, hparts⟩ := exists_first?_index name columns (fun _ _ => rfl)
    (' ' :: ("KEY".toList.reverse ++ ' ' :: ("UNIQUE".toList.reverse ++ [])))
  have hkey : ∀ {k : Way → Option Way} {before t : Text}, Stops isBlank t →
      k ⟨⟨' ' :: ("KEY".toList.reverse ++ before), t⟩, []⟩ = some w →
      (seq (oneWordOf ["KEY", "INDEX"]) space).first? k
        ⟨⟨before, "KEY".toList ++ ' ' :: t⟩, []⟩ = some w := by
    intro k before t ht h
    rw [first?_seq, oneWordOf, List.map_cons, first?_any_cons, first?_word_append,
      first?_space_of_some ht h, Option.some_or]
  rw [print_uniqueKey]
  refine exists_find?_start ?_ (hparts _)
  rw [first?_all]
  simp only [List.foldr_cons, List.foldr_nil]
  rw [first?_word_append]
  apply first?_space_of_some (stops_isBlank_of_isPhraseWord rfl _)
  rw [first?_opt, hkey (stops_isBlank_printName name columns) hw, Option.some_or]

theorem find?_key (name : Option (NameBesides Column.shortTypes)) (columns : Names) :
    ∃ m, Constraint.indexPattern.find? (print (.key false name columns)) = some m ∧
      m.textOf .columns = columns.inner ∧ m.textOf? .index = name.map (·.text) := by
  have husing : ∀ (k : Way → Option Way) before captures,
      (opt (all [word "USING", gap, many1 isWordChar, space])).first? k
          ⟨⟨before, columns.print ++ []⟩, captures⟩ =
        k ⟨⟨before, columns.print ++ []⟩, captures⟩ := by
    intro k before captures
    have hopens : opens "USING".toList (columns.print ++ []) = false :=
      opens_eq_false_of_stops rfl (columns.stops_print rfl [])
    rw [first?_opt, first?_all_cons, first?_word_eq_none hopens, Option.none_or]
  obtain ⟨w, hw, hparts⟩ := exists_first?_index name columns (husing _)
    (' ' :: ("KEY".toList.reverse ++ []))
  rw [print_key]
  refine exists_find?_start ?_ (hparts _)
  rw [first?_all]
  simp only [List.foldr_cons, List.foldr_nil]
  rw [first?_opt, first?_any_cons, first?_any_cons, first?_any_nil, first?_seq, first?_seq,
    first?_word_of_differ (by decide), first?_word_of_differ (by decide), Option.none_or,
    Option.none_or, Option.none_or, oneWordOf, List.map_cons, List.map_cons, first?_any_cons,
    first?_word_of_differ (by decide), Option.none_or, first?_any_cons, first?_word_append,
    first?_space_of_some (stops_isBlank_printName name columns) hw, Option.some_or]

/-! ## Reading clauses -/

theorem exists_print_eq (clause : Clause) :
    ∃ s ∈ ["PRIMARY", "FOREIGN", "UNIQUE", "KEY"], ∃ t, clause.print = s.toList ++ ' ' :: t := by
  cases clause with
  | primaryKey columns => exact ⟨"PRIMARY", by decide, _, print_primaryKey columns⟩
  | foreignKey columns table targets =>
    exact ⟨"FOREIGN", by decide, _, print_foreignKey columns table targets⟩
  | uniqueColumns columns => exact ⟨"UNIQUE", by decide, _, print_uniqueColumns columns⟩
  | key unique name columns =>
    cases unique with
    | true => exact ⟨"UNIQUE", by decide, _, print_uniqueKey name columns⟩
    | false => exact ⟨"KEY", by decide, _, print_key name columns⟩

theorem indexOf?_eq {m : Match} {columns : Names} (name : Option (NameBesides Column.shortTypes))
    (hcolumns : m.textOf .columns = columns.inner) (hname : m.textOf? .index = name.map (·.text))
    (label : Option Identifier) (unique : Bool) :
    Constraint.indexOf? m (label.map Identifier.name) unique =
      some ((Clause.key unique name columns).constraint label) := by
  have hbare : (name.map (·.text)).map bareName = name.map (·.name) := by
    rw [Option.map_map]
    cases name with
    | none => rfl
    | some x => exact congrArg some x.bareName_text
  rw [Constraint.indexOf?, hcolumns, hname, hbare, columns.columnNames_inner]
  simp only [List.isEmpty_iff, columns.strings_ne_nil, if_false]
  rfl

theorem readUnnamed?_print (clause : Clause) (label : Option Identifier) :
    Constraint.readUnnamed? clause.print (label.map Identifier.name) =
      some (clause.constraint label) := by
  rw [Constraint.readUnnamed?]
  cases clause with
  | primaryKey columns =>
    obtain ⟨m, hm, hcolumns⟩ := find?_primaryKey columns
    rw [hm]
    simp only [hcolumns, columns.columnNames_inner, List.isEmpty_iff, columns.strings_ne_nil,
      if_false]
    rfl
  | foreignKey columns table targets =>
    obtain ⟨m, hm, hcolumns, htable, hremote⟩ := find?_foreignKey columns table targets
    have hprimary : Constraint.primaryKeyPattern.find? (print (.foreignKey columns table targets)) =
        none := find?_print_eq_none (print_foreignKey columns table targets) (by decide)
    have hnames : columnNames ((targets.map Names.inner).getD []) =
        (targets.map Names.strings).getD [] := by
      cases targets with
      | none => rfl
      | some names => exact names.columnNames_inner
    rw [hprimary, hm]
    simp only [Constraint.referencesOf, hcolumns, htable, hremote, hnames,
      columns.columnNames_inner, table.bareName_text]
    rfl
  | uniqueColumns columns =>
    obtain ⟨m, hm, hcolumns, hname⟩ := find?_uniqueColumns columns
    have hprimary : Constraint.primaryKeyPattern.find? (print (.uniqueColumns columns)) = none :=
      find?_print_eq_none (print_uniqueColumns columns) (by decide)
    have hforeign : Constraint.foreignKeyPattern.find? (print (.uniqueColumns columns)) = none :=
      find?_print_eq_none (print_uniqueColumns columns) (by decide)
    have hindex : Constraint.indexOf? m (label.map Identifier.name) true =
        some ((Clause.key true none columns).constraint label) :=
      indexOf?_eq none hcolumns hname label true
    rw [hprimary, hforeign, hm]
    exact hindex
  | key unique name columns =>
    cases unique with
    | true =>
      obtain ⟨m, hm, hcolumns, hname⟩ := find?_uniqueKey name columns
      have hprimary : Constraint.primaryKeyPattern.find? (print (.key true name columns)) = none :=
        find?_print_eq_none (print_uniqueKey name columns) (by decide)
      have hforeign : Constraint.foreignKeyPattern.find? (print (.key true name columns)) = none :=
        find?_print_eq_none (print_uniqueKey name columns) (by decide)
      rw [hprimary, hforeign, hm]
      exact indexOf?_eq name hcolumns hname label true
    | false =>
      obtain ⟨m, hm, hcolumns, hname⟩ := find?_key name columns
      have hprimary : Constraint.primaryKeyPattern.find? (print (.key false name columns)) = none :=
        find?_print_eq_none (print_key name columns) (by decide)
      have hforeign : Constraint.foreignKeyPattern.find? (print (.key false name columns)) = none :=
        find?_print_eq_none (print_key name columns) (by decide)
      have hunique : Constraint.uniquePattern.find? (print (.key false name columns)) = none :=
        find?_print_eq_none (print_key name columns) (by decide)
      rw [hprimary, hforeign, hunique, hm]
      exact indexOf?_eq name hcolumns hname label false

theorem stops_print {accepts : Char → Bool}
    (h : ∀ s ∈ ["PRIMARY", "FOREIGN", "UNIQUE", "KEY"], Stops accepts s.toList) (clause : Clause) :
    Stops accepts clause.print := by
  obtain ⟨s, hs, t, hprint⟩ := clause.exists_print_eq
  have hne : s.toList ≠ [] :=
    (by decide : ∀ s ∈ ["PRIMARY", "FOREIGN", "UNIQUE", "KEY"], s.toList ≠ []) s hs
  obtain ⟨c, more, hcons⟩ := List.exists_cons_of_ne_nil hne
  have hstops := h s hs
  rw [hcons, stops_cons] at hstops
  rw [hprint, hcons]
  exact stops_of_head hstops

theorem stops_reverse_print (clause : Clause) : Stops isBlank clause.print.reverse := by
  have hne : ∀ names : Names, names.print ≠ [] := fun names => List.cons_ne_nil _ _
  have hnames : ∀ names : Names, Stops isBlank names.print.reverse := by
    intro names
    simp [Names.print]
    decide
  cases clause with
  | primaryKey columns =>
    exact stops_reverse_append_right _ (by simp) (stops_reverse_cons (hne columns) (hnames columns))
  | foreignKey columns table targets =>
    have htargets : Stops isBlank (table.text ++ printTargets targets).reverse := by
      apply stops_reverse_append table.stops_reverse
      cases targets with
      | none => exact stops_nil _
      | some names => exact stops_reverse_cons (hne names) (hnames names)
    apply stops_reverse_append_right _ (by simp)
    apply stops_reverse_cons (by simp [hne])
    apply stops_reverse_append_right _ (by simp)
    apply stops_reverse_cons (by simp [joined_singleton])
    apply stops_reverse_append_right _ (by simp)
    exact stops_reverse_cons (by simp [table.ne_nil]) htargets
  | uniqueColumns columns =>
    exact stops_reverse_append_right _ (by simp) (stops_reverse_cons (hne columns) (hnames columns))
  | key unique name columns =>
    apply stops_reverse_append_right _ (by simp)
    apply stops_reverse_cons (by simp [hne])
    exact stops_reverse_append_right _ (hne columns) (hnames columns)

theorem trimmed_print (clause : Clause) : Trimmed clause.print := by
  obtain ⟨s, hs, t, hprint⟩ := clause.exists_print_eq
  apply trimmed_of_stops
  · simp [hprint]
  · exact clause.stops_print (by decide)
  · exact clause.stops_reverse_print

theorem tidy_print (clause : Clause) : Tidy false clause.print := by
  cases clause with
  | primaryKey columns =>
    exact (tidy_joined (by decide)).append (tidy_cons_space columns.tidy_print)
  | foreignKey columns table targets =>
    have htargets : Tidy false (printTargets targets) := by
      cases targets with
      | none => exact .nil
      | some names => exact tidy_cons_space names.tidy_print
    exact (tidy_joined (by decide)).append (tidy_cons_space (columns.tidy_print.append
      (tidy_cons_space ((tidy_joined (by decide)).append
        (tidy_cons_space (table.tidy.append htargets))))))
  | uniqueColumns columns =>
    exact (tidy_joined (by decide)).append (tidy_cons_space columns.tidy_print)
  | key unique name columns =>
    have hname : Tidy false (printName name) := by
      cases name with
      | none => exact .nil
      | some x => exact x.tidy.append (tidy_cons_space .nil)
    exact (tidy_joined (by cases unique <;> decide)).append
      (tidy_cons_space (hname.append columns.tidy_print))

theorem find?_namedPattern_eq_none (clause : Clause) :
    Constraint.namedPattern.find? clause.print = none := by
  obtain ⟨s, hs, t, hprint⟩ := clause.exists_print_eq
  apply find?_print_eq_none hprint
  exact (by decide : ∀ s ∈ ["PRIMARY", "FOREIGN", "UNIQUE", "KEY"],
    opens ("CONSTRAINT".toList.take s.toList.length) s.toList = false) s hs

theorem find?_namedPattern (label : Identifier) (clause : Clause) :
    ∃ m, Constraint.namedPattern.find?
        ("CONSTRAINT".toList ++ ' ' :: (label.text ++ ' ' :: (clause.print ++ []))) = some m ∧
      m.textOf .body = clause.print ∧ m.textOf? .name = some label.text := by
  apply exists_find?_start
  · rw [first?_all]
    simp only [List.foldr_cons, List.foldr_nil]
    rw [first?_word_append, first?_gap (label.stops_isBlank _), first?_capture]
    apply label.first?_name (stops_of_head rfl)
    have hblank : Stops isBlank (clause.print ++ []) := by
      rw [List.append_nil]
      exact clause.stops_print (by decide)
    rw [first?_gap hblank, first?_capture]
    apply first?_many_of_some (fun _ _ => rfl) (stops_nil _)
    rw [first?_stop]
    rfl
  · exact ⟨Cursor.upTo_append _ _ _ _, congrArg some (Cursor.upTo_append _ label.text _ _)⟩

end Clause

namespace Item

theorem print_constraint (label : Identifier) (clause : Clause) :
    print (.constraint (some label) clause) =
      "CONSTRAINT".toList ++ ' ' :: (label.text ++ ' ' :: (clause.print ++ [])) := by
  rw [print, joined_singleton, List.append_nil]

/-- A clause is read as it is written, with or without a label. -/
theorem read?_print (label : Option Identifier) (clause : Clause) :
    Constraint.read? (print (.constraint label clause)) = some (clause.constraint label) := by
  rw [Constraint.read?]
  cases label with
  | none =>
    rw [print, Constraint.readUnder?, clause.find?_namedPattern_eq_none]
    exact clause.readUnnamed?_print none
  | some label =>
    obtain ⟨m, hm, hbody, hname⟩ := clause.find?_namedPattern label
    rw [← print_constraint] at hm
    obtain ⟨n, hn⟩ : ∃ n, (print (.constraint (some label) clause)).length = n + 1 := by
      rw [print_constraint]
      exact ⟨_, rfl⟩
    rw [Constraint.readUnder?, hm, hn]
    simp only [hbody, hname, clause.trimmed_print.trim_eq, Option.map_some, label.bareName_text]
    rw [Constraint.readUnder?, clause.find?_namedPattern_eq_none]
    exact clause.readUnnamed?_print (some label)

/-! ## Constraints are no columns -/

/-- Neither the name of an index nor its columns are a type. -/
theorem find?_typePattern_index (name : Option (NameBesides Column.shortTypes)) (columns : Names) :
    Column.typePattern.find? (Clause.printName name ++ (columns.print ++ [])) = none := by
  cases name with
  | none =>
    have hne : ∀ s ∈ Column.shortTypes, ¬ SameWord s.toList [] := by
      intro s hs hsame
      exact (of_isPhraseWord (isPhraseWord_of_mem_shortTypes hs)).1
        (List.eq_nil_of_length_eq_zero hsame.1)
    exact find?_typePattern_eq_none (x := []) (by simp) (columns.stops_print rfl []) hne
      (.inl (by decide))
  | some x =>
    rw [Clause.printName, Option.map_some, Option.getD_some, List.append_assoc]
    exact find?_typePattern_eq_none (fun c hc => x.isWordChar_of_mem hc)
      (stops_of_head rfl) (fun s hs => x.not_sameWord hs) (.inr ⟨_, rfl⟩)

theorem isConstraint_clause (clause : Clause) : Column.isConstraint clause.print = true := by
  cases clause with
  | primaryKey columns =>
    rw [Clause.print_primaryKey, isConstraint_append ⟨"PRIMARY".toList, rfl⟩,
      words_append ⟨"KEY".toList, rfl⟩]
    rfl
  | foreignKey columns table targets =>
    rw [Clause.print_foreignKey, isConstraint_append ⟨"FOREIGN".toList, rfl⟩,
      words_append ⟨"KEY".toList, rfl⟩]
    rfl
  | uniqueColumns columns =>
    have hnone : Column.typePattern.find? (columns.print ++ []) = none :=
      find?_typePattern_index none columns
    rw [Clause.print_uniqueColumns, isConstraint_append ⟨"UNIQUE".toList, rfl⟩,
      (columns.stops_print rfl []).trimStart_eq, hnone]
    rfl
  | key unique name columns =>
    cases unique with
    | true =>
      have hkey : Stops isBlank
          ("KEY".toList ++ ' ' :: (Clause.printName name ++ (columns.print ++ []))) :=
        stops_isBlank_of_isPhraseWord rfl _
      have hnone : Column.typePattern.find?
          ("KEY".toList ++ ' ' :: (Clause.printName name ++ (columns.print ++ []))) = none :=
        find?_typePattern_eq_none (List.all_eq_true.mp rfl) (stops_of_head rfl) (by decide +kernel)
          (.inl (by decide))
      rw [Clause.print_uniqueKey, isConstraint_append ⟨"UNIQUE".toList, rfl⟩, hkey.trimStart_eq,
        hnone]
      rfl
    | false =>
      rw [Clause.print_key, isConstraint_append ⟨"KEY".toList, rfl⟩,
        (Clause.stops_isBlank_printName name columns).trimStart_eq, find?_typePattern_index]
      rfl

theorem isConstraint_print (label : Option Identifier) (clause : Clause) :
    Column.isConstraint (print (.constraint label clause)) = true := by
  cases label with
  | none => exact isConstraint_clause clause
  | some label =>
    rw [print_constraint, isConstraint_append ⟨"CONSTRAINT".toList, rfl⟩]
    rfl

theorem tidy_print (item : Item) : Tidy false item.print := by
  cases item with
  | column item => exact item.tidy_print
  | constraint label clause =>
    cases label with
    | none => exact clause.tidy_print
    | some label =>
      exact (tidy_joined (by decide)).append
        (tidy_cons_space (label.tidy.append (tidy_cons_space clause.tidy_print)))

theorem trimmed_print (item : Item) : Trimmed item.print := by
  cases item with
  | column item => exact item.trimmed_print
  | constraint label clause =>
    cases label with
    | none => exact clause.trimmed_print
    | some label =>
      rw [print_constraint, List.append_nil]
      apply trimmed_of_stops
      · simp
      · exact stops_isBlank_of_isPhraseWord rfl _
      · apply stops_reverse_append_right _ (by simp)
        apply stops_reverse_cons (by simp [label.ne_nil])
        apply stops_reverse_append_right _ (by simp)
        exact stops_reverse_cons clause.trimmed_print.ne_nil clause.stops_reverse_print

/-- A constraint is not read as a column. -/
theorem parse_print (label : Option Identifier) (clause : Clause) :
    Column.parse (print (.constraint label clause)) = .error .constraint := by
  have htrimmed := trimmed_print (.constraint label clause)
  have hempty : (print (.constraint label clause)).isEmpty = false := by
    simpa using htrimmed.ne_nil
  rw [Column.parse, htrimmed.trim_eq]
  simp only [hempty, isConstraint_print, Bool.false_eq_true, if_false, if_true]

end Item
end Declaration
end SqlAudit
