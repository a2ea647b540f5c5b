import SqlAudit.Proofs.Schema.ConstraintReading
import SqlAudit.Proofs.Schema.FragmentAccounting
import SqlAudit.Review.SchemaCheck

/-!
Quoted names as columns and as keys.  A column takes its name from between the quotes.  In the list
of a key the same name is read up to the first closing parenthesis, and then it loses every quote
and bracket, not only its delimiters.  So the key names the column exactly if the name has none of
these characters.
-/

namespace SqlAudit

open Text Pattern Declaration

/-! ## Quoted runs -/

namespace QuoteState

variable {state : QuoteState} {quote : Quote}

theorem holds_of_open? (h : state.open? = some quote) (c : Char) : state.holds c = true := by
  cases state with
  | code => cases h
  | inside open' => rfl
  | escaped open' => rfl

theorem open?_next_of_ne (h : state.open? = some quote) {c : Char} (hc : c ≠ quote.char)
    (escapes : Escapes) : (state.next escapes c).open? = some quote := by
  cases state with
  | code => cases h
  | escaped open' => exact h
  | inside open' =>
    cases h
    rw [next, if_neg hc]
    split <;> rfl

end QuoteState

namespace Text

/-- What is open stays open up to the next quote, and the quote belongs to it. -/
theorem marksFrom_of_open? {quote : Quote} {x y : Text} (hx : quote.char ∉ x) (hy : y.length ≤ 1)
    (escapes : Escapes) {state : QuoteState} (h : state.open? = some quote) :
    marksFrom escapes state (x ++ y) = (x ++ y).map (⟨·, true⟩) := by
  induction x generalizing state with
  | nil =>
    match y, hy with
    | [], _ => rfl
    | [c], _ => simp [marksFrom, QuoteState.holds_of_open? h]
  | cons c x ih =>
    rw [List.mem_cons, not_or] at hx
    rw [List.cons_append, marksFrom, QuoteState.holds_of_open? h,
      ih hx.2 (QuoteState.open?_next_of_ne h (Ne.symm hx.1) escapes)]
    rfl

theorem marks_of_quote {quote : Quote} {x y : Text} (hx : quote.char ∉ x) (hy : y.length ≤ 1)
    (escapes : Escapes) :
    marks escapes (quote.char :: (x ++ y)) = (quote.char :: (x ++ y)).map (⟨·, true⟩) := by
  have hholds : QuoteState.code.holds quote.char = true := by
    rw [QuoteState.holds, Quote.ofChar?_char]
    rfl
  have hopen : (QuoteState.code.next escapes quote.char).open? = some quote := by
    rw [QuoteState.next, Quote.ofChar?_char]
    rfl
  rw [marks, marksFrom, hholds, marksFrom_of_open? hx hy escapes hopen]
  rfl

theorem segments_of_quoted {t : Text} (h : ∀ escapes, marks escapes t = t.map (⟨·, true⟩))
    (hne : trim t ≠ []) : segments t ',' = [trim t] := by
  have hcut := cutFrom_quoted ',' 0 t []
  rw [List.append_nil, cutFrom, foldr_extend_cons, List.append_nil] at hcut
  rw [segments, h, hcut, List.map_singleton, dropTrailingEmpty, List.reverse_singleton,
    List.dropWhile_cons, if_neg (by simpa using hne), List.reverse_singleton]

end Text

namespace Pattern

variable {β : Type} {k : Way → Option β} {before rest x : Text} {captures : List Capture} {q : Char}

/-- A text is read up to a character if nothing else may follow. -/
theorem first?_many1_of_blocked (hne : x ≠ []) (hx : q ∉ x) (hrest : Stops (· != q) rest)
    (hk : ∀ w : Way, ∀ d, d ≠ q → w.cursor.after.head? = some d → k w = none) :
    (many1 (· != q)).first? k ⟨⟨before, x ++ rest⟩, captures⟩ =
      k ⟨⟨x.reverse ++ before, rest⟩, captures⟩ := by
  obtain ⟨c, more, rfl⟩ := List.exists_cons_of_ne_nil hne
  rw [List.mem_cons, not_or] at hx
  have haccepts : ∀ d ∈ more, (d != q) = true := by
    intro d hd
    simpa using ne_of_mem_of_not_mem hd hx.2
  rw [many1, first?_seq, List.cons_append, first?_char_cons, if_pos (by simpa using Ne.symm hx.1),
    many, first?_run_of_blocked false haccepts hrest]
  · simp
  · exact fun w d hd hhead => hk w d (ne_of_mem_of_not_mem hd hx.2) hhead

/-- Without the character, nothing is read up to it. -/
theorem first?_many1_sign_eq_none (hx : q ∉ x) :
    (many1 (· != q)).first? ((sign q).first? k) ⟨⟨before, x⟩, captures⟩ = none := by
  by_cases hne : x = []
  · rw [hne, many1, first?_seq, first?_char_nil]
  · rw [← List.append_nil x, first?_many1_of_blocked hne hx (stops_nil (· != q))
      fun w d hd h => first?_sign_of_ne hd h]
    exact first?_sign_eq_none (stops_nil _)

theorem first?_all_sign_of_ne {c : Char} (hc : q ≠ c) (ps : List Pattern) :
    (all (sign c :: ps)).first? k ⟨⟨before, q :: x⟩, captures⟩ = none := by
  rw [first?_all_cons]
  exact first?_sign_of_ne hc rfl

/-- A name that starts with a quote is a quoted one. -/
theorem first?_name_of_quote {quote : Quote} (hquote : quote ≠ .single) :
    name.first? k ⟨⟨before, quote.char :: x⟩, captures⟩ =
      (all [sign quote.char, many1 (· != quote.char), sign quote.char]).first? k
        ⟨⟨before, quote.char :: x⟩, captures⟩ := by
  have hbare : (many1 isNameChar).first? k ⟨⟨before, quote.char :: x⟩, captures⟩ = none := by
    rw [many1, first?_seq, first?_char_cons]
    cases quote <;> rfl
  rw [name, first?_any_cons, hbare, Option.none_or]
  simp only [first?_any_cons, first?_any_nil, Option.or_none]
  cases quote with
  | single => exact absurd rfl hquote
  | double =>
    rw [first?_all_sign_of_ne (c := '\x60') (by decide), first?_all_sign_of_ne (c := '[') (by decide),
      Option.none_or, Option.or_none]
    rfl
  | backtick =>
    rw [first?_all_sign_of_ne (c := '\x22') (by decide), first?_all_sign_of_ne (c := '[') (by decide),
      Option.or_none, Option.or_none]
    rfl

theorem first?_name_quoted {quote : Quote} (hquote : quote ≠ .single) (hne : x ≠ [])
    (hx : quote.char ∉ x) :
    name.first? k ⟨⟨before, quote.char :: (x ++ quote.char :: rest)⟩, captures⟩ =
      k ⟨⟨quote.char :: (x.reverse ++ quote.char :: before), rest⟩, captures⟩ := by
  rw [first?_name_of_quote hquote, first?_all]
  simp only [List.foldr_cons, List.foldr_nil]
  rw [first?_sign, first?_many1_of_blocked hne hx (stops_of_head (by simp))
    fun w d hd h => first?_sign_of_ne hd h, first?_sign]

theorem first?_name_unclosed {quote : Quote} (hquote : quote ≠ .single) (hx : quote.char ∉ x) :
    name.first? k ⟨⟨before, quote.char :: x⟩, captures⟩ = none := by
  rw [first?_name_of_quote hquote, first?_all]
  simp only [List.foldr_cons, List.foldr_nil]
  rw [first?_sign, first?_many1_sign_eq_none hx]

end Pattern

/-! ## Columns -/

namespace Column

theorem isConstraint_of_quote (quote : Quote) (t : Text) :
    isConstraint (quote.char :: t) = false := by
  have hblank : isBlank quote.char = false := by cases quote <;> decide
  have hopen : (quote.char != '(') = true := by cases quote <;> decide
  have hhead : ∀ s ∈ ["CONSTRAINT", "CHECK", "FULLTEXT", "SPATIAL", "EXCLUDE", "PRIMARY",
      "FOREIGN", "KEY", "INDEX", "UNIQUE"], s.toList.head? ≠ some quote.char.toUpper := by
    cases quote <;> decide
  have hfirst : ∀ (u : Text) (s : String), s.toList.head? ≠ some quote.char.toUpper →
      ((quote.char :: u).map Char.toUpper == s.toList) = false := by
    intro u s hs
    rw [beq_eq_false_iff_ne]
    intro h
    rw [← h] at hs
    exact hs rfl
  obtain ⟨w, more, hwords⟩ := exists_words_cons hblank t
  rw [isConstraint, trimStart_eq_self hblank, hwords]
  simp only [List.forall_mem_cons] at hhead
  simp only [List.headD_cons, List.takeWhile_cons, hopen, if_true, hfirst, hhead, ne_eq,
    not_false_eq_true, Bool.or_false, Bool.false_eq_true, if_false]

/-- A quoted name is read from between its quotes. -/
theorem find?_namePattern_quoted {quote : Quote} (hquote : quote ≠ .single) {x : Text} (hne : x ≠ [])
    (hx : quote.char ∉ x) (rest : Text) :
    ∃ m, namePattern.find? (quote.char :: (x ++ quote.char :: rest)) = some m ∧
      m.textOf .name = x ∧ m.stop.after = rest := by
  have hown : (all [sign quote.char, capture .name (many1 (· != quote.char)),
      sign quote.char]).first? some ⟨⟨[], quote.char :: (x ++ quote.char :: rest)⟩, []⟩ =
      some ⟨⟨quote.char :: (x.reverse ++ [quote.char]), rest⟩,
        [⟨.name, ⟨[quote.char], x ++ quote.char :: rest⟩,
          ⟨x.reverse ++ [quote.char], quote.char :: rest⟩⟩]⟩ := by
    rw [first?_all]
    simp only [List.foldr_cons, List.foldr_nil]
    rw [first?_sign, first?_capture, first?_many1_of_blocked hne hx (stops_of_head (by simp)),
      first?_sign]
    exact fun w d hd h => first?_sign_of_ne hd h
  apply exists_find?_start (w := ⟨⟨quote.char :: (x.reverse ++ [quote.char]), rest⟩,
    [⟨.name, ⟨[quote.char], x ++ quote.char :: rest⟩,
      ⟨x.reverse ++ [quote.char], quote.char :: rest⟩⟩]⟩)
  · have hdone : (all []).first? (some : Way → Option Way) = some := funext (first?_all_nil some)
    rw [first?_all_cons, hdone, first?_any_cons, first?_any_cons]
    cases quote with
    | single => exact absurd rfl hquote
    | backtick =>
      rw [show (all [sign '\x60', capture .name (many1 (· != '\x60')), sign '\x60']).first? some
        ⟨⟨[], Quote.backtick.char :: (x ++ Quote.backtick.char :: rest)⟩, []⟩ = _ from hown]
      rfl
    | double =>
      rw [first?_all_sign_of_ne (c := '\x60') (by decide),
        show (all [sign '\x22', capture .name (many1 (· != '\x22')), sign '\x22']).first? some
          ⟨⟨[], Quote.double.char :: (x ++ Quote.double.char :: rest)⟩, []⟩ = _ from hown]
      rfl
  · exact ⟨Cursor.upTo_append _ _ _ _, rfl⟩

end Column

/-! ## Quoted names -/

/-- A name in double quotes or backticks. -/
structure QuotedName where
  quote : Quote
  isName : quote ≠ .single
  content : Text
  ne_nil : content ≠ []
  free : quote.char ∉ content

namespace QuotedName

variable (name : QuotedName)

def print : Text := name.quote.char :: (name.content ++ [name.quote.char])

def columnFragment : Text := name.print ++ ' ' :: "INT".toList

def keyFragment : Text := joined ["PRIMARY", "KEY"] ++ ' ' :: '(' :: (name.print ++ [')'])

/-- What is left of the name in a list of columns. -/
def kept : Text :=
  name.content.filter fun c => !(c == '\x22' || c == '\x60' || c == '[' || c == ']')

def key? : Option String :=
  if ')' ∈ name.content ∨ name.kept = [] then none else some (String.ofList name.kept)

/-- No character is lost in a list of columns. -/
def Plain : Prop := ∀ c ∈ name.content, c ∉ [')', '[', ']', '\x22', '\x60']

theorem stops_isBlank_quote (t : Text) : Stops isBlank (name.quote.char :: t) := by
  rw [stops_cons]
  cases name.quote <;> decide

theorem trimmed_print : Trimmed name.print := by
  apply trimmed_of_stops (t := name.print) (List.cons_ne_nil _ _) (name.stops_isBlank_quote _)
  rw [print, List.reverse_cons, List.reverse_append]
  exact name.stops_isBlank_quote _

/-- A column keeps the name as it is. -/
theorem parse_columnFragment :
    Column.parse name.columnFragment =
      .ok { name := String.ofList name.content, type := "INT" } := by
  obtain ⟨m, hm, htext, hstop⟩ := Column.find?_namePattern_quoted name.isName name.ne_nil name.free
    (' ' :: "INT".toList)
  have hfragment : name.columnFragment =
      name.quote.char :: (name.content ++ name.quote.char :: ' ' :: "INT".toList) := by
    simp [columnFragment, print]
  have htrimmed : Trimmed name.columnFragment := by
    apply trimmed_of_stops (t := name.columnFragment) (List.cons_ne_nil _ _)
      (name.stops_isBlank_quote _)
    rw [columnFragment, List.reverse_append]
    exact stops_of_head (by decide)
  have hrest : trimStart m.stop.after = "INT".toList ++ [] := by
    rw [hstop]
    rfl
  have htype : Column.typePattern.find? ("INT".toList ++ []) =
      some ⟨Cursor.first ("INT".toList ++ []), ⟨"INT".toList.reverse, []⟩, []⟩ :=
    find?_typePattern (by decide) (.inl (.inl rfl))
  rw [Column.parse, htrimmed.trim_eq, hfragment]
  simp only [List.isEmpty_cons, Column.isConstraint_of_quote, hm, hrest, htype, htext,
    Bool.false_eq_true, if_false]
  rfl

/-! ## Keys -/

theorem bareName_print : bareName name.print = String.ofList name.kept := by
  have hquote : (!(name.quote.char == '\x22' || name.quote.char == '\x60' ||
      name.quote.char == '[' || name.quote.char == ']')) = false := by
    have hname := name.isName
    cases hq : name.quote with
    | single => exact absurd hq hname
    | double => rfl
    | backtick => rfl
  rw [bareName, unquoted, name.trimmed_print.trim_eq, print, List.filter_cons, hquote,
    List.filter_append, List.filter_singleton, hquote]
  simp [kept]

/-- In a list of columns, a name loses every quote and bracket. -/
theorem columnNames_print :
    columnNames name.print = if name.kept = [] then [] else [String.ofList name.kept] := by
  have hmarks : ∀ escapes, marks escapes name.print = name.print.map (⟨·, true⟩) :=
    fun escapes => marks_of_quote (y := [name.quote.char]) name.free (Nat.le_refl 1) escapes
  have hsegments : segments name.print ',' = [name.print] := by
    have htrim := name.trimmed_print.trim_eq
    have hcut := segments_of_quoted hmarks (by rw [htrim]; exact name.trimmed_print.ne_nil)
    rwa [htrim] at hcut
  have hmatch : Pattern.name.matchAt? (Cursor.first name.print) =
      some ⟨Cursor.first name.print, ⟨name.print.reverse, []⟩, []⟩ := by
    apply matchAt?_of_first? (w := ⟨⟨name.print.reverse, []⟩, []⟩)
    rw [Cursor.first, print, first?_name_quoted name.isName name.ne_nil name.free]
    simp
  have htext : Cursor.upTo (Cursor.first name.print) ⟨name.print.reverse, []⟩ = name.print := by
    have htake := Cursor.upTo_append [] name.print [] name.print.reverse
    rwa [List.append_nil] at htake
  rw [columnNames, hsegments, List.filterMap_cons, hmatch, List.filterMap_nil, Option.map_some,
    Match.text, htext, bareName_print]
  by_cases hkept : name.kept = []
  · rw [if_pos hkept, hkept]
    rfl
  · rw [if_neg hkept]
    simp [hkept]

/-- A quote that is not closed starts no name. -/
theorem columnNames_unclosed {x : Text} (hx : name.quote.char ∉ x) :
    columnNames (name.quote.char :: x) = [] := by
  have hmarks : ∀ escapes, marks escapes (name.quote.char :: x) =
      (name.quote.char :: x).map (⟨·, true⟩) := by
    intro escapes
    have hquoted := marks_of_quote (y := []) hx (Nat.zero_le 1) escapes
    rwa [List.append_nil] at hquoted
  have htrim : ∃ y, trim (name.quote.char :: x) = name.quote.char :: y ∧ name.quote.char ∉ y := by
    have hblank := (stops_cons _ _ _).mp (name.stops_isBlank_quote x)
    obtain ⟨back, hback, -⟩ := exists_trimEnd_append x
    refine ⟨trimEnd x, ?_, fun hmem => hx ?_⟩
    · rw [trim, trimStart_eq_self hblank, trimEnd_cons, if_neg (by simp [hblank])]
    · rw [hback]
      exact List.mem_append_left back hmem
  obtain ⟨y, htrim, hy⟩ := htrim
  have hmatch : Pattern.name.matchAt? (Cursor.first (name.quote.char :: y)) = none := by
    apply matchAt?_eq_none
    exact first?_name_unclosed name.isName hy
  rw [columnNames, segments_of_quoted hmarks (by rw [htrim]; exact List.cons_ne_nil _ _), htrim,
    List.filterMap_cons, hmatch]
  rfl

theorem keyFragment_eq : name.keyFragment =
    "PRIMARY".toList ++ ' ' :: ("KEY".toList ++ ' ' :: '(' :: (name.print ++ [')'])) := by
  rw [keyFragment, joined_cons_cons, joined_singleton, List.append_assoc, List.cons_append]

theorem parse_keyFragment : Column.parse name.keyFragment = .error .constraint := by
  have hconstraint : Column.isConstraint name.keyFragment = true := by
    rw [keyFragment_eq, isConstraint_append ⟨"PRIMARY".toList, rfl⟩,
      words_append ⟨"KEY".toList, rfl⟩]
    rfl
  have htrimmed : Trimmed name.keyFragment := by
    rw [keyFragment_eq]
    apply trimmed_of_stops
    · simp
    · exact stops_isBlank_of_isPhraseWord rfl _
    · simp
      decide
  rw [Column.parse_eq_constraint_iff, htrimmed.trim_eq, hconstraint]

theorem exists_columns_keyFragment :
    ∃ m, Constraint.primaryKeyPattern.find? name.keyFragment = some m ∧
      columnNames (m.textOf .columns) = name.key?.toList := by
  rw [keyFragment_eq]
  by_cases hclose : ')' ∈ name.content
  · -- The list ends inside the name, before the closing quote.
    obtain ⟨front, back, hcontent, hfront⟩ := List.eq_append_cons_of_mem hclose
    have hfree := name.free
    rw [hcontent, List.mem_append, not_or] at hfree
    have hinner : ∀ c ∈ name.quote.char :: front, (c != ')') = true := by
      intro c hc
      rcases List.mem_cons.mp hc with rfl | hc
      · cases name.quote <;> decide
      · simpa using ne_of_mem_of_not_mem hc hfront
    obtain ⟨m, hm, hcolumns⟩ := Constraint.find?_primaryKeyPattern hinner
      (back ++ [name.quote.char, ')'])
    have hlist : name.print ++ [')'] =
        name.quote.char :: front ++ ')' :: (back ++ [name.quote.char, ')']) := by
      simp [print, hcontent]
    refine ⟨m, by rw [hlist, hm], ?_⟩
    rw [hcolumns, name.columnNames_unclosed hfree.1, key?, if_pos (.inl hclose)]
    rfl
  · have hinner : ∀ c ∈ name.print, (c != ')') = true := by
      intro c hc
      rw [print, List.mem_cons, List.mem_append, List.mem_singleton] at hc
      rcases hc with rfl | hc | rfl
      · cases name.quote <;> decide
      · simpa using ne_of_mem_of_not_mem hc hclose
      · cases name.quote <;> decide
    obtain ⟨m, hm, hcolumns⟩ := Constraint.find?_primaryKeyPattern hinner []
    refine ⟨m, hm, ?_⟩
    rw [hcolumns, columnNames_print, key?]
    by_cases hkept : name.kept = []
    · simp [hkept]
    · simp [hkept, hclose]

theorem read?_keyFragment :
    Constraint.read? name.keyFragment = name.key?.map fun column => .primaryKey [column] := by
  have hnamed : Constraint.namedPattern.find? name.keyFragment = none := by
    rw [keyFragment_eq]
    exact find?_start_word_eq_none (opens_append_eq_false (by decide) _)
  obtain ⟨m, hm, hcolumns⟩ := name.exists_columns_keyFragment
  rw [Constraint.read?, Constraint.readUnder?, hnamed]
  simp only [Constraint.readUnnamed?, hm, hcolumns]
  cases name.key? <;> rfl

theorem addFragment_keyFragment (document : Text) (table : Table) (skipped : List SkippedFragment)
    (place : Option Nat) :
    Extraction.addFragment document (table, skipped) (name.keyFragment, place) =
      ({ table with primaryKey := (name.key?.map ([·])).or table.primaryKey }, skipped) := by
  rw [Extraction.addFragment]
  simp only [parse_keyFragment, read?_keyFragment]
  cases name.key? <;> rfl

theorem plain_iff : name.Plain ↔ ')' ∉ name.content ∧ name.kept = name.content := by
  rw [Plain, kept, List.filter_eq_self]
  constructor
  · intro h
    refine ⟨fun hmem => h ')' hmem (by decide), fun c hc => ?_⟩
    have hne := h c hc
    simp only [List.mem_cons, not_or] at hne
    simp [hne]
  · rintro ⟨hclose, hkept⟩ c hc
    have hne : c ≠ ')' := ne_of_mem_of_not_mem hc hclose
    have hkeep := hkept c hc
    simp only [Bool.not_eq_true', Bool.or_eq_false_iff, beq_eq_false_iff_ne] at hkeep
    simp [hne, hkeep]

theorem key?_eq_some_content_iff : name.key? = some (String.ofList name.content) ↔ name.Plain := by
  rw [plain_iff, key?]
  constructor
  · intro h
    split at h
    · cases h
    · rename_i hother
      rw [not_or] at hother
      exact ⟨hother.1, String.ofList_injective (Option.some.inj h)⟩
  · rintro ⟨hclose, hkept⟩
    rw [hkept, if_neg (not_or.mpr ⟨hclose, name.ne_nil⟩)]

/-- The table of the column and its key. -/
def declared (document : Text) (owner : String) (line : Nat) : Table :=
  ([(name.columnFragment, none), (name.keyFragment, none)].foldl
    (Extraction.addFragment document) ({ name := owner, line }, [])).1

theorem declared_eq (document : Text) (owner : String) (line : Nat) :
    name.declared document owner line =
      { name := owner, line
        columns := [{ name := String.ofList name.content, type := "INT" }]
        primaryKey := name.key?.map ([·]) } := by
  have hcolumn : Extraction.addFragment document ({ name := owner, line }, [])
      (name.columnFragment, none) = ({ name := owner, line
                                       columns := [{ name := String.ofList name.content
                                                     type := "INT" }] }, []) := by
    rw [Extraction.addFragment]
    simp only [parse_columnFragment]
    rfl
  rw [declared, List.foldl_cons, List.foldl_cons, List.foldl_nil, hcolumn, addFragment_keyFragment,
    Option.or_none]

/-- What is left of a name is the same name only if nothing is lost. -/
theorem sameName_kept_iff :
    sameName (String.ofList name.content) (String.ofList name.kept) = true ↔
      name.kept = name.content := by
  constructor
  · intro h
    simp only [sameName, sameLetters, String.toList_ofList, beq_iff_eq] at h
    have hlength := congrArg List.length h
    rw [List.length_map, List.length_map] at hlength
    exact List.filter_sublist.eq_of_length hlength.symm
  · intro h
    rw [h]
    exact sameName_refl _

/-- The key is reported if it names a column, but not the one that was written. -/
theorem reports_iff (source : Text) (tables : List Table) (document : Text) (owner : String)
    (line : Nat) :
    (∃ f ∈ SchemaCheck.checkKeys source tables (name.declared document owner line),
        f.rule = SchemaCheck.keyColumnUnknown.id) ↔
      ')' ∉ name.content ∧ name.kept ≠ [] ∧ ¬ name.Plain := by
  rw [declared_eq, SchemaCheck.checkKeys, List.flatMap_nil, List.append_nil,
    SchemaCheck.checkPrimaryKey, plain_iff, key?]
  by_cases hnone : ')' ∈ name.content ∨ name.kept = []
  · rw [if_pos hnone, Option.map_none]
    constructor
    · rintro ⟨f, hf, hrule⟩
      rw [List.mem_singleton.mp hf] at hrule
      change SchemaCheck.missingKey.id = SchemaCheck.keyColumnUnknown.id at hrule
      exact absurd hrule (by decide)
    · rintro ⟨hclose, hkept, -⟩
      exact absurd hnone (not_or.mpr ⟨hclose, hkept⟩)
  · rw [if_neg hnone, Option.map_some]
    rw [not_or] at hnone
    have hcolumn : (Table.column? { name := owner, line
                                    columns := [{ name := String.ofList name.content
                                                  type := "INT" }]
                                    primaryKey := some [String.ofList name.kept] }
        (String.ofList name.kept)).isNone = true ↔ name.kept ≠ name.content := by
      rw [ne_eq, ← sameName_kept_iff]
      simp [Table.column?]
    constructor
    · rintro ⟨f, hf, -⟩
      obtain ⟨column, hmem, -⟩ := List.mem_map.mp hf
      obtain ⟨hkey, hunknown⟩ := List.mem_filter.mp hmem
      rw [List.mem_singleton.mp hkey] at hunknown
      exact ⟨hnone.1, hnone.2, fun hplain => hcolumn.mp hunknown hplain.2⟩
    · rintro ⟨-, -, hplain⟩
      have hunknown := hcolumn.mpr fun hkept => hplain ⟨hnone.1, hkept⟩
      refine ⟨_, List.mem_map.mpr ⟨String.ofList name.kept, ?_, rfl⟩, rfl⟩
      exact List.mem_filter.mpr ⟨List.mem_singleton.mpr rfl, hunknown⟩

/-- A quoted name means the same as a column and as a key exactly if no character of it is lost; if
one is lost, but not all, the key is reported to name no column. -/
theorem keyFragment_names_column_iff :
    Column.parse name.columnFragment =
        .ok { name := String.ofList name.content, type := "INT" } ∧
    ((∀ (document : Text) (table : Table) (skipped : List SkippedFragment) (place : Option Nat),
        Extraction.addFragment document (table, skipped) (name.keyFragment, place) =
          ({ table with primaryKey := some [String.ofList name.content] }, skipped)) ↔
      name.Plain) ∧
    ∀ (source : Text) (tables : List Table) (document : Text) (owner : String) (line : Nat),
      (∃ f ∈ SchemaCheck.checkKeys source tables (name.declared document owner line),
          f.rule = SchemaCheck.keyColumnUnknown.id) ↔
        ')' ∉ name.content ∧ name.kept ≠ [] ∧ ¬ name.Plain := by
  refine ⟨name.parse_columnFragment, ⟨fun h => ?_, fun h => ?_⟩, name.reports_iff⟩
  · -- A table without a key shows what the fragment alone sets.
    have hkey := congrArg (fun built => built.1.primaryKey) (h [] { name := "", line := 0 } [] none)
    simp only [addFragment_keyFragment, Option.or_none, Option.map_eq_some_iff] at hkey
    obtain ⟨column, hcolumn, heq⟩ := hkey
    rw [← key?_eq_some_content_iff, hcolumn, List.singleton_inj.mp heq]
  · intro document table skipped place
    rw [addFragment_keyFragment, (name.key?_eq_some_content_iff).mpr h]
    rfl

/-- A name with brackets inside. -/
def indexed : QuotedName :=
  ⟨.double, by decide, "a[0]".toList, by decide, by decide⟩

/-- The key loses the brackets, and then no column has its name. -/
theorem keyFragment_loses_brackets :
    indexed.key? = some "a0" ∧
    (∃ f ∈ SchemaCheck.checkKeys [] [] (indexed.declared [] "t" 1),
      f.rule = SchemaCheck.keyColumnUnknown.id) ∧
    ¬ ∀ (document : Text) (table : Table) (skipped : List SkippedFragment) (place : Option Nat),
      Extraction.addFragment document (table, skipped) (indexed.keyFragment, place) =
        ({ table with primaryKey := some ["a[0]"] }, skipped) := by
  have hplain : ¬ indexed.Plain := fun h => h '[' (by decide) (by decide)
  refine ⟨by decide, ?_, fun h => ?_⟩
  · exact (indexed.keyFragment_names_column_iff.2.2 [] [] [] "t" 1).mpr
      ⟨by decide, by decide, hplain⟩
  · exact hplain (indexed.keyFragment_names_column_iff.2.1.mp h)

end QuotedName
end SqlAudit
