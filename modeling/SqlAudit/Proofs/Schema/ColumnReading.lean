import SqlAudit.Proofs.Schema.ArgumentReading
import SqlAudit.Proofs.Schema.ModifierReading

/-!
Columns are read as they are written: none is taken for a constraint, and the name, the type, the
arguments and the modifiers are found one after the other.
-/

namespace SqlAudit

open Text Pattern Declaration

/-! ## Words and blanks -/

namespace Text

theorem words_append (x : Identifier) (t : Text) :
    words (x.text ++ ' ' :: t) = x.text :: words t := by
  have hpieces : pieces isBlank x.text = [x.text] :=
    pieces_of_forall fun c hc => x.isBlank_of_mem hc
  rw [words, pieces_append_stop (by decide), hpieces, List.singleton_append,
    List.filter_cons, if_pos (by simpa using x.ne_nil)]
  rfl

theorem exists_words_cons {c : Char} (hc : isBlank c = false) (t : Text) :
    ∃ w more, words (c :: t) = (c :: w) :: more := by
  obtain ⟨piece, more, hpieces⟩ := List.exists_cons_of_ne_nil (pieces_ne_nil isBlank t)
  refine ⟨piece, more.filter (!·.isEmpty), ?_⟩
  rw [words, pieces, if_neg (by simp [hc]), hpieces, extend, List.filter_cons, if_pos (by simp)]

theorem stops_reverse_append {accepts : Char → Bool} {a b : Text} (ha : Stops accepts a.reverse)
    (hb : Stops accepts b.reverse) : Stops accepts (a ++ b).reverse := by
  rw [List.reverse_append]
  cases hreverse : b.reverse with
  | nil => exact ha
  | cons c more =>
    rw [hreverse] at hb
    exact stops_of_head ((stops_cons _ _ _).mp hb)

theorem stops_reverse_append_right (a : Text) {b : Text} (hne : b ≠ [])
    (hb : Stops isBlank b.reverse) :
    Stops isBlank (a ++ b).reverse := by
  rw [List.reverse_append]
  obtain ⟨c, more, hreverse⟩ := List.exists_cons_of_ne_nil (mt List.reverse_eq_nil_iff.mp hne)
  rw [hreverse] at hb ⊢
  exact stops_of_head ((stops_cons _ _ _).mp hb)

theorem stops_reverse_cons {c : Char} {t : Text} (hne : t ≠ []) (h : Stops isBlank t.reverse) :
    Stops isBlank (c :: t).reverse := stops_reverse_append_right [c] hne h

theorem trimmed_of_stops {t : Text} (hne : t ≠ []) (hstart : Stops isBlank t)
    (hstop : Stops isBlank t.reverse) : Trimmed t := by
  refine ⟨?_, ?_⟩
  · obtain ⟨c, rest, hcons⟩ := List.exists_cons_of_ne_nil hne
    rw [hcons, stops_cons] at hstart
    exact ⟨c, rest, hcons, hstart⟩
  · obtain ⟨c, front, hcons⟩ := List.exists_cons_of_ne_nil (mt List.reverse_eq_nil_iff.mp hne)
    rw [hcons, stops_cons] at hstop
    refine ⟨front.reverse, c, ?_, hstop⟩
    rw [← List.reverse_reverse t, hcons, List.reverse_cons]

theorem sameLetters_of_upper {w letters : Text} (h : w.map Char.toUpper = letters) :
    sameLetters w letters = true := by
  rw [sameLetters, ← h, List.map_map, beq_iff_eq]
  exact List.map_congr_left fun c _ => (toLower_toUpper c).symm

end Text

theorem Identifier.stops_reverse (x : Identifier) : Stops isBlank x.text.reverse := by
  intro c hc
  exact x.isBlank_of_mem (List.mem_reverse.mp (List.mem_of_head? hc))

namespace Declaration

/-- Whether a fragment is a constraint is decided by its first word, and by what follows for some
words. -/
theorem isConstraint_append (x : Identifier) (t : Text) :
    Column.isConstraint (x.text ++ ' ' :: t) =
      if constraintWords.any fun s => x.text.map Char.toUpper == s.toList then true
      else if ["PRIMARY", "FOREIGN"].any fun s => x.text.map Char.toUpper == s.toList then
        (words t).head?.any fun second => "KEY".toList.isPrefixOf (second.map Char.toUpper)
      else if ["KEY", "INDEX", "UNIQUE"].any fun s => x.text.map Char.toUpper == s.toList then
        (Column.typePattern.find? (trimStart t)).all fun m => Column.opensColumnList m.stop.after
      else false := by
  obtain ⟨c, more, hx, hc, -⟩ := x.exists_cons
  have hbody : trimStart (x.text ++ ' ' :: t) = x.text ++ ' ' :: t := by
    rw [hx]
    exact trimStart_eq_self (isBlank_eq_false_of_isIdentifierChar hc)
  have hparen : ∀ d ∈ x.text, (d != '(') = true := by
    intro d hd
    simpa using ne_of_isIdentifierChar (d := '(') (x.isIdentifierChar_of_mem hd) (by decide)
  have hfirst : x.text.takeWhile (· != '(') = x.text := by
    have happend : (x.text ++ []).takeWhile (· != '(') = x.text ++ [].takeWhile (· != '(') :=
      List.takeWhile_append_of_pos hparen
    simpa using happend
  have hdrop : trimStart (' ' :: t) = trimStart t := by rw [trimStart_cons, if_pos (by decide)]
  rw [Column.isConstraint, hbody, words_append x]
  simp only [List.headD_cons, hfirst, List.drop_left, hdrop, List.getElem?_cons_succ,
    constraintWords, List.any_cons, List.any_nil, Bool.or_false, Bool.or_assoc,
    ← List.head?_eq_getElem?]
  cases Column.typePattern.find? (trimStart t) <;> rfl

namespace Modifier

theorem stops_reverse_print (m : Modifier) : Stops isBlank m.print.reverse := by
  have hwords : Stops isBlank (joined m.words).reverse :=
    (by decide : ∀ words ∈ phrases, Stops isBlank (joined words).reverse) _ m.words_mem_phrases
  apply stops_reverse_append hwords
  cases m with
  | default value => simp [operand, quoted]; decide
  | references table column =>
    cases column with
    | none => exact stops_reverse_cons table.ne_nil (table.stops_reverse)
    | some column => simp [operand]; decide
  | _ => exact stops_nil _

end Modifier

theorem stops_reverse_printModifiers (ms : List Modifier) :
    Stops isBlank (ColumnItem.printModifiers ms).reverse := by
  induction ms with
  | nil => exact stops_nil _
  | cons m ms ih =>
    have hne : m.print ++ ColumnItem.printModifiers ms ≠ [] := by
      obtain ⟨s, hs, tail, hwords⟩ := m.exists_joined_words_eq
      have hs : s.toList ≠ [] := (by decide : ∀ s ∈ Modifier.firstWords, s.toList ≠ []) s hs
      simp [Modifier.print, hwords, hs]
    exact stops_reverse_cons hne (stops_reverse_append m.stops_reverse_print ih)

/-! ## Columns are no constraints -/

theorem startsName_eq_false {c : Char} (hc : c.isDigit = true) :
    (isLetter c || c == '_' || c == '\x60' || c == '\x22' || c == '[') = false := by
  have hcode : 48 ≤ c.toNat ∧ c.toNat ≤ 57 := by
    simpa [Char.isDigit, UInt32.le_iff_toNat_le] using hc
  have hascii : isAscii c = true := by
    rw [isAscii, Nat.blt_eq]
    omega
  have halpha : c.isAlpha = false := by
    rw [Bool.eq_false_iff, ne_eq, isAlpha_iff]
    omega
  have hne : ∀ d : Char, 57 < d.toNat → (c == d) = false := by
    intro d hd
    rw [beq_eq_false_iff_ne]
    rintro rfl
    omega
  rw [isLetter, if_pos hascii, halpha, hne '_' (by decide), hne '\x60' (by decide),
    hne '[' (by decide)]
  rw [beq_eq_false_iff_ne.mpr]
  · rfl
  · rintro rfl
    exact absurd hcode.1 (by decide)

theorem opensColumnList_of_stops {t : Text} (h : Stops (· == '(') (trimStart t)) :
    Column.opensColumnList t = false := by
  rw [Column.opensColumnList]
  split
  · rename_i rest heq
    rw [heq, stops_cons] at h
    cases h
  · rfl

theorem opensColumnList_arguments {arguments : Arguments} (h : arguments ≠ .none) (rest : Text) :
    Column.opensColumnList (arguments.print ++ rest) = false := by
  have hclose : ∀ c ∈ arguments.inner, (c != ')') = true := by
    intro c hc
    have hnone := Arguments.noneOf_of_mem_inner hc
    simp only [noneOf, String.reduceToList, List.contains_cons, Bool.not_or, Bool.and_eq_true]
      at hnone
    simpa using hnone.2.1
  have hnumber : ∀ n : UInt32, ((Arguments.digits n).head?.any fun c =>
      isLetter c || c == '_' || c == '\x60' || c == '\x22' || c == '[') = false := by
    intro n
    obtain ⟨c, more, hcons⟩ := List.exists_cons_of_ne_nil (Arguments.digits_ne_nil n)
    rw [hcons]
    apply startsName_eq_false
    apply Arguments.isDigit_of_mem_digits
    rw [hcons]
    exact List.mem_cons_self
  have hitems : ∀ item ∈ pieces (· == ',') arguments.inner,
      ∃ n, Arguments.digits n = trim item := by
    intro item hitem
    have hmem := List.mem_map_of_mem (f := trim) hitem
    rw [Arguments.map_trim_pieces_inner h] at hmem
    obtain ⟨n, -, hn⟩ := List.mem_map.mp hmem
    exact ⟨n, hn⟩
  rw [Arguments.print_eq h, Column.opensColumnList, List.cons_append,
    trimStart_eq_self (by decide)]
  simp only [List.append_assoc, List.singleton_append]
  rw [List.takeWhile_append_of_pos hclose, List.takeWhile_cons_of_neg (by decide), List.append_nil,
    List.any_eq_false]
  intro item hitem
  obtain ⟨n, hn⟩ := hitems item hitem
  simp only [← hn, hnumber n, Bool.false_and]
  simp

theorem StartsModifiers.opensColumnList_rest {tail : Text} (h : StartsModifiers tail)
    (arguments : Arguments) : Column.opensColumnList (arguments.print ++ tail) = false := by
  by_cases hnone : arguments = .none
  · rw [hnone]
    exact opensColumnList_of_stops h.stops_trimStart
  · exact opensColumnList_arguments hnone _

theorem of_mem_typeNames : ∀ type ∈ typeNames, type.toList ≠ [] ∧ Stops isBlank type.toList ∧
    Stops isBlank type.toList.reverse ∧ Stops (fun c => c.toUpper == 'K') type.toList ∧
    upper (squeeze type.toList) = type.toList := by
  decide +kernel

theorem stops_type {type : String} (known : type ∈ typeNames) {accepts : Char → Bool}
    (h : Stops accepts type.toList) (rest : Text) : Stops accepts (type.toList ++ rest) := by
  obtain ⟨hne, -⟩ := of_mem_typeNames type known
  obtain ⟨c, more, hcons⟩ := List.exists_cons_of_ne_nil hne
  rw [hcons, stops_cons] at h
  rw [hcons]
  exact stops_of_head h

/-! ## Reading columns -/

theorem find?_namePattern (x : Identifier) (t : Text) :
    ∃ m, Column.namePattern.find? (x.text ++ ' ' :: t) = some m ∧
      m.textOf .name = x.text ∧ m.stop.after = ' ' :: t := by
  obtain ⟨c, more, hx, hc, -⟩ := x.exists_cons
  have hquote : ∀ (q : Char) (ps : List Pattern) (k : Way → Option Way),
      isIdentifierChar q = false →
      (all (sign q :: ps)).first? k ⟨⟨[], x.text ++ ' ' :: t⟩, []⟩ = none := by
    intro q ps k hq
    have hne : (c == q) = false := by simpa using ne_of_isIdentifierChar hc hq
    rw [first?_all_cons, hx, List.cons_append, first?_sign_eq_none (stops_of_head hne)]
  have hchars : ∀ d ∈ x.text, (!isBlank d && noneOf "()," d) = true := by
    intro d hd
    have hchar := x.isIdentifierChar_of_mem hd
    have hne := fun e he => ne_of_isIdentifierChar (d := e) hchar he
    simp [x.isBlank_of_mem hd, noneOf, hne '(' (by decide), hne ')' (by decide),
      hne ',' (by decide)]
  have hspace : Stops (fun d => !isBlank d && noneOf "()," d) (' ' :: t) :=
    stops_of_head rfl
  have hname : (capture .name (many1 fun d => !isBlank d && noneOf "()," d)).first? some
      ⟨⟨[], x.text ++ ' ' :: t⟩, []⟩ = some ⟨⟨x.text.reverse ++ [], ' ' :: t⟩,
        [⟨.name, ⟨[], x.text ++ ' ' :: t⟩, ⟨x.text.reverse ++ [], ' ' :: t⟩⟩]⟩ := by
    rw [hx] at hchars ⊢
    rw [first?_capture, many1, first?_seq, List.cons_append, first?_char_cons,
      if_pos (hchars c List.mem_cons_self)]
    apply first?_many_of_some (fun d hd => hchars d (List.mem_cons_of_mem c hd)) hspace
    simp
  refine ⟨_, find?_start_of_first? (w := ⟨⟨x.text.reverse ++ [], ' ' :: t⟩,
    [⟨.name, ⟨[], x.text ++ ' ' :: t⟩, ⟨x.text.reverse ++ [], ' ' :: t⟩⟩]⟩) ?_, ?_, rfl⟩
  · have hdone : (all []).first? (some : Way → Option Way) = some := funext (first?_all_nil some)
    rw [first?_all_cons, hdone, first?_any_cons, hquote _ _ _ (by decide), first?_any_cons,
      hquote _ _ _ (by decide), first?_any_cons, hquote _ _ _ (by decide), first?_any_cons, hname]
    rfl
  · exact Cursor.upTo_append _ _ _ _

section

variable (name : NameBesides constraintWords) {type : String} (known : type ∈ typeNames)
  (arguments : Arguments) {tail : Text} (htail : StartsModifiers tail)

include known htail

/-- A column is no constraint, even if its name is a word that may start one. -/
theorem isConstraint_column :
    Column.isConstraint (name.text ++ ' ' :: (type.toList ++ (arguments.print ++ tail))) =
      false := by
  have hwords : (constraintWords.any fun s => name.text.map Char.toUpper == s.toList) = false := by
    rw [List.any_eq_false]
    intro s hs heq
    have hsame := sameLetters_of_upper (beq_iff_eq.mp heq)
    rw [name.besides s hs] at hsame
    cases hsame
  obtain ⟨-, hstart, -, hnotKey, -⟩ := of_mem_typeNames type known
  have hblank := stops_type known hstart (arguments.print ++ tail)
  have hkey : ((words (type.toList ++ (arguments.print ++ tail))).head?.any fun second =>
      "KEY".toList.isPrefixOf (second.map Char.toUpper)) = false := by
    have hk := stops_type known hnotKey (arguments.print ++ tail)
    cases hrest : type.toList ++ (arguments.print ++ tail) with
    | nil => rfl
    | cons c t =>
      rw [hrest, stops_cons] at hblank hk
      obtain ⟨w, more, hcons⟩ := exists_words_cons hblank t
      have hletters : "KEY".toList = ['K', 'E', 'Y'] := rfl
      rw [hcons, List.head?_cons, Option.any_some, List.map_cons, hletters,
        List.isPrefixOf_cons_cons, BEq.comm, hk, Bool.false_and]
  rw [isConstraint_append, hwords, hkey, hblank.trimStart_eq,
    find?_typePattern known (htail.endsType_arguments arguments)]
  simp only [Option.all_some, htail.opensColumnList_rest, Bool.false_eq_true, if_false, ite_self]

omit htail in
theorem trimmed_column (hend : Stops isBlank tail.reverse) :
    Trimmed (name.text ++ ' ' :: (type.toList ++ (arguments.print ++ tail))) := by
  obtain ⟨hne, -, htype, -⟩ := of_mem_typeNames type known
  have harguments : Stops isBlank arguments.print.reverse := by
    cases arguments with
    | none => exact stops_nil _
    | one n => simp [Arguments.print]; decide
    | two precision scale => simp [Arguments.print]; decide
  apply trimmed_of_stops
  · simp
  · exact name.stops_isBlank _
  · apply stops_reverse_append name.stops_reverse
    apply stops_reverse_cons (by simp [hne])
    exact stops_reverse_append htype (stops_reverse_append harguments hend)

/-- A name, a type and its arguments are read as they are written, whatever modifiers follow. -/
theorem parse_column (hend : Stops isBlank tail.reverse) :
    Column.parse (name.text ++ ' ' :: (type.toList ++ (arguments.print ++ tail))) =
      .ok (Column.withModifiers
        { arguments.apply { name := name.name, type } with
          isAutoIncrement := Column.serialTypes.contains type } tail) := by
  obtain ⟨m, hname, htext, hstop⟩ := find?_namePattern name.toIdentifier
    (type.toList ++ (arguments.print ++ tail))
  have htrimmed := trimmed_column name known arguments hend
  obtain ⟨-, hstart, -, -, hupper⟩ := of_mem_typeNames type known
  have hrest : trimStart m.stop.after = type.toList ++ (arguments.print ++ tail) := by
    rw [hstop, trimStart_cons, if_pos (by decide), (stops_type known hstart _).trimStart_eq]
  have htype : String.ofList (upper (squeeze type.toList)) = type := by
    rw [hupper, String.ofList_toList]
  have hupTo : Cursor.upTo (Cursor.first (type.toList ++ (arguments.print ++ tail)))
      ⟨type.toList.reverse, arguments.print ++ tail⟩ = type.toList := Cursor.upTo_append _ _ _ _
  rw [Column.parse, htrimmed.trim_eq]
  simp only [List.isEmpty_eq_false_iff.mpr htrimmed.ne_nil,
    isConstraint_column name known arguments htail, Bool.false_eq_true, if_false]
  rw [hname]
  simp only [hrest]
  rw [find?_typePattern known (htail.endsType_arguments arguments)]
  simp only [Match.text, hupTo, htype, htext]
  have happly := arguments.apply_isAutoIncrement { name := name.name, type }
    (Column.serialTypes.contains type)
  rw [← happly]
  by_cases h : arguments = .none
  · rw [h, Arguments.print, List.nil_append, htail.find?_argumentsPattern_eq_none]
    rfl
  · obtain ⟨found, hfound, harguments, hafter⟩ := Arguments.find?_argumentsPattern h tail
    rw [hfound]
    simp only [harguments, hafter, Arguments.withArguments_inner _ h]
    rfl

end

namespace ColumnItem

variable (item : ColumnItem)

def rest : Text := item.type.toList ++ (item.arguments.print ++ printModifiers item.modifiers)

theorem print_eq : item.print = item.name.text ++ ' ' :: item.rest := rfl

theorem trimmed_print : Trimmed item.print :=
  trimmed_column item.name item.known item.arguments (stops_reverse_printModifiers _)

theorem tidy_print : Tidy false item.print := by
  have htype : Tidy false item.type.toList := by
    rcases List.mem_append.mp item.known with h | h
    · obtain ⟨words, hwords, heq⟩ := List.mem_map.mp h
      rw [← heq, toList_intercalate hwords]
      exact tidy_joined (isPhraseWord_of_mem_longTypes hwords)
    · exact Tidy.of_identifierChars (of_isPhraseWord (isPhraseWord_of_mem_shortTypes h)).2
  have hdigits : ∀ (n : UInt32) {commas : Bool}, Tidy commas (Arguments.digits n) := fun n _ =>
    Tidy.of_identifierChars fun c hc => Arguments.isIdentifierChar_of_mem_digits hc
  have harguments : Tidy false item.arguments.print := by
    cases item.arguments with
    | none => exact .nil
    | one n => exact .paren (hdigits n) .nil
    | two precision scale =>
      have hinner :
          Tidy true (Arguments.digits precision ++ ',' :: ' ' :: Arguments.digits scale) :=
        (hdigits precision).append
          (.plain (by decide) (fun _ => rfl) (tidy_cons_space (hdigits scale)))
      have hparen : Tidy false ('(' :: (Arguments.digits precision ++ ',' :: ' ' ::
          Arguments.digits scale ++ [')'])) := .paren hinner .nil
      simpa [Arguments.print] using hparen
  exact item.name.tidy.append (tidy_cons_space (htype.append
    (harguments.append (Modifier.tidy_printModifiers item.modifiers))))

theorem parse_print : Column.parse item.print = .ok item.column := by
  rw [print, parse_column item.name item.known item.arguments (startsModifiers_printModifiers _)
    (stops_reverse_printModifiers _), Modifier.withModifiers_print]
  simp [column, Arguments.nullable_apply]

end ColumnItem

end Declaration
end SqlAudit
