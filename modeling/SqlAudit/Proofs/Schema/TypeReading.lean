import SqlAudit.Proofs.Pattern.Phrase
import SqlAudit.Proofs.Schema.NameReading

/-!
Types are read as they are written.  The types of several words are tried first, and each differs
from those that are tried before it; a type of one word is followed by nothing that could make it
longer.
-/

namespace SqlAudit

open Text Pattern Declaration

namespace Declaration

/-! ## What follows a type -/

namespace Modifier

def firstWords : List String :=
  ["NOT", "UNIQUE", "PRIMARY", "AUTO_INCREMENT", "AUTOINCREMENT", "IDENTITY", "DEFAULT",
   "REFERENCES"]

theorem isPhraseWord_of_mem_firstWords {s : String} (h : s ∈ firstWords) : isPhraseWord s = true :=
  (by decide : ∀ s ∈ firstWords, isPhraseWord s = true) s h

theorem exists_words_eq (m : Modifier) : ∃ s ∈ firstWords, ∃ more, m.words = s :: more := by
  cases m with
  | counting spelling =>
    refine ⟨spelling.word, ?_, [], rfl⟩
    cases spelling <;> decide
  | _ => exact ⟨_, by decide, _, rfl⟩

theorem exists_joined_words_eq (m : Modifier) :
    ∃ s ∈ firstWords, ∃ tail, joined m.words = s.toList ++ tail := by
  obtain ⟨s, hs, more, hwords⟩ := m.exists_words_eq
  obtain ⟨tail, htail⟩ := exists_joined_eq s more
  exact ⟨s, hs, tail, by rw [hwords, htail]⟩

/-- What differs from all first words does not open a modifier. -/
theorem opens_words_eq_false {letters : List Char}
    (h : ∀ s ∈ firstWords, opens (letters.take s.toList.length) s.toList = false) (m : Modifier)
    (rest : Text) : opens letters (joined m.words ++ rest) = false := by
  obtain ⟨s, hs, tail, hwords⟩ := m.exists_joined_words_eq
  rw [hwords, List.append_assoc]
  exact opens_append_eq_false (h s hs) _

theorem stops_words {accepts : Char → Bool} (h : ∀ s ∈ firstWords, Stops accepts s.toList)
    (m : Modifier) (rest : Text) : Stops accepts (joined m.words ++ rest) := by
  obtain ⟨s, hs, tail, hwords⟩ := m.exists_joined_words_eq
  have hne : s.toList ≠ [] := (by decide : ∀ s ∈ firstWords, s.toList ≠ []) s hs
  obtain ⟨c, more, hcons⟩ := List.exists_cons_of_ne_nil hne
  have hstops := h s hs
  rw [hcons, stops_cons] at hstops
  rw [hwords, hcons]
  exact stops_of_head hstops

end Modifier

/-- Nothing, or a space and a word that modifiers start with. -/
def StartsModifiers (t : Text) : Prop :=
  t = [] ∨ ∃ s ∈ Modifier.firstWords, ∃ more, t = ' ' :: (s.toList ++ more)

/-- The end of the fragment, arguments or modifiers. -/
def EndsType (rest : Text) : Prop := StartsModifiers rest ∨ ∃ more, rest = '(' :: more

theorem Modifier.startsModifiers_print (m : Modifier) (more : Text) :
    StartsModifiers (' ' :: (m.print ++ more)) := by
  obtain ⟨s, hs, tail, hwords⟩ := m.exists_joined_words_eq
  refine .inr ⟨s, hs, tail ++ (m.operand ++ more), ?_⟩
  rw [print, hwords, List.append_assoc, List.append_assoc]

theorem startsModifiers_printModifiers (modifiers : List Modifier) :
    StartsModifiers (ColumnItem.printModifiers modifiers) := by
  cases modifiers with
  | nil => exact .inl rfl
  | cons m more => exact m.startsModifiers_print (ColumnItem.printModifiers more)

theorem StartsModifiers.stops_trimStart {t : Text} (h : StartsModifiers t) :
    Stops (· == '(') (trimStart t) := by
  rcases h with rfl | ⟨s, hs, more, rfl⟩
  · exact stops_nil _
  · have hword := Modifier.isPhraseWord_of_mem_firstWords hs
    obtain ⟨hne, hchars⟩ := of_isPhraseWord hword
    obtain ⟨c, rest, hcons⟩ := List.exists_cons_of_ne_nil hne
    have hc := hchars c (by rw [hcons]; exact List.mem_cons_self)
    rw [trimStart_cons, if_pos (by decide), (stops_isBlank_of_isPhraseWord hword more).trimStart_eq,
      hcons]
    exact stops_of_head (by simpa using ne_of_isIdentifierChar (d := '(') hc (by decide))

theorem StartsModifiers.endsType_arguments {tail : Text} (h : StartsModifiers tail)
    (arguments : Arguments) : EndsType (arguments.print ++ tail) := by
  cases arguments with
  | none => exact .inl h
  | one n => exact .inr ⟨_, rfl⟩
  | two precision scale => exact .inr ⟨_, rfl⟩

theorem EndsType.stops_isWordChar {rest : Text} (h : EndsType rest) : Stops isWordChar rest := by
  rcases h with (rfl | ⟨s, hs, more, rfl⟩) | ⟨more, rfl⟩
  · exact stops_nil _
  · exact stops_of_head rfl
  · exact stops_of_head rfl

theorem of_mem_longTypes : ∀ words ∈ Column.longTypes, (∀ s ∈ words, isPhraseWord s = true) ∧
    (" ".intercalate words).toList = joined words ∧
    (joined words).reverse.head?.any isWordChar = true ∧
    ∀ s ∈ words.tail.head?, ∀ keyword ∈ Modifier.firstWords,
      opens (s.toList.take keyword.toList.length) keyword.toList = false := by
  decide +kernel

/-- Nothing that follows a type makes it a type of several words. -/
theorem EndsType.first?_phrase_eq_none {β : Type} {k : Way → Option β} {before rest : Text}
    {captures : List Capture} (h : EndsType rest) {s next : String} {more : List String}
    (hwords : s :: next :: more ∈ Column.longTypes) :
    gap.first? ((phrase (next :: more)).first? k) ⟨⟨before, rest⟩, captures⟩ = none := by
  rcases h with (rfl | ⟨keyword, hkeyword, r, rfl⟩) | ⟨r, rfl⟩
  · exact first?_gap_eq_none (stops_nil _)
  · obtain ⟨-, -, -, hnext⟩ := of_mem_longTypes _ hwords
    have hopens : opens next.toList (keyword.toList ++ r) = false :=
      opens_append_eq_false (hnext next rfl keyword hkeyword) r
    have hword := Modifier.isPhraseWord_of_mem_firstWords hkeyword
    rw [first?_gap (stops_isBlank_of_isPhraseWord hword r)]
    cases more with
    | nil => exact first?_word_eq_none hopens
    | cons other more =>
      rw [phrase_cons_cons, first?_seq]
      exact first?_word_eq_none hopens
  · exact first?_gap_eq_none (stops_of_head rfl)

/-! ## Types -/

theorem isPhraseWord_of_mem_longTypes {words : List String} (h : words ∈ Column.longTypes) :
    ∀ s ∈ words, isPhraseWord s = true :=
  (of_mem_longTypes words h).1

theorem isPhraseWord_of_mem_shortTypes {s : String} (h : s ∈ Column.shortTypes) :
    isPhraseWord s = true :=
  (by decide +kernel : ∀ s ∈ Column.shortTypes, isPhraseWord s = true) s h

theorem toList_intercalate {words : List String} (h : words ∈ Column.longTypes) :
    (" ".intercalate words).toList = joined words :=
  (of_mem_longTypes words h).2.1

section

variable {rest : Text}

/-- The types of several words: those that are tried before the right one differ from it. -/
theorem findSome?_longTypes {β : Type} {k : Way → Option β} {words : List String}
    (h : words ∈ Column.longTypes) (hrest : Stops isWordChar rest) {v : β}
    (hk : k ⟨⟨(joined words).reverse, rest⟩, []⟩ = some v) :
    (Column.longTypes.map phrase).findSome?
      (·.first? k ⟨⟨[], joined words ++ rest⟩, []⟩) = some v := by
  have hpairs : Column.longTypes.Pairwise (fun a b => differ a b = true) := by decide +kernel
  have hwords := fun ws (hws : ws ∈ Column.longTypes) => isPhraseWord_of_mem_longTypes hws
  have hne : words ≠ [] := (by decide : ∀ words ∈ Column.longTypes, words ≠ []) words h
  obtain ⟨front, back, hsplit⟩ := List.append_of_mem h
  have hmem : ∀ ws ∈ front, ws ∈ Column.longTypes := by
    intro ws hws
    rw [hsplit]
    exact List.mem_append_left _ hws
  have hnone : (front.map phrase).findSome? (·.first? k ⟨⟨[], joined words ++ rest⟩, []⟩) =
      none := by
    rw [List.findSome?_eq_none_iff]
    intro p hp
    obtain ⟨ws, hws, rfl⟩ := List.mem_map.mp hp
    rw [hsplit, List.pairwise_append] at hpairs
    exact first?_phrase_eq_none_of_differ (hpairs.2.2 ws hws words List.mem_cons_self)
      (hwords ws (hmem ws hws)) (hwords words h) hrest
  rw [hsplit, List.map_append, List.findSome?_append, hnone, Option.none_or, List.map_cons,
    List.findSome?_cons, first?_phrase_joined hne (hwords words h), List.append_nil, hk]

/-- A type of one word is none of several words. -/
theorem EndsType.findSome?_longTypes_eq_none {β : Type} {k : Way → Option β} (hrest : EndsType rest)
    {s : String} (hs : isPhraseWord s = true) :
    (Column.longTypes.map phrase).findSome? (·.first? k ⟨⟨[], s.toList ++ rest⟩, []⟩) = none := by
  have hchars := isWordChar_of_isPhraseWord hs
  have hlong : ∀ words ∈ Column.longTypes, 2 ≤ words.length := by decide
  rw [List.findSome?_eq_none_iff]
  intro p hp
  obtain ⟨words, hwords, rfl⟩ := List.mem_map.mp hp
  match words, hwords, hlong words hwords with
  | first :: next :: more, hwords, _ =>
    have hfirst := isPhraseWord_of_mem_longTypes hwords first List.mem_cons_self
    rw [first?_phrase_cons_cons hfirst hchars hrest.stops_isWordChar]
    split
    · exact hrest.first?_phrase_eq_none hwords
    · rfl

/-- The types of one word: all that match stop at the same place. -/
theorem findSome?_shortTypes {s : String} (h : s ∈ Column.shortTypes)
    (hrest : Stops isWordChar rest) :
    (Column.shortTypes.map word).findSome?
        (·.first? (edge.first? some) ⟨⟨[], s.toList ++ rest⟩, []⟩) =
      some ⟨⟨s.toList.reverse, rest⟩, []⟩ := by
  have hletters : ∀ {s}, s ∈ Column.shortTypes →
      s.toList ≠ [] ∧ ∀ c ∈ s.toList, isIdentifierChar c = true :=
    fun hs => of_isPhraseWord (isPhraseWord_of_mem_shortTypes hs)
  have hchars := isWordChar_of_isPhraseWord (isPhraseWord_of_mem_shortTypes h)
  have hedge : edge.first? some ⟨⟨s.toList.reverse ++ [], rest⟩, []⟩ =
      some ⟨⟨s.toList.reverse ++ [], rest⟩, []⟩ :=
    first?_edge_after (isPhraseWord_of_mem_shortTypes h) hrest
  rw [List.append_nil] at hedge
  have hstop : ∀ other ∈ Column.shortTypes, ∀ w,
      (word other).first? (edge.first? some) ⟨⟨[], s.toList ++ rest⟩, []⟩ = some w →
      w = ⟨⟨s.toList.reverse, rest⟩, []⟩ := by
    intro other hother w hw
    obtain ⟨hne, hother⟩ := hletters hother
    have hstarts := startsWord_of_edge hne hother (by rw [hw]; simp)
    obtain ⟨hlength, -⟩ := sameWord_of_startsWord hother hchars hrest hstarts
    rw [first?_word, if_pos hstarts.1, hlength, List.take_left, List.drop_left, List.append_nil,
      hedge] at hw
    exact (Option.some.inj hw).symm
  have hself : (word s).first? (edge.first? some) ⟨⟨[], s.toList ++ rest⟩, []⟩ =
      some ⟨⟨s.toList.reverse, rest⟩, []⟩ := by
    rw [first?_word_append, List.append_nil, hedge]
  cases hfind : (Column.shortTypes.map word).findSome?
      (·.first? (edge.first? some) ⟨⟨[], s.toList ++ rest⟩, []⟩) with
  | none =>
    rw [List.findSome?_eq_none_iff] at hfind
    rw [hfind (word s) (List.mem_map_of_mem h)] at hself
    cases hself
  | some w =>
    obtain ⟨p, hp, hw⟩ := List.exists_of_findSome?_eq_some hfind
    obtain ⟨other, hother, rfl⟩ := List.mem_map.mp hp
    rw [hstop other hother w hw]

theorem find?_typePattern {type : String} (h : type ∈ typeNames) (hrest : EndsType rest) :
    Column.typePattern.find? (type.toList ++ rest) =
      some ⟨Cursor.first (type.toList ++ rest), ⟨type.toList.reverse, rest⟩, []⟩ := by
  have hfirst : (any (Column.longTypes.map phrase ++ Column.shortTypes.map word)).first?
      (edge.first? some) ⟨⟨[], type.toList ++ rest⟩, []⟩ =
      some ⟨⟨type.toList.reverse, rest⟩, []⟩ := by
    rw [first?_any, List.findSome?_append]
    rcases List.mem_append.mp h with h | h
    · obtain ⟨words, hwords, rfl⟩ := List.mem_map.mp h
      obtain ⟨-, -, hlast, -⟩ := of_mem_longTypes words hwords
      have hedge : edge.first? some ⟨⟨(joined words).reverse, rest⟩, []⟩ =
          some ⟨⟨(joined words).reverse, rest⟩, []⟩ :=
        first?_edge_after_word hlast hrest.stops_isWordChar
      rw [toList_intercalate hwords, findSome?_longTypes hwords hrest.stops_isWordChar hedge]
      rfl
    · rw [hrest.findSome?_longTypes_eq_none (isPhraseWord_of_mem_shortTypes h), Option.none_or,
        findSome?_shortTypes h hrest.stops_isWordChar]
  apply find?_start_of_first? (w := ⟨⟨type.toList.reverse, rest⟩, []⟩)
  rw [first?_all_cons]
  exact hfirst

/-- A word that is no type is not read as one, unless it could start a type of several words. -/
theorem find?_typePattern_eq_none {x : Text} (hx : ∀ c ∈ x, isWordChar c = true)
    (hrest : Stops isWordChar rest)
    (hshort : ∀ s ∈ Column.shortTypes, ¬ SameWord s.toList x)
    (hlong : (∀ words ∈ Column.longTypes, ∀ s ∈ words.head?, ¬ SameWord s.toList x) ∨
      ∃ t, rest = ' ' :: '(' :: t) :
    Column.typePattern.find? (x ++ rest) = none := by
  have hlength : ∀ words ∈ Column.longTypes, 2 ≤ words.length := by decide
  apply find?_start_eq_none
  rw [first?_all, List.foldr_cons, List.foldr_cons, List.foldr_nil, first?_any,
    List.findSome?_eq_none_iff]
  intro p hp
  rcases List.mem_append.mp hp with hp | hp
  · obtain ⟨words, hwords, rfl⟩ := List.mem_map.mp hp
    match words, hwords, hlength words hwords with
    | first :: next :: more, hwords, _ =>
      have hfirst := isPhraseWord_of_mem_longTypes hwords first List.mem_cons_self
      rw [first?_phrase_cons_cons hfirst hx hrest]
      split
      · rename_i hsame
        rcases hlong with hlong | ⟨t, rfl⟩
        · exact absurd hsame (hlong _ hwords first rfl)
        · have hnext := isPhraseWord_of_mem_longTypes hwords next (by simp)
          rw [first?_gap (stops_of_head rfl)]
          exact first?_phrase_eq_none hnext (stops_of_head rfl)
      · rfl
  · obtain ⟨s, hs, rfl⟩ := List.mem_map.mp hp
    obtain ⟨hne, hletters⟩ := of_isPhraseWord (isPhraseWord_of_mem_shortTypes hs)
    cases hfirst : (word s).first? (edge.first? some) ⟨⟨[], x ++ rest⟩, []⟩ with
    | none => rfl
    | some w =>
      have hstarts := startsWord_of_edge hne hletters (by rw [hfirst]; simp)
      exact absurd (sameWord_of_startsWord hletters hx hrest hstarts) (hshort s hs)

end

end Declaration
end SqlAudit
