import SqlAudit.Proofs.Lexical.Statements
import SqlAudit.Proofs.Schema.TypeReading

/-!
Modifiers are read as they are written.  They are looked for in the text with masked literals, where
each pattern is led by a word that stands in its own modifier only.
-/

namespace SqlAudit

open Text Pattern Declaration

namespace Declaration

theorem tidy_cons_space {commas : Bool} {t : Text} (h : Tidy commas t) : Tidy commas (' ' :: t) :=
  .plain (by decide) (fun hc => absurd hc (by decide)) h

theorem tidy_joined {commas : Bool} {words : List String}
    (hwords : ∀ s ∈ words, isPhraseWord s = true) : Tidy commas (joined words) := by
  induction words with
  | nil => exact .nil
  | cons s more ih =>
    have hs : Tidy commas s.toList :=
      Tidy.of_identifierChars (of_isPhraseWord (hwords s List.mem_cons_self)).2
    cases more with
    | nil => rwa [joined_singleton]
    | cons next more =>
      rw [joined_cons_cons]
      exact hs.append (tidy_cons_space (ih fun x hx => hwords x (List.mem_cons_of_mem s hx)))

theorem NameBesides.not_sameWord {words : List String} (x : NameBesides words) {s : String}
    (hs : s ∈ words) : ¬ SameWord s.toList x.text := by
  intro h
  have hsame := Pattern.Identifier.sameLetters_of_sameWord h
  rw [x.besides s hs] at hsame
  cases hsame

namespace Modifier

def phrases : List (List String) :=
  [["NOT", "NULL"], ["UNIQUE"], ["PRIMARY", "KEY"], ["AUTO_INCREMENT"], ["AUTOINCREMENT"],
   ["IDENTITY"], ["DEFAULT"], ["REFERENCES"]]

theorem words_mem_phrases (m : Modifier) : m.words ∈ phrases := by
  cases m with
  | counting spelling => cases spelling <;> decide
  | _ => simp [words, phrases]

theorem isPhraseWord_of_mem_words (m : Modifier) : ∀ s ∈ m.words, isPhraseWord s = true :=
  (by decide : ∀ words ∈ phrases, ∀ s ∈ words, isPhraseWord s = true) _ m.words_mem_phrases

/-! ## Masked modifiers -/

/-- The operand of a modifier with the contents of a literal blanked. -/
def maskedOperand : Modifier → Text
  | .default value => ' ' :: '\x27' :: (blanked value.text ++ ['\x27'])
  | m => m.operand

theorem maskedOperand_references (table : NameBesides modifierWords)
    (column : Option (NameBesides modifierWords)) :
    (references table column).maskedOperand = (references table column).operand := rfl

def masked (m : Modifier) : Text := joined m.words ++ m.maskedOperand

def maskedAll (ms : List Modifier) : Text := ms.flatMap fun m => ' ' :: m.masked

theorem maskedAll_cons (m : Modifier) (ms : List Modifier) :
    maskedAll (m :: ms) = ' ' :: (m.masked ++ maskedAll ms) := rfl

theorem maskedAll_append (front back : List Modifier) :
    maskedAll (front ++ back) = maskedAll front ++ maskedAll back := List.flatMap_append

theorem printModifiers_cons (m : Modifier) (ms : List Modifier) :
    ColumnItem.printModifiers (m :: ms) = ' ' :: (m.print ++ ColumnItem.printModifiers ms) := rfl

theorem printModifiers_append (front back : List Modifier) :
    ColumnItem.printModifiers (front ++ back) =
      ColumnItem.printModifiers front ++ ColumnItem.printModifiers back := List.flatMap_append

theorem tidy_operand (m : Modifier) : Tidy false m.operand := by
  cases m with
  | default value =>
    have hliteral : Tidy false (quoted value.text ++ []) := .literal value.text .nil
    rw [List.append_nil] at hliteral
    exact tidy_cons_space hliteral
  | references table column =>
    cases column with
    | none => exact tidy_cons_space table.tidy
    | some column =>
      have hparen : Tidy false ('(' :: (column.text ++ [')'])) := .paren column.tidy .nil
      exact tidy_cons_space (table.tidy.append hparen)
  | _ => exact .nil

theorem tidy_printModifiers (ms : List Modifier) : Tidy false (ColumnItem.printModifiers ms) := by
  induction ms with
  | nil => exact .nil
  | cons m ms ih =>
    have hprint : Tidy false m.print :=
      (tidy_joined m.isPhraseWord_of_mem_words).append m.tidy_operand
    exact tidy_cons_space (hprint.append ih)

theorem maskFrom_operand (m : Modifier) (t : Text) :
    maskFrom .standard .outside (m.operand ++ t) =
      m.maskedOperand ++ maskFrom .standard .outside t := by
  have hidentifier : ∀ x : Identifier, '\x27' ∉ x.text := fun x => x.not_mem (by decide)
  cases m with
  | default value =>
    rw [operand, List.cons_append, maskFrom, if_neg (by decide), maskFrom_quoted]
    simp [maskedOperand]
  | references table column =>
    apply maskFrom_append_of_not_mem
    cases column with
    | none => simp [operand, hidentifier table.toIdentifier]
    | some column =>
      simp [operand, hidentifier table.toIdentifier, hidentifier column.toIdentifier]
  | _ => rfl

theorem quote_not_mem_joined_words (m : Modifier) : '\x27' ∉ joined m.words :=
  (by decide : ∀ words ∈ phrases, '\x27' ∉ joined words) _ m.words_mem_phrases

theorem maskFrom_printModifiers (ms : List Modifier) :
    maskFrom .standard .outside (ColumnItem.printModifiers ms) = maskedAll ms := by
  induction ms with
  | nil => rfl
  | cons m ms ih =>
    rw [printModifiers_cons, maskFrom, if_neg (by decide), print, List.append_assoc,
      maskFrom_append_of_not_mem m.quote_not_mem_joined_words, maskFrom_operand, ih, maskedAll_cons,
      masked, List.append_assoc]

theorem mask_printModifiers (ms : List Modifier) :
    mask (ColumnItem.printModifiers ms) = maskedAll ms := by
  rw [mask, (tidy_printModifiers ms).escapes_eq, maskFrom_printModifiers]

theorem stops_isWordChar_maskedAll (ms : List Modifier) : Stops isWordChar (maskedAll ms) := by
  cases ms with
  | nil => exact stops_nil _
  | cons m ms => exact stops_of_head rfl

/-! ## Searching modifiers -/

theorem not_isWordChar_of_mem_blanked {t : Text} {c : Char} (h : c ∈ blanked t) :
    isWordChar c = false := by
  rw [blanked, List.mem_flatMap] at h
  obtain ⟨d, -, hc⟩ := h
  split at hc
  · rename_i hd
    rw [hd] at hc
    simp only [List.mem_cons, List.not_mem_nil, or_false, or_self] at hc
    rw [hc]
    decide
  · rw [List.eq_of_mem_replicate hc]
    decide

section

variable {p : Pattern} {heads : List String} (hled : p.LedByWords heads)
  (hheads : ∀ s ∈ heads, s ∈ modifierWords)

include hheads in
theorem isPhraseWord_of_mem_heads : ∀ s ∈ heads, isPhraseWord s = true := by
  intro s hs
  exact (by decide : ∀ s ∈ modifierWords, isPhraseWord s = true) s (hheads s hs)

include hled hheads

theorem skips_maskedOperand (m : Modifier) {before rest : Text} (hrest : Stops isWordChar rest) :
    p.Skips before m.maskedOperand rest := by
  have hwords := isPhraseWord_of_mem_heads hheads
  have hname : ∀ (x : NameBesides modifierWords) {b t : Text}, Stops isWordChar (t ++ rest) →
      p.Skips (x.text.reverse ++ b) t rest → p.Skips b (x.text ++ t) rest := by
    intro x b t hstops h
    exact skips_word_append hled hwords (fun c hc => x.isWordChar_of_mem hc)
      (fun s hs => x.not_sameWord (hheads s hs)) hstops h
  cases m with
  | default value =>
    have hseparators : ∀ c ∈ ' ' :: '\x27' :: (blanked value.text ++ ['\x27']),
        isWordChar c = false := by
      intro c hc
      simp only [List.mem_cons, List.mem_append, List.not_mem_nil, or_false] at hc
      rcases hc with rfl | rfl | hc | rfl
      · decide
      · decide
      · exact not_isWordChar_of_mem_blanked hc
      · decide
    rw [maskedOperand, ← List.append_nil (' ' :: _)]
    exact skips_separators_append hled hwords hseparators trivial
  | references table column =>
    cases column with
    | none =>
      refine skips_cons hled hwords rfl ?_
      rw [← List.append_nil table.text]
      exact hname table hrest trivial
    | some column =>
      refine skips_cons hled hwords rfl ?_
      refine hname table (stops_of_head rfl) ?_
      refine skips_cons hled hwords rfl ?_
      refine hname column (stops_of_head rfl) ?_
      exact skips_cons hled hwords rfl trivial
  | _ => trivial

/-- A search passes over modifiers that have none of the words it looks for. -/
theorem skips_maskedAll {ms : List Modifier}
    (hother : ∀ m ∈ ms, ∀ x ∈ m.words, ∀ s ∈ heads, ¬ SameWord s.toList x.toList)
    {rest : Text} (hrest : Stops isWordChar rest) (before : Text) :
    p.Skips before (maskedAll ms) rest := by
  have hwords := isPhraseWord_of_mem_heads hheads
  induction ms generalizing before with
  | nil => trivial
  | cons m ms ih =>
    have hms := ih fun other hmem => hother other (List.mem_cons_of_mem m hmem)
    have hstops : Stops isWordChar (maskedAll ms ++ rest) := by
      cases ms with
      | nil => exact hrest
      | cons next ms => exact stops_of_head rfl
    have hoperand : Stops isWordChar (m.maskedOperand ++ maskedAll ms ++ rest) := by
      rw [List.append_assoc]
      cases m with
      | default value => exact stops_of_head rfl
      | references table column =>
        cases column <;> exact stops_of_head rfl
      | _ => exact hstops
    rw [maskedAll_cons, masked, List.append_assoc]
    refine skips_cons hled hwords rfl ?_
    refine skips_joined_append hled hwords m.isPhraseWord_of_mem_words
      (hother m List.mem_cons_self) hoperand ?_
    rw [skips_append]
    exact ⟨skips_maskedOperand hled hheads m hstops, hms _⟩

theorem find?_maskedAll_eq_none {ms : List Modifier}
    (hother : ∀ m ∈ ms, ∀ x ∈ m.words, ∀ s ∈ heads, ¬ SameWord s.toList x.toList) :
    p.find? (maskedAll ms) = none := by
  have hwords := isPhraseWord_of_mem_heads hheads
  have hskips := skips_maskedAll hled hheads hother (stops_nil isWordChar) []
  have hfind := findBetween?_of_skips hskips
  rw [List.append_nil] at hfind
  rw [find?, findFrom?, Cursor.first, hfind, findBetween?]
  exact matchAt?_eq_none_of_separator hled hwords (stops_nil _)

/-- The first modifier that matches is found. -/
theorem find?_maskedAll {front back : List Modifier} {m : Modifier} {found : Match}
    (hother : ∀ m ∈ front, ∀ x ∈ m.words, ∀ s ∈ heads, ¬ SameWord s.toList x.toList)
    (hmatch : p.matchAt? ⟨' ' :: (maskedAll front).reverse, m.masked ++ maskedAll back⟩ =
      some found) :
    p.find? (maskedAll (front ++ m :: back)) = some found := by
  have hwords := isPhraseWord_of_mem_heads hheads
  have hspace : Stops isWordChar (' ' :: (m.masked ++ maskedAll back)) :=
    stops_of_head rfl
  rw [maskedAll_append, maskedAll_cons, find?, findFrom?, Cursor.first,
    findBetween?_of_skips (skips_maskedAll hled hheads hother hspace []), findBetween?,
    matchAt?_eq_none_of_separator hled hwords hspace, List.append_nil]
  exact findBetween?_of_matchAt? hmatch

end

/-! ## Flags -/

/-- A pattern occurs among modifiers exactly if one of them starts with a phrase of its own. -/
theorem occursIn_maskedAll {p : Pattern} {heads : List String} (hled : p.LedByWords heads)
    (hheads : ∀ s ∈ heads, s ∈ modifierWords) {target : Modifier → Bool}
    (hother : ∀ m, target m = false → ∀ x ∈ m.words, ∀ s ∈ heads, ¬ SameWord s.toList x.toList)
    (hmatch : ∀ m, target m = true → ∀ before back,
      p.matchAt? ⟨' ' :: before, m.masked ++ maskedAll back⟩ ≠ none) (ms : List Modifier) :
    p.occursIn (maskedAll ms) = ms.any target := by
  rw [occursIn]
  cases hfind : ms.find? target with
  | none =>
    rw [List.find?_eq_none] at hfind
    have hfalse : ∀ m ∈ ms, target m = false := fun m hm => by simpa using hfind m hm
    rw [find?_maskedAll_eq_none hled hheads fun m hm => hother m (hfalse m hm)]
    rw [List.any_eq_false.mpr hfind]
    rfl
  | some m =>
    obtain ⟨htarget, front, back, rfl, hfront⟩ := List.find?_eq_some_iff_append.mp hfind
    obtain ⟨found, hfound⟩ :=
      Option.ne_none_iff_exists'.mp (hmatch m htarget (maskedAll front).reverse back)
    rw [find?_maskedAll hled hheads (fun x hx => hother x (by simpa using hfront x hx)) hfound]
    simp [htarget]

section

variable {before rest : Text} (hrest : Stops isWordChar rest)

include hrest

theorem matchAt?_twoWords {s next : String} (hs : isPhraseWord s = true)
    (hnext : isPhraseWord next = true) :
    (all [edge, word s, gap, word next, edge]).matchAt? ⟨' ' :: before, joined [s, next] ++ rest⟩ ≠
      none := by
  have hblank : Stops isBlank (next.toList ++ rest) := stops_isBlank_of_isPhraseWord hnext rest
  rw [matchAt?_eq_map_first?, joined_cons_cons, joined_singleton, List.append_assoc,
    List.cons_append, first?_all_cons, first?_edge_before hs (stops_of_head rfl),
    first?_all_cons, first?_word_append, first?_all_cons, first?_gap hblank, first?_all_cons,
    first?_word_append, first?_all_cons, first?_edge_after hnext hrest]
  simp

theorem matchAt?_oneWordOf {heads : List String} {s : String} (hmem : s ∈ heads)
    (hs : isPhraseWord s = true) :
    (all [edge, oneWordOf heads, edge]).matchAt? ⟨' ' :: before, s.toList ++ rest⟩ ≠ none := by
  rw [matchAt?_eq_map_first?, first?_all_cons,
    first?_edge_before hs (stops_of_head rfl), first?_all_cons, oneWordOf,
    first?_any, ne_eq, Option.map_eq_none_iff, List.findSome?_eq_none_iff]
  intro hnone
  have hword := hnone (word s) (List.mem_map_of_mem hmem)
  rw [first?_word_append, first?_all_cons, first?_edge_after hs hrest] at hword
  simp at hword

end

/-- The words of one modifier are not those of another. -/
theorem not_sameWord_of_not_mem (targets : List (List String)) {heads : List String}
    (h : ∀ words ∈ phrases, words ∉ targets → ∀ x ∈ words, ∀ s ∈ heads,
      ¬ SameWord s.toList x.toList) {m : Modifier} (hm : m.words ∉ targets) :
    ∀ x ∈ m.words, ∀ s ∈ heads, ¬ SameWord s.toList x.toList :=
  h m.words m.words_mem_phrases hm

theorem occursIn_notNullPattern (ms : List Modifier) :
    Column.notNullPattern.occursIn (maskedAll ms) = ms.any isNotNull := by
  refine occursIn_maskedAll (ledByWords_gap "NOT" _) (by decide) ?_ ?_ ms
  · intro m hm
    apply not_sameWord_of_not_mem [["NOT", "NULL"]] (by decide)
    cases m <;> simp_all [words, isNotNull]
  · intro m hm before back
    cases m with
    | notNull => exact matchAt?_twoWords (stops_isWordChar_maskedAll back) rfl rfl
    | _ => cases hm

theorem occursIn_primaryKeyPattern (ms : List Modifier) :
    Column.primaryKeyPattern.occursIn (maskedAll ms) = ms.any isPrimaryKey := by
  refine occursIn_maskedAll (ledByWords_gap "PRIMARY" _) (by decide) ?_ ?_ ms
  · intro m hm
    apply not_sameWord_of_not_mem [["PRIMARY", "KEY"]] (by decide)
    cases m <;> simp_all [words, isPrimaryKey]
  · intro m hm before back
    cases m with
    | primaryKey => exact matchAt?_twoWords (stops_isWordChar_maskedAll back) rfl rfl
    | _ => cases hm

theorem occursIn_uniquePattern (ms : List Modifier) :
    Column.uniquePattern.occursIn (maskedAll ms) = ms.any isUnique := by
  have hpattern : Column.uniquePattern = all [edge, oneWordOf ["UNIQUE"], edge] := rfl
  rw [hpattern]
  refine occursIn_maskedAll (ledByWords_edge (by decide) []) (by decide) ?_ ?_ ms
  · intro m hm
    apply not_sameWord_of_not_mem [["UNIQUE"]] (by decide)
    cases m with
    | unique => cases hm
    | counting spelling => cases spelling <;> decide
    | _ => simp [words]
  · intro m hm before back
    cases m with
    | unique =>
      have hmasked : unique.masked = "UNIQUE".toList := rfl
      rw [hmasked]
      exact matchAt?_oneWordOf (stops_isWordChar_maskedAll back)
        (List.mem_singleton_self "UNIQUE") rfl
    | _ => cases hm

theorem occursIn_autoIncrementPattern (ms : List Modifier) :
    Column.autoIncrementPattern.occursIn (maskedAll ms) = ms.any isCounting := by
  refine occursIn_maskedAll (ledByWords_edge (by decide) []) (by decide) ?_ ?_ ms
  · intro m hm
    apply not_sameWord_of_not_mem [["AUTO_INCREMENT"], ["AUTOINCREMENT"], ["IDENTITY"]] (by decide)
    cases m <;> simp_all [words, isCounting]
  · intro m hm before back
    cases m with
    | counting spelling =>
      have hmem : spelling.word ∈ ["AUTO_INCREMENT", "AUTOINCREMENT", "IDENTITY"] := by
        cases spelling <;> decide
      have hmasked : (counting spelling).masked = spelling.word.toList := by
        rw [masked, words, joined_singleton]
        exact List.append_nil _
      rw [hmasked]
      exact matchAt?_oneWordOf (stops_isWordChar_maskedAll back) hmem
        ((counting spelling).isPhraseWord_of_mem_words _ (List.mem_singleton_self _))
    | _ => cases hm

/-! ## Defaults -/

/-- A literal is read up to the quote that closes it. -/
theorem literal_doubled {rest : Text} (hrest : Stops (· == '\x27') rest) (t : Text) :
    Column.literal '\x27' (doubled t ++ '\x27' :: rest) = t := by
  induction t with
  | nil =>
    cases rest with
    | nil => rfl
    | cons c rest =>
      rw [stops_cons, beq_eq_false_iff_ne] at hrest
      rw [doubled, List.flatMap_nil, List.nil_append, Column.literal, if_pos rfl, if_neg hrest]
  | cons c t ih =>
    rw [doubled_cons]
    by_cases hc : c = '\x27'
    · rw [if_pos hc, hc, List.cons_append, List.cons_append, Column.literal, if_pos rfl, if_pos rfl,
        ih]
    · rw [if_neg hc, List.cons_append]
      cases hcons : doubled t ++ '\x27' :: rest with
      | nil => simp at hcons
      | cons d more => rw [Column.literal, if_neg hc, ← hcons, ih]

theorem defaultValue?_quoted {rest : Text} (hrest : Stops (· == '\x27') rest) (t : Text) :
    Column.defaultValue? (quoted t ++ rest) = some t := by
  have hstart : trimStart (quoted t ++ rest) = '\x27' :: (doubled t ++ '\x27' :: rest) := by
    rw [quoted, List.cons_append, trimStart_eq_self (by decide), List.append_assoc]
    rfl
  rw [Column.defaultValue?, hstart]
  simp only [true_or, if_true, literal_doubled hrest]

theorem stops_printModifiers {accepts : Char → Bool} (h : accepts ' ' = false)
    (ms : List Modifier) : Stops accepts (ColumnItem.printModifiers ms) := by
  cases ms with
  | nil => exact stops_nil _
  | cons m ms => exact stops_of_head h

/-- The text before a modifier has as many bytes as that before its masked form. -/
theorem size_maskedAll (ms : List Modifier) :
    size (maskedAll ms) = size (ColumnItem.printModifiers ms) := by
  rw [← mask_printModifiers, size_mask]

theorem matchAt?_default (value : DefaultValue) (before : Text) (back : List Modifier) :
    ∃ found, Column.defaultPattern.matchAt?
        ⟨' ' :: before, (default value).masked ++ maskedAll back⟩ = some found ∧
      found.stop.before = ' ' :: ("DEFAULT".toList.reverse ++ ' ' :: before) := by
  have hfirst : Column.defaultPattern.first? some
      ⟨⟨' ' :: before, (default value).masked ++ maskedAll back⟩, []⟩ =
      some ⟨⟨' ' :: ("DEFAULT".toList.reverse ++ ' ' :: before),
        '\x27' :: (blanked value.text ++ '\x27' :: maskedAll back)⟩, []⟩ := by
    rw [masked, words, joined_singleton, maskedOperand, List.append_assoc, List.cons_append,
      List.cons_append, List.append_assoc, Column.defaultPattern, first?_all_cons,
      first?_edge_before rfl (stops_of_head rfl), first?_all_cons,
      first?_word_append, first?_all_cons, first?_gap (stops_of_head rfl)]
    rfl
  exact ⟨_, matchAt?_of_first? hfirst, rfl⟩

section

variable {front back : List Modifier} (hfront : ∀ m ∈ front, m.default? = none)

include hfront

theorem not_default_of_default? :
    ∀ m ∈ front, ∀ x ∈ m.words, ∀ s ∈ ["DEFAULT"], ¬ SameWord s.toList x.toList := by
  intro m hm
  have hdefault := hfront m hm
  apply not_sameWord_of_not_mem [["DEFAULT"]] (by decide)
  cases m with
  | default value => cases hdefault
  | counting spelling => cases spelling <;> decide
  | _ => simp [words]

theorem find?_defaultPattern_eq_none : Column.defaultPattern.find? (maskedAll front) = none :=
  find?_maskedAll_eq_none (ledByWords_gap "DEFAULT" []) (by decide) (not_default_of_default? hfront)

/-- The value of the first default is what stands at its place in the text before masking. -/
theorem find?_defaultPattern_append (value : DefaultValue) {before rest : Text}
    (hbefore : size before = size (maskedAll front)) (hrest : Stops (· == '\x27') rest)
    (literal : Text) :
    ((Column.defaultPattern.find? (maskedAll (front ++ default value :: back))).bind fun m =>
      (Column.defaultValue? (dropBytes (before ++ ' ' :: ("DEFAULT".toList ++ [' ']) ++
        (quoted literal ++ rest)) m.stop.offset)).map String.ofList) =
      some (String.ofList literal) := by
  obtain ⟨found, hmatch, hstop⟩ := matchAt?_default value (maskedAll front).reverse back
  have hoffset : found.stop.offset = size (before ++ ' ' :: ("DEFAULT".toList ++ [' '])) := by
    rw [Cursor.offset, hstop, size_append, hbefore, size_cons, size_append, size_cons,
      size_reverse, size_reverse, size_cons, size_append]
    simp only [size_cons, size_nil]
    omega
  have hfound : Column.defaultPattern.find? (maskedAll (front ++ default value :: back)) =
      some found :=
    find?_maskedAll (ledByWords_gap "DEFAULT" []) (by decide) (not_default_of_default? hfront) hmatch
  rw [hfound, Option.bind_some, hoffset, dropBytes_append, defaultValue?_quoted hrest]
  rfl

end

theorem find?_defaultPattern (ms : List Modifier) :
    ((Column.defaultPattern.find? (maskedAll ms)).bind fun m =>
      (Column.defaultValue? ((ColumnItem.printModifiers ms).dropBytes m.stop.offset)).map
        String.ofList) = ms.findSome? default? := by
  cases hfind : ms.findSome? default? with
  | none =>
    rw [find?_defaultPattern_eq_none (List.findSome?_eq_none_iff.mp hfind)]
    rfl
  | some literal =>
    obtain ⟨front, m, back, rfl, hm, hfront⟩ := List.findSome?_eq_some_iff.mp hfind
    cases m with
    | default value =>
      cases hm
      have hprint : ColumnItem.printModifiers (front ++ default value :: back) =
          ColumnItem.printModifiers front ++ ' ' :: ("DEFAULT".toList ++ [' ']) ++
            (quoted value.text ++ ColumnItem.printModifiers back) := by
        rw [printModifiers_append, printModifiers_cons, print, words, joined_singleton, operand]
        simp
      rw [hprint]
      exact find?_defaultPattern_append hfront value (size_maskedAll front).symm
        (stops_printModifiers (by decide) back) value.text
    | _ => cases hm

/-! ## References -/

/-- The column of a reference, if it has one. -/
def referredColumn : Pattern :=
  all [sign '(', space, capture .column (few (· != ')')), space, sign ')']

/-- No column is read from the modifiers after a reference. -/
theorem exists_first?_no_column (back : List Modifier) (before : Text) (captures : List Capture) :
    ∃ c, (all [space, opt referredColumn]).first? some ⟨⟨before, maskedAll back⟩, captures⟩ =
      some ⟨c, captures⟩ := by
  have hnone : ∀ (t b : Text), Stops (· == '(') t →
      (all [opt referredColumn]).first? some ⟨⟨b, t⟩, captures⟩ = some ⟨⟨b, t⟩, captures⟩ := by
    intro t b ht
    rw [first?_all_cons, first?_opt, referredColumn, first?_all_cons, first?_sign_eq_none ht]
    rfl
  rw [first?_all_cons]
  cases back with
  | nil =>
    refine ⟨⟨before, []⟩, ?_⟩
    rw [maskedAll, List.flatMap_nil, first?_space_of_stops (stops_nil _), hnone _ _ (stops_nil _)]
  | cons m back =>
    rw [maskedAll_cons, masked, List.append_assoc]
    exact ⟨_, first?_space_of_some (m.stops_words (by decide) _)
      (hnone _ _ (m.stops_words (by decide) _))⟩

/-- Inside the name neither a blank nor the closing parenthesis can be read. -/
theorem first?_space_sign_of_mem (x : Identifier) {d : Char} (hd : d ∈ x.text)
    {cursor : Cursor} (hhead : cursor.after.head? = some d) (captures : List Capture)
    (k : Way → Option Way) : space.first? ((sign ')').first? k) ⟨cursor, captures⟩ = none := by
  obtain ⟨before, after⟩ := cursor
  have hstops : ∀ accepts : Char → Bool, accepts d = false → Stops accepts after := by
    intro accepts hrejects c hc
    rw [hhead] at hc
    cases hc
    exact hrejects
  have hclose : d ≠ ')' := ne_of_isIdentifierChar (x.isIdentifierChar_of_mem hd) (by decide)
  rw [first?_space_of_stops (hstops _ (x.isBlank_of_mem hd)),
    first?_sign_eq_none (hstops _ (by simpa using hclose))]

/-- The way after a column in parentheses. -/
def wayAfterColumn (x : Identifier) (rest before : Text) (captures : List Capture) : Way :=
  ⟨⟨')' :: (x.text.reverse ++ '(' :: before), rest⟩,
    ⟨.column, ⟨'(' :: before, x.text ++ ')' :: rest⟩,
      ⟨x.text.reverse ++ '(' :: before, ')' :: rest⟩⟩ :: captures⟩

theorem first?_closedName (x : Identifier) (rest before : Text) (captures : List Capture)
    (k : Way → Option Way) :
    (capture .column (few (· != ')'))).first? (space.first? ((sign ')').first? k))
        ⟨⟨'(' :: before, x.text ++ ')' :: rest⟩, captures⟩ =
      k (wayAfterColumn x rest before captures) := by
  have hnot : ∀ c ∈ x.text, (c != ')') = true := by
    intro c hc
    simpa using ne_of_isIdentifierChar (d := ')') (x.isIdentifierChar_of_mem hc) (by decide)
  have hend : Stops (· != ')') (')' :: rest) := stops_of_head rfl
  rw [first?_capture]
  refine (first?_run_of_blocked true hnot hend ?_).trans ?_
  · exact fun w d hd hhead => first?_space_sign_of_mem x hd hhead _ k
  rw [first?_space_of_stops (stops_of_head rfl), first?_sign]
  rfl

theorem first?_referredColumn (x : Identifier) (rest before : Text) (captures : List Capture) :
    referredColumn.first? some ⟨⟨before, '(' :: (x.text ++ ')' :: rest)⟩, captures⟩ =
      some (wayAfterColumn x rest before captures) := by
  rw [referredColumn, first?_all]
  simp only [List.foldr_cons, List.foldr_nil]
  rw [first?_sign, first?_space_of_stops (x.stops_isBlank _), first?_closedName]

theorem first?_column (x : Identifier) (rest before : Text) (captures : List Capture) :
    (all [space, opt referredColumn]).first? some
        ⟨⟨before, '(' :: (x.text ++ ')' :: rest)⟩, captures⟩ =
      some (wayAfterColumn x rest before captures) := by
  have hopen : Stops isBlank ('(' :: (x.text ++ ')' :: rest)) := stops_of_head rfl
  rw [first?_all]
  simp only [List.foldr_cons, List.foldr_nil]
  rw [first?_space_of_stops hopen, first?_opt, first?_referredColumn]
  rfl

theorem matchAt?_references (table : NameBesides modifierWords)
    (column : Option (NameBesides modifierWords)) (before : Text) (back : List Modifier) :
    ∃ found, Column.referencesPattern.matchAt?
        ⟨' ' :: before, (references table column).masked ++ maskedAll back⟩ = some found ∧
      found.textOf .table = table.text ∧ found.textOf? .column = column.map (·.text) := by
  have hread : ∀ {rest : Text} {w : Way}, Stops isNameChar rest → Stops (· == '.') rest →
      (all [space, opt referredColumn]).first? some
        ⟨⟨table.text.reverse ++ ' ' :: ("REFERENCES".toList.reverse ++ ' ' :: before), rest⟩,
          [⟨.table, ⟨' ' :: ("REFERENCES".toList.reverse ++ ' ' :: before), table.text ++ rest⟩,
            ⟨table.text.reverse ++ ' ' :: ("REFERENCES".toList.reverse ++ ' ' :: before), rest⟩⟩]⟩ =
        some w →
      Column.referencesPattern.first? some
        ⟨⟨' ' :: before, "REFERENCES".toList ++ ' ' :: (table.text ++ rest)⟩, []⟩ = some w := by
    intro rest w hname hdot hrest
    rw [Column.referencesPattern, first?_all_cons,
      first?_edge_before rfl (stops_of_head rfl), first?_all_cons,
      first?_word_append, first?_all_cons, first?_gap (table.stops_isBlank rest), first?_all_cons,
      first?_capture]
    exact table.first?_dottedName hname hdot hrest
  cases column with
  | none =>
    have htext : (references table none).masked ++ maskedAll back =
        "REFERENCES".toList ++ ' ' :: (table.text ++ maskedAll back) := by
      rw [masked, words, joined_singleton, maskedOperand_references, operand,
        List.append_assoc, List.cons_append]
    have hstops : ∀ accepts : Char → Bool, accepts ' ' = false →
        Stops accepts (maskedAll back) := by
      intro accepts h
      cases back with
      | nil => exact stops_nil _
      | cons m back => exact stops_of_head h
    obtain ⟨c, hc⟩ := exists_first?_no_column back _ _
    rw [htext]
    refine ⟨_, matchAt?_of_first? (hread (hstops _ (by decide)) (hstops _ (by decide)) hc), ?_, rfl⟩
    exact Cursor.upTo_append _ _ _ _
  | some column =>
    have htext : (references table (some column)).masked ++ maskedAll back =
        "REFERENCES".toList ++ ' ' ::
          (table.text ++ '(' :: (column.text ++ ')' :: maskedAll back)) := by
      rw [masked, words, joined_singleton, maskedOperand_references, operand]
      simp
    rw [htext]
    refine ⟨_, matchAt?_of_first? (hread (stops_of_head rfl)
      (stops_of_head rfl) (first?_column column.toIdentifier _ _ _)), ?_, ?_⟩
    · exact Cursor.upTo_append _ _ _ _
    · exact congrArg some (Cursor.upTo_append _ column.text _ _)

theorem find?_referencesPattern (ms : List Modifier) :
    ((Column.referencesPattern.find? (maskedAll ms)).map fun m =>
      ({ table := bareName (m.textOf .table)
         column := ((m.textOf? .column).map bareName).filter (!·.isEmpty) } : Reference)) =
      ms.findSome? reference? := by
  have hother : ∀ m : Modifier, m.reference? = none → ∀ x ∈ m.words, ∀ s ∈ ["REFERENCES"],
      ¬ SameWord s.toList x.toList := by
    intro m hm
    apply not_sameWord_of_not_mem [["REFERENCES"]] (by decide)
    cases m with
    | references table column => cases hm
    | counting spelling => cases spelling <;> decide
    | _ => simp [words]
  have hled : Column.referencesPattern.LedByWords ["REFERENCES"] := ledByWords_gap "REFERENCES" _
  cases hfind : ms.findSome? reference? with
  | none =>
    rw [List.findSome?_eq_none_iff] at hfind
    rw [find?_maskedAll_eq_none hled (by decide) fun m hm => hother m (hfind m hm)]
    rfl
  | some reference =>
    obtain ⟨front, m, back, rfl, hm, hfront⟩ := List.findSome?_eq_some_iff.mp hfind
    cases m with
    | references table column =>
      cases hm
      obtain ⟨found, hmatch, htable, hcolumn⟩ :=
        matchAt?_references table column (maskedAll front).reverse back
      rw [find?_maskedAll hled (by decide) (fun x hx => hother x (hfront x hx)) hmatch,
        Option.map_some, htable, hcolumn, table.bareName_text]
      cases column with
      | none => rfl
      | some column =>
        have hne : (!column.name.isEmpty) = true := by simpa using column.name_ne_empty
        simp only [Option.map_some, column.bareName_text, Option.filter_some, hne, if_true]
    | _ => cases hm

/-! ## All modifiers -/

theorem withModifiers_print (column : Column) (ms : List Modifier) :
    column.withModifiers (ColumnItem.printModifiers ms) =
      { column with
        nullable := column.nullable && !ms.any fun m => m.isNotNull || m.isPrimaryKey
        isPrimaryKey := ms.any isPrimaryKey
        isUnique := ms.any isUnique
        isAutoIncrement := column.isAutoIncrement || ms.any isCounting
        default := ms.findSome? default?
        reference := ms.findSome? reference? } := by
  have hnullable : (ms.any fun m => m.isNotNull || m.isPrimaryKey) =
      (ms.any isNotNull || ms.any isPrimaryKey) := by
    induction ms with
    | nil => rfl
    | cons m ms ih =>
      rw [List.any_cons, List.any_cons, List.any_cons, ih]
      cases m.isNotNull <;> cases m.isPrimaryKey <;> simp
  rw [Column.withModifiers, mask_printModifiers]
  simp only [occursIn_notNullPattern, occursIn_primaryKeyPattern, occursIn_uniquePattern,
    occursIn_autoIncrementPattern, find?_defaultPattern, find?_referencesPattern, hnullable,
    Bool.not_or, Bool.and_assoc]

end Modifier
end Declaration
end SqlAudit
