import SqlAudit.Proofs.Lexical.Lexemes
import SqlAudit.Proofs.Review.LineReports
import SqlAudit.Proofs.Schema.PlainName

/-!
Deletions without a condition.  A deletion that ends right after the name of its table is reported
unless the word `WHERE` stands in the code of its line.  The word need not belong to the deletion:
one in another statement of the line acquits it as well, while one in a comment or a literal does
not.
-/

namespace SqlAudit

open Text Pattern

/-! ## Whole words in a text -/

namespace Text

/-- A whole word, in any case, stands in a text. -/
def HasWord (t : Text) (word : String) : Prop :=
  ∃ front back, t = front ++ back ∧ Stops isWordChar front.reverse ∧ StartsWord word.toList back

end Text

namespace Pattern

theorem isSome_findBetween?_iff (p : Pattern) (before t : Text) :
    (p.findBetween? before t).isSome = true ↔
      ∃ front back, t = front ++ back ∧
        (p.matchAt? ⟨front.reverse ++ before, back⟩).isSome = true := by
  induction t generalizing before with
  | nil =>
    rw [findBetween?]
    constructor
    · intro h
      exact ⟨[], [], rfl, h⟩
    · rintro ⟨front, back, hnil, h⟩
      obtain ⟨rfl, rfl⟩ := List.append_eq_nil_iff.mp hnil.symm
      exact h
  | cons c rest ih =>
    rw [findBetween?]
    cases hmatch : p.matchAt? ⟨before, c :: rest⟩ with
    | some m =>
      refine iff_of_true rfl ⟨[], c :: rest, rfl, ?_⟩
      show (p.matchAt? ⟨before, c :: rest⟩).isSome = true
      rw [hmatch]
      rfl
    | none =>
      show (p.findBetween? (c :: before) rest).isSome = true ↔ _
      rw [ih]
      constructor
      · rintro ⟨front, back, rfl, h⟩
        exact ⟨c :: front, back, rfl, by simpa using h⟩
      · rintro ⟨front, back, htext, h⟩
        cases front with
        | nil =>
          rw [List.nil_append] at htext
          subst htext
          rw [List.reverse_nil, List.nil_append, hmatch] at h
          cases h
        | cons d front =>
          obtain ⟨rfl, rfl⟩ := List.cons.inj htext
          exact ⟨front, back, rfl, by simpa using h⟩

theorem occursIn_iff (p : Pattern) (t : Text) :
    p.occursIn t = true ↔
      ∃ front back, t = front ++ back ∧ (p.matchAt? ⟨front.reverse, back⟩).isSome = true := by
  show (p.findBetween? [] t).isSome = true ↔ _
  simp only [isSome_findBetween?_iff, List.append_nil]

variable {s : String} (hs : isPhraseWord s = true)

include hs

theorem isSome_matchAt?_keyword_iff {before t : Text} :
    ((keyword s).matchAt? ⟨before, t⟩).isSome = true ↔
      Stops isWordChar before ∧ StartsWord s.toList t := by
  obtain ⟨hne, hletters⟩ := of_isPhraseWord hs
  rw [matchAt?_eq_map_first?, Option.isSome_map, keyword, first?_all_cons, first?_edge,
    first?_all_cons, first?_word, first?_all_cons, first?_edge, first?_all_nil]
  by_cases hopens : opens s.toList t = true
  · have hbefore := @atEdge_iff_of_opens before t _ hne hletters hopens
    have hafter := atEdge_drop_iff_of_opens hne hletters hopens before
    rw [if_pos hopens, StartsWord, ← hbefore, ← hafter]
    by_cases hedge : Cursor.atEdge ⟨before, t⟩ = true
    · simp [hedge, hopens]
    · simp [hedge]
  · simp [hopens, StartsWord]

theorem occursIn_keyword_iff (t : Text) : (keyword s).occursIn t = true ↔ t.HasWord s := by
  simp only [occursIn_iff, isSome_matchAt?_keyword_iff hs]
  rfl

end Pattern

/-! ## The deletion -/

namespace SecurityRules

theorem isTableChar_of_isNameChar {c : Char} (h : isNameChar c = true) : isTableChar c = true := by
  rw [isNameChar, Bool.or_eq_true] at h
  rcases h with h | h
  · simp [isTableChar, h]
  · simp [isTableChar, h]

def deletion (table rest : Text) : Text := "DELETE FROM ".toList ++ table ++ "; ".toList ++ rest

theorem isInert_of_mem_deletion {table : Text} (htable : isBareName table = true) :
    ∀ c ∈ "DELETE FROM ".toList ++ table ++ "; ".toList, isInert c = true := by
  have hhead : ∀ c ∈ "DELETE FROM ".toList, isInert c = true := List.all_eq_true.mp (by decide)
  have hend : ∀ c ∈ "; ".toList, isInert c = true := List.all_eq_true.mp (by decide)
  have hchars := (of_isBareName htable).2
  rw [List.forall_mem_append, List.forall_mem_append]
  exact ⟨⟨hhead, fun c hc => isInert_of_isNameChar (hchars c hc)⟩, hend⟩

theorem deletion_eq (table rest : Text) : deletion table rest = "DELETE".toList ++ ' ' ::
    ("FROM".toList ++ ' ' :: (table ++ ';' :: ' ' :: rest)) := by
  unfold deletion
  rw [List.append_assoc, List.append_assoc]
  rfl

theorem exists_matchAt?_deletion {table : Text} (htable : isBareName table = true) (rest : Text) :
    ∃ m, deleteAll.pattern.matchAt? ⟨[], deletion table rest⟩ = some m := by
  obtain ⟨hne, hchars⟩ := of_isBareName htable
  have hblank : Stops isBlank (table ++ ';' :: ' ' :: rest) := by
    obtain ⟨c, more, rfl⟩ := List.exists_cons_of_ne_nil hne
    exact stops_of_head (isBlank_eq_false_of_isNameChar (hchars c List.mem_cons_self))
  have hfirst : deleteAll.pattern.first? some ⟨⟨[], deletion table rest⟩, []⟩ =
      some ⟨⟨';' :: (table.reverse ++ ' ' :: ("FROM".toList.reverse ++ ' ' ::
        ("DELETE".toList.reverse ++ []))), ' ' :: rest⟩, []⟩ := by
    rw [deletion_eq, deleteAll]
    dsimp only
    rw [first?_all_cons, first?_edge_before (by decide) (stops_nil _), first?_all_cons,
      first?_word_append, first?_all_cons, first?_gap (stops_isBlank_of_isPhraseWord (by decide) _),
      first?_all_cons, first?_word_append, first?_all_cons, first?_gap hblank, first?_all_cons]
    apply first?_many1_of_some hne (fun c hc => isTableChar_of_isNameChar (hchars c hc))
      (stops_of_head (by decide))
    rw [first?_all_cons, first?_space_of_stops (stops_of_head (by decide)), first?_all_cons,
      first?_sign, first?_all_nil]
  exact ⟨_, matchAt?_of_first? hfirst⟩

/-- The deletion is found, so only the word decides. -/
theorem fires_deleteAll_iff {table : Text} (htable : isBareName table = true) {line : SourceLine}
    {rest : Text} (hcode : line.code = deletion table rest) :
    deleteAll.fires line = true ↔ ¬ line.code.HasWord "WHERE" := by
  obtain ⟨m, hm⟩ := exists_matchAt?_deletion htable rest
  have hfound : (deleteAll.pattern.findAll line.code).any deleteAll.confirm = true := by
    obtain ⟨n, hn⟩ : ∃ n, line.code.length = n + 1 := by
      rw [hcode, deletion_eq]
      exact ⟨_, rfl⟩
    rw [← hcode] at hm
    rw [findAll, hn, Cursor.first, findUpTo_of_matchAt? hm]
    rfl
  rw [← occursIn_keyword_iff (by decide)]
  show ((deleteAll.pattern.findAll line.code).any deleteAll.confirm &&
    !wherePattern.occursIn line.code) = true ↔ _
  rw [hfound]
  simp [wherePattern]

end SecurityRules

namespace Analyzer

open SecurityRules

/-- Neither comments nor literals reach into the deletion, whatever follows it. -/
theorem exists_code_deletion (a : Analyzer) {table : Text} (htable : isBareName table = true)
    (rest : Text) : ∃ rest' code, a.withoutComments (deletion table rest) = deletion table rest' ∧
      mask (deletion table rest') = deletion table code := by
  have hinert := isInert_of_mem_deletion htable
  have hplain : ∀ c ∈ "DELETE FROM ".toList ++ table ++ "; ".toList, IsPlain c := by
    intro c hc
    obtain ⟨hquote, -, hdash, hhash, hslash, -⟩ := of_isInert (hinert c hc)
    exact ⟨hquote, hdash, hslash, hhash⟩
  have hquote : '\x27' ∉ "DELETE FROM ".toList ++ table ++ "; ".toList :=
    fun hmem => absurd (hinert _ hmem) (by decide)
  obtain ⟨rest', hrest⟩ := exists_blankComments_append hplain (a.dialect = .mysql) rest
  exact ⟨rest', _, hrest, maskFrom_append_of_not_mem hquote rest'⟩

theorem newline_not_mem_deletion {table rest : Text} (htable : isBareName table = true)
    (hrest : '\n' ∉ rest) : '\n' ∉ deletion table rest := by
  have hname : '\n' ∉ table := fun hmem => absurd ((of_isBareName htable).2 _ hmem) (by decide)
  rw [deletion_eq]
  simp [hname, hrest]

/-- A deletion that ends right after the name of its table is reported exactly when the word `WHERE`
does not stand in the code of its line, be it in the deletion or behind it. -/
theorem analyze_reports_deletion_iff (registry : Registry) (settings : Settings)
    (parser : Dialect → Text → Option String)
    (henabled : settings.rules.isDisabled "SEC001" = false) {table rest : Text}
    (htable : isBareName table = true) (hrest : '\n' ∉ rest) :
    (∃ f ∈ analyze { registry, settings, parser } (deletion table rest),
      f.rule = "SEC001" ∧ f.line = some 1) ↔
    ¬ HasWord (mask (withoutComments { registry, settings, parser } (deletion table rest)))
      "WHERE" := by
  obtain ⟨rest', code, hcomments, hmask⟩ :=
    exists_code_deletion { registry, settings, parser } htable rest
  have hblank : trim (withoutComments { registry, settings, parser } (deletion table rest)) ≠ [] := by
    rw [hcomments, deletion_eq, ne_eq, trim_eq_nil_iff]
    intro h
    exact absurd (h 'D' List.mem_cons_self) (by decide)
  have hrule : deleteAll ∈ lineRules := by simp [lineRules, SecurityRules.rules]
  have hcode : (soleLine { registry, settings, parser } (deletion table rest)).code =
      deletion table code := by
    rw [soleLine, hcomments, hmask]
  exact (exists_mem_analyze_iff_fires rfl hrule henabled (newline_not_mem_deletion htable hrest)
    hblank).trans (fires_deleteAll_iff htable hcode)

/-- A condition in the next statement of the line hides the deletion; one in a literal or a comment
does not. -/
theorem analyze_deletion_hidden_by_neighbour :
    (¬ ∃ f ∈ analyze { registry := {} } (deletion "t".toList "SELECT id FROM u WHERE id = 1;".toList),
      f.rule = "SEC001" ∧ f.line = some 1) ∧
    ∃ f ∈ analyze { registry := {} } (deletion "t".toList "SELECT ' WHERE ' -- WHERE".toList),
      f.rule = "SEC001" ∧ f.line = some 1 := by
  have hword : HasWord (mask (withoutComments { registry := {} }
      (deletion "t".toList "SELECT id FROM u WHERE id = 1;".toList))) "WHERE" :=
    (occursIn_keyword_iff (by decide) _).mp (by decide +kernel)
  have hnone : ¬ HasWord (mask (withoutComments { registry := {} }
      (deletion "t".toList "SELECT ' WHERE ' -- WHERE".toList))) "WHERE" := by
    rw [← occursIn_keyword_iff (by decide)]
    decide +kernel
  refine ⟨fun h => ?_, ?_⟩
  · exact (analyze_reports_deletion_iff {} {} StrictParser.verdict rfl (by decide) (by decide)).mp h
      hword
  · exact (analyze_reports_deletion_iff {} {} StrictParser.verdict rfl (by decide) (by decide)).mpr
      hnone

end Analyzer
end SqlAudit
