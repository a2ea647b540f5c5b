import SqlAudit.Proofs.Pattern.Phrase
import SqlAudit.Proofs.Review.LineReports
import SqlAudit.Proofs.Schema.PlainName

/-!
Comparisons of literals after `OR`.  Of two numbers or two quoted texts the rule on tautologies reads
both as a whole and reports the line if they are the same.  What a quoted text holds does not mislead
it: the match that starts at the `OR` of the statement covers both texts, so nothing inside them is
searched, and no comment starts in them.
-/

namespace SqlAudit

open Text Pattern

namespace SecurityRules

/-- A query whose condition ends in a comparison after `OR`. -/
def comparison (left right : Text) : Text :=
  "SELECT id FROM t WHERE a = 1 OR ".toList ++ left ++ "=".toList ++ right ++ ";".toList

def literal (x : Text) : Text := '\x27' :: (x ++ ['\x27'])

/-- What stands before the `OR`. -/
def lead : Text := joined ["SELECT", "id", "FROM", "t", "WHERE", "a"] ++ " = 1 ".toList

theorem comparison_eq (left right : Text) : comparison left right =
    lead ++ ("OR".toList ++ ' ' :: (left ++ '=' :: (right ++ [';']))) := by
  unfold comparison lead
  simp only [List.append_assoc]
  rfl

/-! ## One match -/

/-- A match has read two literals, and only the semicolon is left. -/
structure Compares (m : Match) (x y : Text) : Prop where
  left : m.textOf .left = x
  right : m.textOf .right = y
  stop : m.stop.after = [';']

theorem compares_captures (start : Cursor) (b b₁ b₂ b₃ b₄ r₁ r₂ x y : Text) :
    Compares ⟨start, ⟨b, [';']⟩,
      [⟨.right, ⟨b₁, y ++ r₁⟩, ⟨b₂, r₁⟩⟩, ⟨.left, ⟨b₃, x ++ r₂⟩, ⟨b₄, r₂⟩⟩]⟩ x y where
  left := Cursor.upTo_append b₃ x r₂ b₄
  right := Cursor.upTo_append b₁ y r₁ b₂
  stop := rfl

def numbers : Pattern :=
  all [capture .left digits, space, sign '=', space, capture .right digits, edge]

def texts : Pattern := all [quoted .left, space, sign '=', space, quoted .right]

theorem first?_literalComparison {before t : Text} (hbefore : Stops isWordChar before)
    (ht : Stops isBlank t) :
    literalComparison.first? some ⟨⟨before, "OR".toList ++ ' ' :: t⟩, []⟩ =
      (numbers.first? some ⟨⟨' ' :: ("OR".toList.reverse ++ before), t⟩, []⟩).or
        (texts.first? some ⟨⟨' ' :: ("OR".toList.reverse ++ before), t⟩, []⟩) := by
  rw [literalComparison, first?_all_cons, first?_edge_before (by decide) hbefore, first?_all_cons,
    first?_word_append, first?_all_cons, first?_gap ht, first?_all_cons, first?_any_cons,
    first?_any_cons, first?_any_nil, Option.or_none]
  rfl

structure IsNumeral (x : Text) : Prop where
  ne_nil : x ≠ []
  isDigit : ∀ c ∈ x, isDigit c = true
  isWordChar : ∀ c ∈ x, isWordChar c = true

theorem isNumeral_toDigits (n : Nat) : IsNumeral (Nat.toDigits 10 n) where
  ne_nil := Nat.toDigits_ne_nil
  isDigit c hc := by
    rw [Text.isDigit, if_pos (isAscii_of_isIdentifierChar (isIdentifierChar_of_mem_toDigits hc))]
    exact Nat.isDigit_of_mem_toDigits (by decide) (by decide) hc
  isWordChar c hc := isWordChar_of_isIdentifierChar (isIdentifierChar_of_mem_toDigits hc)

theorem IsNumeral.stops_isBlank {x : Text} (hx : IsNumeral x) (rest : Text) :
    Stops isBlank (x ++ rest) := by
  obtain ⟨c, more, rfl⟩ := List.exists_cons_of_ne_nil hx.ne_nil
  exact stops_of_head (isBlank_eq_false_of_isWordChar (hx.isWordChar c List.mem_cons_self))

theorem IsNumeral.any_head?_reverse {x : Text} (hx : IsNumeral x) (before : Text) :
    (x.reverse ++ before).head?.any Text.isWordChar = true := by
  obtain ⟨c, more, hreverse⟩ := List.exists_cons_of_ne_nil (mt List.reverse_eq_nil_iff.mp hx.ne_nil)
  have hc : c ∈ x := by
    rw [← List.mem_reverse, hreverse]
    exact List.mem_cons_self
  rw [hreverse]
  exact hx.isWordChar c hc

theorem stops_isBlank_literal (x rest : Text) : Stops isBlank (literal x ++ rest) :=
  stops_of_head (by decide)

section

variable {before x y : Text}

theorem first?_numbers (hx : IsNumeral x) (hy : IsNumeral y) :
    numbers.first? some ⟨⟨before, x ++ '=' :: (y ++ [';'])⟩, []⟩ =
      some ⟨⟨y.reverse ++ '=' :: (x.reverse ++ before), [';']⟩,
        [⟨.right, ⟨'=' :: (x.reverse ++ before), y ++ [';']⟩,
          ⟨y.reverse ++ '=' :: (x.reverse ++ before), [';']⟩⟩,
         ⟨.left, ⟨before, x ++ '=' :: (y ++ [';'])⟩,
          ⟨x.reverse ++ before, '=' :: (y ++ [';'])⟩⟩]⟩ := by
  rw [numbers, first?_all_cons, first?_capture, digits]
  apply first?_many1_of_some hx.ne_nil hx.isDigit (stops_of_head (by decide))
  rw [first?_all_cons, first?_space_of_stops (stops_of_head (by decide)), first?_all_cons,
    first?_sign, first?_all_cons, first?_space_of_stops (hy.stops_isBlank _), first?_all_cons,
    first?_capture]
  apply first?_many1_of_some hy.ne_nil hy.isDigit (stops_of_head (by decide))
  rw [first?_all_cons, first?_edge_after_word (hy.any_head?_reverse _) (stops_of_head (by decide)),
    first?_all_nil]

theorem first?_quoted {β : Type} {k : Way → Option β} {captures : List Capture} {rest : Text}
    (part : Part) (hx : '\x27' ∉ x) {v : β}
    (h : k ⟨⟨'\x27' :: (x.reverse ++ '\x27' :: before), rest⟩,
      ⟨part, ⟨'\x27' :: before, x ++ '\x27' :: rest⟩,
        ⟨x.reverse ++ '\x27' :: before, '\x27' :: rest⟩⟩ :: captures⟩ = some v) :
    (quoted part).first? k ⟨⟨before, literal x ++ rest⟩, captures⟩ = some v := by
  have hrun : ∀ c ∈ x, (c != '\x27') = true := by
    intro c hc
    simpa using ne_of_mem_of_not_mem hc hx
  have htext : literal x ++ rest = '\x27' :: (x ++ '\x27' :: rest) := by simp [literal]
  rw [htext, quoted, first?_all_cons, first?_sign, first?_all_cons, first?_capture]
  apply first?_many_of_some hrun (stops_of_head (by decide))
  rw [first?_all_cons, first?_sign, first?_all_nil]
  exact h

theorem first?_texts (hx : '\x27' ∉ x) (hy : '\x27' ∉ y) :
    texts.first? some ⟨⟨before, literal x ++ '=' :: (literal y ++ [';'])⟩, []⟩ =
      some ⟨⟨'\x27' :: (y.reverse ++ '\x27' :: '=' :: '\x27' :: (x.reverse ++ '\x27' :: before)),
          [';']⟩,
        [⟨.right, ⟨'\x27' :: '=' :: '\x27' :: (x.reverse ++ '\x27' :: before), y ++ '\x27' :: [';']⟩,
          ⟨y.reverse ++ '\x27' :: '=' :: '\x27' :: (x.reverse ++ '\x27' :: before),
            '\x27' :: [';']⟩⟩,
         ⟨.left, ⟨'\x27' :: before, x ++ '\x27' :: '=' :: (literal y ++ [';'])⟩,
          ⟨x.reverse ++ '\x27' :: before, '\x27' :: '=' :: (literal y ++ [';'])⟩⟩]⟩ := by
  rw [texts, first?_all_cons]
  apply first?_quoted .left hx
  rw [first?_all_cons, first?_space_of_stops (stops_of_head (by decide)), first?_all_cons,
    first?_sign, first?_all_cons, first?_space_of_stops (stops_isBlank_literal y _), first?_all_cons]
  apply first?_quoted .right hy
  exact first?_all_nil _ _

theorem first?_numbers_literal (t : Text) :
    numbers.first? some ⟨⟨before, literal x ++ t⟩, []⟩ = none := by
  rw [numbers, first?_all_cons, first?_capture, digits, many1, first?_seq]
  show (char Text.isDigit).first? _ ⟨⟨before, '\x27' :: (x ++ ['\x27'] ++ t)⟩, []⟩ = none
  rw [first?_char_cons]
  exact if_neg (by decide)

variable (hbefore : Stops isWordChar before)

include hbefore

theorem exists_compares_numerals (hx : IsNumeral x) (hy : IsNumeral y) :
    ∃ m, literalComparison.matchAt? ⟨before, "OR".toList ++ ' ' :: (x ++ '=' :: (y ++ [';']))⟩ =
      some m ∧ Compares m x y := by
  have hfirst := first?_literalComparison hbefore (hx.stops_isBlank ('=' :: (y ++ [';'])))
  rw [first?_numbers hx hy, Option.some_or] at hfirst
  exact ⟨_, matchAt?_of_first? hfirst, compares_captures _ _ _ _ _ _ _ _ x y⟩

theorem exists_compares_literals (hx : '\x27' ∉ x) (hy : '\x27' ∉ y) :
    ∃ m, literalComparison.matchAt?
      ⟨before, "OR".toList ++ ' ' :: (literal x ++ '=' :: (literal y ++ [';']))⟩ = some m ∧
        Compares m x y := by
  have hfirst := first?_literalComparison hbefore
    (stops_isBlank_literal x ('=' :: (literal y ++ [';'])))
  rw [first?_numbers_literal, Option.none_or, first?_texts hx hy] at hfirst
  exact ⟨_, matchAt?_of_first? hfirst, compares_captures _ _ _ _ _ _ _ _ x y⟩

end

/-! ## The search -/

theorem ledByWords_literalComparison : literalComparison.LedByWords ["OR"] := ledByWords_gap "OR" _

theorem skips_lead (rest : Text) : literalComparison.Skips [] lead rest := by
  have hheads : ∀ s ∈ ["OR"], isPhraseWord s = true := by decide
  have hled := ledByWords_literalComparison
  unfold lead
  refine skips_joined_append hled hheads (by decide) (by decide) (stops_of_head (by decide)) ?_
  refine skips_cons hled hheads (by decide) (skips_cons hled hheads (by decide)
    (skips_cons hled hheads (by decide) ?_))
  have hdigit : ∀ c ∈ ['1'], isWordChar c = true := List.forall_mem_singleton.mpr (by decide)
  have hone : ∀ s ∈ ["OR"], ¬ SameWord s.toList ['1'] := by decide
  exact skips_word_append hled hheads hdigit hone (stops_of_head (by decide))
    (skips_cons hled hheads (by decide) trivial)

theorem fires_tautology_iff {line : SourceLine} {left right x y : Text}
    (hraw : line.raw = comparison left right)
    (hmatch : ∃ m, literalComparison.matchAt?
      ⟨lead.reverse, "OR".toList ++ ' ' :: (left ++ '=' :: (right ++ [';']))⟩ = some m ∧
        Compares m x y) :
    tautology.fires line = true ↔ x = y := by
  obtain ⟨m, hm, hleft, hright, hstop⟩ := hmatch
  have hfound : literalComparison.findAll line.raw = [m] := by
    obtain ⟨n, hn⟩ : ∃ n, line.raw.length = n + 1 := by
      rw [hraw]
      exact ⟨_, rfl⟩
    have hend : literalComparison.findUpTo n m.stop = [] := by
      have hskips : literalComparison.Skips m.stop.before [';'] [] :=
        skips_cons ledByWords_literalComparison (by decide) (by decide) trivial
      have hsemicolon := findUpTo_of_skips hskips n
      rw [findUpTo_nil ledByWords_literalComparison (by decide)] at hsemicolon
      rw [← hsemicolon, List.append_nil, ← hstop]
    rw [findAll, hn, hraw, comparison_eq, Cursor.first, findUpTo_of_skips (skips_lead _),
      List.append_nil, findUpTo_of_matchAt? hm, hend]
  show ((literalComparison.findAll line.raw).any tautology.confirm && true) = true ↔ x = y
  rw [hfound, Bool.and_true, List.any_cons, List.any_nil, Bool.or_false]
  show (m.textOf .left == m.textOf .right) = true ↔ x = y
  rw [hleft, hright, beq_iff_eq]

/-! ## Texts without comments -/

theorem tidy_comparison {left right : Text} (hleft : Tidy true left) (hright : Tidy true right) :
    Tidy true (comparison left right) := by
  have hplain : ∀ t : Text, t.all isPlain = true → Tidy true t := by
    intro t ht
    exact .of_forall fun c hc => ⟨List.all_eq_true.mp ht c hc, fun _ => rfl⟩
  unfold comparison
  exact ((((hplain _ (by decide)).append hleft).append (hplain _ (by decide))).append hright).append
    (hplain _ (by decide))

theorem IsNumeral.tidy {x : Text} (hx : IsNumeral x) : Tidy true x := by
  refine .of_forall fun c hc => ⟨isPlain_of_isNameChar ?_, fun _ => rfl⟩
  rw [isNameChar, hx.isWordChar c hc, Bool.true_or]

theorem tidy_literal {x : Text} (hx : '\x27' ∉ x) : Tidy true (literal x) := by
  have htidy : Tidy true (Text.quoted x ++ []) := .literal x .nil
  rwa [Text.quoted, doubled_eq_self hx, List.append_nil] at htidy

theorem newline_not_mem_comparison {left right : Text} (hleft : '\n' ∉ left)
    (hright : '\n' ∉ right) : '\n' ∉ comparison left right := by
  rw [comparison_eq]
  have hlead : '\n' ∉ lead := by decide
  simp [hlead, hleft, hright]

end SecurityRules

namespace Analyzer

open SecurityRules

theorem exists_mem_analyze_comparison_iff {a : Analyzer} (hrules : a.extraRules = [])
    (henabled : a.settings.rules.isDisabled "SEC005" = false) {left right x y : Text}
    (hleft : Tidy true left ∧ '\n' ∉ left) (hright : Tidy true right ∧ '\n' ∉ right)
    (hmatch : ∃ m, literalComparison.matchAt?
      ⟨lead.reverse, "OR".toList ++ ' ' :: (left ++ '=' :: (right ++ [';']))⟩ = some m ∧
        Compares m x y) :
    (∃ f ∈ a.analyze (comparison left right), f.rule = "SEC005" ∧ f.line = some 1) ↔ x = y := by
  have hcomments : a.withoutComments (comparison left right) = comparison left right :=
    (tidy_comparison hleft.1 hright.1).blankComments_eq _
  have hblank : trim (a.withoutComments (comparison left right)) ≠ [] := by
    rw [hcomments, ne_eq, trim_eq_nil_iff]
    intro h
    exact absurd (h 'S' List.mem_cons_self) (by decide)
  have hrule : tautology ∈ lineRules := by simp [lineRules, SecurityRules.rules]
  have hraw : (a.soleLine (comparison left right)).raw = comparison left right := by
    rw [soleLine, hcomments]
  rw [← fires_tautology_iff hraw hmatch]
  exact exists_mem_analyze_iff_fires hrules hrule henabled
    (newline_not_mem_comparison hleft.2 hright.2) hblank

/-- Two numbers after `OR` are reported exactly when they are equal, and so are two texts between
single quotes, whatever stands in them. -/
theorem analyze_reports_tautology_iff (registry : Registry) (settings : Settings)
    (parser : Dialect → Text → Option String)
    (henabled : settings.rules.isDisabled "SEC005" = false) :
    (∀ m n : Nat,
      (∃ f ∈ analyze { registry, settings, parser }
          (comparison (Nat.toDigits 10 m) (Nat.toDigits 10 n)),
        f.rule = "SEC005" ∧ f.line = some 1) ↔ m = n) ∧
    ∀ x y : Text, '\x27' ∉ x → '\n' ∉ x → '\x27' ∉ y → '\n' ∉ y →
      ((∃ f ∈ analyze { registry, settings, parser } (comparison (literal x) (literal y)),
        f.rule = "SEC005" ∧ f.line = some 1) ↔ x = y) := by
  have hlead : Stops isWordChar lead.reverse := by decide
  refine ⟨fun m n => ?_, fun x y hx hxline hy hyline => ?_⟩
  · have hnumeral := fun n => isNumeral_toDigits n
    have hnewline : ∀ n, '\n' ∉ Nat.toDigits 10 n :=
      fun n hmem => absurd ((hnumeral n).isWordChar _ hmem) (by decide)
    rw [exists_mem_analyze_comparison_iff rfl henabled ⟨(hnumeral m).tidy, hnewline m⟩
      ⟨(hnumeral n).tidy, hnewline n⟩
      (exists_compares_numerals hlead (hnumeral m) (hnumeral n))]
    exact ⟨toDigits_inj, fun h => by rw [h]⟩
  · have hnewline : ∀ z : Text, '\n' ∉ z → '\n' ∉ literal z := by
      intro z hz
      simp [literal, hz]
    exact exists_mem_analyze_comparison_iff rfl henabled ⟨tidy_literal hx, hnewline x hxline⟩
      ⟨tidy_literal hy, hnewline y hyline⟩ (exists_compares_literals hlead hx hy)

/-- Texts that look like comments, quotes and tautologies are compared as they are. -/
theorem analyze_reports_tautology_misleading :
    (∃ f ∈ analyze { registry := {} } (comparison (Nat.toDigits 10 10) (Nat.toDigits 10 10)),
      f.rule = "SEC005" ∧ f.line = some 1) ∧
    (¬ ∃ f ∈ analyze { registry := {} } (comparison (Nat.toDigits 10 10) (Nat.toDigits 10 100)),
      f.rule = "SEC005" ∧ f.line = some 1) ∧
    (∃ f ∈ analyze { registry := {} }
        (comparison (literal "\" -- /* \\".toList) (literal "\" -- /* \\".toList)),
      f.rule = "SEC005" ∧ f.line = some 1) ∧
    ¬ ∃ f ∈ analyze { registry := {} }
        (comparison (literal "x OR 1=1 -- ".toList) (literal "y OR 1=1 -- ".toList)),
      f.rule = "SEC005" ∧ f.line = some 1 := by
  obtain ⟨hnumbers, htexts⟩ := analyze_reports_tautology_iff {} {} StrictParser.verdict rfl
  refine ⟨(hnumbers 10 10).mpr rfl, fun h => absurd ((hnumbers 10 100).mp h) (by decide), ?_,
    fun h => ?_⟩
  · exact (htexts _ _ (by decide) (by decide) (by decide) (by decide)).mpr rfl
  · exact absurd ((htexts _ _ (by decide) (by decide) (by decide) (by decide)).mp h) (by decide)

end Analyzer
end SqlAudit
