import SqlAudit.Proofs.Lexical.OpenQuote
import SqlAudit.Proofs.Lexical.StatementPartition
import SqlAudit.Proofs.Review.Provenance

/-!
A quote that a document leaves open is reported once.  A document is cut into statements under one
reading, and each statement is read again under a reading of its own.  A statement before the last
one is closed under the reading of the document, and so its own reading closes it as well.
-/

namespace SqlAudit

open Text

namespace Text

/-- The first semicolon outside quotes, if there is one, cuts off a piece that closes its quotes. -/
theorem cutStatements_cases (escapes : Escapes) (s : QuoteState) (t : Text) :
    cutStatements (marksFrom escapes s t) = [t] ∨
      ∃ a b : Text, t = a ++ ';' :: b ∧ a.foldl (QuoteState.next escapes) s = .code ∧
        cutStatements (marksFrom escapes s t) = a :: cutStatements (b.marks escapes) := by
  induction t generalizing s with
  | nil => exact .inl rfl
  | cons c rest ih =>
    rw [marksFrom, cutStatements]
    by_cases hm : Mark.isCode ⟨c, s.holds c⟩ ';' = true
    · have hcode := hm
      rw [Mark.isCode, Bool.and_eq_true, Bool.not_eq_true', beq_iff_eq] at hcode
      obtain ⟨hholds, rfl⟩ := hcode
      obtain ⟨rfl, hnext⟩ := QuoteState.next_code_of_holds_eq_false escapes hholds
      refine .inr ⟨[], rest, rfl, rfl, ?_⟩
      rw [if_pos hm, hnext, marks]
    · rw [if_neg hm]
      rcases ih (s.next escapes c) with hrest | ⟨a, b, rfl, hclosed, hrest⟩
      · rw [hrest]
        exact .inl rfl
      · rw [hrest]
        exact .inr ⟨c :: a, b, rfl, hclosed, rfl⟩

/-- Under the reading that cuts a document into statements, only the last one can leave a quote
open, and it does so only if the document does. -/
theorem exists_earlier_of_openQuote? {escapes : Escapes} {t : Text} {start : Nat} {s : Statement}
    (hs : s ∈ placeStatements start (cutStatements (t.marks escapes)))
    (hopen : (s.text.openQuote? escapes).isSome = true) :
    (t.openQuote? escapes).isSome = true ∧
      ∃ earlier, placeStatements start (cutStatements (t.marks escapes)) = earlier ++ [s] ∧
        ∀ other ∈ earlier, other.text.openQuote? escapes = none := by
  obtain ⟨n, hn⟩ : ∃ n, t.length = n := ⟨_, rfl⟩
  -- The first semicolon leaves the scan in code, so what stands after it is cut like a document.
  induction n using Nat.strongRecOn generalizing t start with
  | ind n ih =>
    rcases cutStatements_cases escapes .code t with hcut | ⟨a, b, rfl, hclosed, hcut⟩
    · rw [marks, hcut] at hs ⊢
      obtain ⟨piece, hpiece, htext⟩ := exists_piece_of_mem_placeStatements hs
      rw [List.mem_singleton] at hpiece
      rw [htext, hpiece, openQuote?_trim] at hopen
      refine ⟨hopen, [], ?_, by simp⟩
      rw [placeStatements] at hs ⊢
      split at hs
      · cases hs
      · rename_i hbody
        rw [if_neg hbody, placeStatements, List.nil_append, List.mem_singleton.mp hs]
    · have hfirst : ∀ other ∈ placeStatements start [a], other.text.openQuote? escapes = none := by
        intro other hother
        obtain ⟨piece, hpiece, htext⟩ := exists_piece_of_mem_placeStatements hother
        rw [htext, List.mem_singleton.mp hpiece, openQuote?_trim, openQuote?, quoteState, hclosed]
        rfl
      have hsame : (a ++ ';' :: b).openQuote? escapes = b.openQuote? escapes := by
        rw [openQuote?, quoteState, List.foldl_append, hclosed]
        rfl
      have hplaced := placeStatements_append (List.cons_ne_nil a []) start
        (cutStatements (b.marks escapes))
      rw [List.singleton_append] at hplaced
      rw [marks, hcut, hplaced] at hs ⊢
      rcases List.mem_append.mp hs with hs | hs
      · rw [hfirst s hs] at hopen
        cases hopen
      · rw [List.length_append, List.length_cons] at hn
        obtain ⟨hb, earlier, hearlier, hnone⟩ := ih b.length (by omega) hs rfl
        refine ⟨by rw [hsame, hb], placeStatements start [a] ++ earlier, ?_, ?_⟩
        · rw [hearlier, List.append_assoc]
        · intro other hother
          rcases List.mem_append.mp hother with hother | hother
          · exact hfirst other hother
          · exact hnone other hother

end Text

namespace StatementCheck

variable {document source : Text} {parser : Option (Text → Option String)} {statement : Statement}

/-- Of the checks of a statement, only that of its balance reports quotes. -/
theorem filter_unclosedQuote_check : (check document source parser statement).filter
      (·.rule == unclosedQuote.id) =
    (balanceFinding? statement.text.balance (document.lineAt statement.offset)
      (source.line (document.lineAt statement.offset))).toList.filter
        (·.rule == unclosedQuote.id) := by
  have hplaces : ∀ (pattern : Pattern) (rule : RuleInfo) (message suggestion : String),
      (rule.id == unclosedQuote.id) = false →
      (placeFindings document source statement pattern rule message suggestion).filter
        (·.rule == unclosedQuote.id) = [] := by
    intro pattern rule message suggestion hrule
    rw [List.filter_eq_nil_iff]
    intro f hf
    obtain ⟨m, -, rfl⟩ := List.mem_map.mp hf
    show ¬ (rule.id == unclosedQuote.id) = true
    rw [hrule]
    exact Bool.false_ne_true
  have hparser : ∀ reason : Option String, ((reason.map fun reason =>
      { rejected.finding (document.lineAt statement.offset)
          (source.line (document.lineAt statement.offset)) s!"Parser rejected statement: {reason}"
        with confidence := hundredths 50 }).toList).filter (·.rule == unclosedQuote.id) = [] := by
    intro reason
    cases reason <;> rfl
  rw [check]
  dsimp only
  rw [List.filter_append, List.filter_append, List.filter_append, hplaces _ _ _ _ (by decide),
    hplaces _ _ _ _ (by decide), List.append_nil, List.append_nil]
  split
  · rw [hparser, List.append_nil]
  · rw [List.filter_nil, List.append_nil]

/-- A statement whose open quote is reported leaves one open under every reading. -/
theorem of_mem_check_unclosedQuote {f : Finding} (h : f ∈ check document source parser statement)
    (hrule : f.rule = unclosedQuote.id) :
    f.line = some (document.lineAt statement.offset) ∧
      ∀ escapes, (statement.text.openQuote? escapes).isSome = true := by
  have hmem : f ∈ (check document source parser statement).filter (·.rule == unclosedQuote.id) :=
    List.mem_filter.mpr ⟨h, by rw [hrule, beq_self_eq_true]⟩
  rw [filter_unclosedQuote_check, List.mem_filter, Option.mem_toList] at hmem
  obtain ⟨hbalance, -⟩ := hmem
  refine ⟨(quotes_of_balanceFinding? hbalance).line_eq, ?_⟩
  rw [← isSome_openQuote?_escapes_iff]
  rw [balanceFinding?] at hbalance
  split at hbalance
  · rename_i quote hquote
    have hopen : statement.text.openQuote? statement.text.escapes = some quote := hquote
    rw [hopen, Option.isSome_some]
  · split at hbalance
    · cases hbalance
      have hid : unbalanced.id = unclosedQuote.id := hrule
      exact absurd hid (by decide)
    · cases hbalance

/-- A report of an open quote is about the last statement. -/
theorem exists_last_of_mem_checkAll {f : Finding} (hf : f ∈ checkAll document source parser)
    (hrule : f.rule = unclosedQuote.id) :
    (∃ earlier last, document.statements = earlier ++ [last] ∧
      f ∈ check document source parser last ∧ f.line = some (document.lineAt last.offset) ∧
      ∀ statement ∈ earlier, ∀ g ∈ check document source parser statement,
        g.rule ≠ unclosedQuote.id) ∧
    (document.openQuote? document.escapes).isSome = true := by
  obtain ⟨last, hmem, hcheck⟩ := List.mem_flatMap.mp hf
  obtain ⟨hline, hopen⟩ := of_mem_check_unclosedQuote hcheck hrule
  obtain ⟨hdocument, earlier, hearlier, hclosed⟩ :=
    exists_earlier_of_openQuote? hmem (hopen document.escapes)
  refine ⟨⟨earlier, last, hearlier, hcheck, hline, fun statement hstatement g hg hother => ?_⟩,
    hdocument⟩
  have hagain := (of_mem_check_unclosedQuote hg hother).2 document.escapes
  rw [hclosed statement hstatement] at hagain
  cases hagain

/-- An open quote is reported once at most, for the last statement, and only if the document leaves
a quote open under both readings. -/
theorem checkAll_reports_open_quote (document source : Text)
    (parser : Option (Text → Option String)) :
    ((checkAll document source parser).filter (·.rule == unclosedQuote.id)).length ≤ 1 ∧
    ∀ f ∈ checkAll document source parser, f.rule = unclosedQuote.id →
      (∃ earlier last, document.statements = earlier ++ [last] ∧
        f ∈ check document source parser last ∧ f.line = some (document.lineAt last.offset) ∧
        ∀ statement ∈ earlier, ∀ g ∈ check document source parser statement,
          g.rule ≠ unclosedQuote.id) ∧
      (document.openQuote? .standard).isSome = true ∧
      (document.openQuote? .backslash).isSome = true := by
  constructor
  · by_cases hnone : (checkAll document source parser).filter (·.rule == unclosedQuote.id) = []
    · rw [hnone]
      exact Nat.zero_le 1
    · obtain ⟨f, hf⟩ := List.exists_mem_of_ne_nil _ hnone
      obtain ⟨hf, hrule⟩ := List.mem_filter.mp hf
      obtain ⟨⟨earlier, last, hstatements, -, -, hothers⟩, -⟩ :=
        exists_last_of_mem_checkAll hf (beq_iff_eq.mp hrule)
      have hearlier : (earlier.flatMap (check document source parser)).filter
          (·.rule == unclosedQuote.id) = [] := by
        rw [List.filter_eq_nil_iff]
        intro g hg
        obtain ⟨statement, hstatement, hg⟩ := List.mem_flatMap.mp hg
        rw [beq_iff_eq]
        exact hothers statement hstatement g hg
      rw [checkAll, hstatements, List.flatMap_append, List.filter_append, hearlier,
        List.nil_append, List.flatMap_singleton, filter_unclosedQuote_check]
      exact Nat.le_trans (List.length_filter_le _ _) Option.length_toList_le
  · intro f hf hrule
    obtain ⟨hlast, hdocument⟩ := exists_last_of_mem_checkAll hf hrule
    rw [isSome_openQuote?_escapes_iff] at hdocument
    exact ⟨hlast, hdocument .standard, hdocument .backslash⟩

/-- The second of two statements leaves a literal open. -/
theorem checkAll_reports_open_quote_of_second :
    (checkAll "SELECT 'a';\nSELECT 'it;".toList "SELECT 'a';\nSELECT 'it;".toList none).map
        (fun f => (f.rule, f.line)) = [(unclosedQuote.id, some 2)] ∧
      ∃ earlier last, statements "SELECT 'a';\nSELECT 'it;".toList = earlier ++ [last] ∧
        lineAt "SELECT 'a';\nSELECT 'it;".toList last.offset = 2 ∧
        (openQuote? .backslash "SELECT 'a';\nSELECT 'it;".toList).isSome = true := by
  have hfound : (checkAll "SELECT 'a';\nSELECT 'it;".toList "SELECT 'a';\nSELECT 'it;".toList
      none).map (fun f => (f.rule, f.line)) = [(unclosedQuote.id, some 2)] := by decide +kernel
  refine ⟨hfound, ?_⟩
  obtain ⟨-, hreport⟩ := checkAll_reports_open_quote "SELECT 'a';\nSELECT 'it;".toList
    "SELECT 'a';\nSELECT 'it;".toList none
  generalize checkAll "SELECT 'a';\nSELECT 'it;".toList "SELECT 'a';\nSELECT 'it;".toList none = fs
    at hfound hreport
  obtain ⟨f, others, rfl, hf, -⟩ := List.map_eq_cons_iff.mp hfound
  have hrule : f.rule = unclosedQuote.id := congrArg Prod.fst hf
  have hline : f.line = some 2 := congrArg Prod.snd hf
  obtain ⟨⟨earlier, last, hlast, -, hown, -⟩, -, hbackslash⟩ := hreport f List.mem_cons_self hrule
  exact ⟨earlier, last, hlast, Option.some.inj (hown.symm.trans hline), hbackslash⟩

end StatementCheck
end SqlAudit
