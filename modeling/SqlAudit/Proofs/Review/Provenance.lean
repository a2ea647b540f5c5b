import SqlAudit.Proofs.Text.Trim
import SqlAudit.Review.Analysis

/-!
Where findings come from.  For each check one lemma says everything that its findings have in
common: the rules that they belong to, the line that they name, and that they quote that line.
-/

namespace SqlAudit

open Text

/-- A finding belongs to one of the given rules, with its severity, stands on a line and quotes it,
up to blanks at the ends. -/
structure Finding.Quotes (infos : List RuleInfo) (source : Text) (line : Nat) (f : Finding) :
    Prop where
  rule : ∃ info ∈ infos, f.rule = info.id ∧ f.concern = info.concern ∧ f.severity = info.severity
  line_eq : f.line = some line
  fragment : trim f.fragment.toList = trim (source.line line)

namespace Finding.Quotes

variable {infos : List RuleInfo} {source : Text} {line : Nat} {f : Finding}

theorem mono {more : List RuleInfo} (h : f.Quotes infos source line)
    (hsub : ∀ info ∈ infos, info ∈ more) : f.Quotes more source line := by
  obtain ⟨info, hinfo, hrule⟩ := h.rule
  exact ⟨⟨info, hsub info hinfo, hrule⟩, h.line_eq, h.fragment⟩

/-- What a rule reports on a line, whatever is added to it besides the fragment. -/
theorem ofInfo (info : RuleInfo) (hinfo : info ∈ infos) (hrule : f.rule = info.id)
    (hconcern : f.concern = info.concern) (hseverity : f.severity = info.severity)
    (hline : f.line = some line) (hfragment : f.fragment = String.ofList (source.line line)) :
    f.Quotes infos source line :=
  ⟨⟨info, hinfo, hrule, hconcern, hseverity⟩, hline, by rw [hfragment, String.toList_ofList]⟩

theorem rule_ne (h : f.Quotes infos source line) {id : String}
    (hid : ∀ info ∈ infos, info.id ≠ id) : f.rule ≠ id := by
  obtain ⟨info, hinfo, hrule, -⟩ := h.rule
  rw [hrule]
  exact hid info hinfo

end Finding.Quotes

/-! ## Lines -/

namespace LineRule

variable {rule : LineRule} {line : SourceLine} {f : Finding}

theorem eq_of_check (h : rule.check line = some f) :
    f = { rule.info.finding line.number (trim line.source) rule.message with
      suggestion := some rule.suggestion, confidence := rule.confidence } := by
  rw [check] at h
  split at h
  · exact (Option.some.inj h).symm
  · cases h

theorem rule_of_check (h : rule.check line = some f) : f.rule = rule.info.id := by
  rw [eq_of_check h]
  rfl

theorem quotes_of_check {source : Text} (hsource : line.source = source.line line.number)
    (h : rule.check line = some f) : f.Quotes [rule.info] source line.number := by
  rw [eq_of_check h]
  refine ⟨⟨rule.info, List.mem_singleton_self _, rfl, rfl, rfl⟩, rfl, ?_⟩
  rw [RuleInfo.finding, String.toList_ofList, trim_trim, hsource]

end LineRule

namespace Analyzer

/-- A line that is looked at is the line of its number in the source. -/
theorem source_eq_line_of_mem_sourceLines {document source : Text} {line : SourceLine}
    (h : line ∈ sourceLines document source) :
    1 ≤ line.number ∧ line.number ≤ source.lines.length ∧
      line.source = source.line line.number := by
  simp only [sourceLines, List.mem_filterMap] at h
  obtain ⟨⟨⟨raw, written⟩, number⟩, hmem, hline⟩ := h
  rw [List.mk_mem_zipIdx_iff_le_and_getElem?_sub, List.getElem?_zip_eq_some] at hmem
  obtain ⟨hone, -, hwritten⟩ := hmem
  have hlt := (List.getElem?_eq_some_iff.mp hwritten).1
  split at hline
  · cases hline
  · cases hline
    refine ⟨hone, show number ≤ _ by omega, ?_⟩
    rw [Text.line, List.getD_eq_getElem?_getD, hwritten]
    rfl

/-- What is found on lines is on a line of the source. -/
theorem quotes_of_mem_checkLines {a : Analyzer} (hrules : a.extraRules = [])
    {document source : Text} {f : Finding} (h : f ∈ a.checkLines document source) :
    ∃ n, 1 ≤ n ∧ n ≤ source.lines.length ∧ f.Quotes (lineRules.map LineRule.info) source n := by
  simp only [checkLines, List.mem_flatMap, List.mem_filterMap, rules, hrules, List.append_nil,
    List.mem_filter, List.mem_map] at h
  obtain ⟨line, hline, _, ⟨⟨rule, hrule, rfl⟩, -⟩, hcheck⟩ := h
  obtain ⟨hone, hlast, hsource⟩ := source_eq_line_of_mem_sourceLines hline
  refine ⟨line.number, hone, hlast, (LineRule.quotes_of_check hsource hcheck).mono ?_⟩
  intro info hinfo
  rw [List.mem_singleton.mp hinfo]
  exact List.mem_map_of_mem hrule

end Analyzer

/-! ## Statements -/

namespace StatementCheck

variable {document source : Text} {f : Finding}

/-- What is wrong with the balance of a statement does not depend on where the statement stands. -/
theorem exists_balanceFinding?_eq (b : Balance) :
    ∃ found : Option (RuleInfo × String × String), (∀ x ∈ found, x.1 ∈ rules) ∧
      ∀ line fragment, balanceFinding? b line fragment = found.map fun (info, message, suggestion) =>
        { info.finding line fragment message with suggestion := some suggestion } := by
  simp only [balanceFinding?]
  cases b.openQuote with
  | some quote => exact ⟨some (unclosedQuote, _, _), by simp [rules], fun _ _ => rfl⟩
  | none =>
    dsimp only
    split
    · exact ⟨some (unbalanced, _, _), by simp [rules], fun _ _ => rfl⟩
    · exact ⟨none, by simp, fun _ _ => rfl⟩

theorem quotes_of_balanceFinding? {b : Balance} {line : Nat}
    (h : balanceFinding? b line (source.line line) = some f) : f.Quotes rules source line := by
  obtain ⟨found, hrules, heq⟩ := exists_balanceFinding?_eq b
  rw [heq] at h
  obtain ⟨x, hx, rfl⟩ := Option.map_eq_some_iff.mp h
  exact .ofInfo x.1 (hrules x hx) rfl rfl rfl rfl rfl

theorem quotes_of_mem_placeFindings {statement : Statement} {pattern : Pattern} {rule : RuleInfo}
    {message suggestion : String} (hrule : rule ∈ rules)
    (h : f ∈ placeFindings document source statement pattern rule message suggestion) :
    ∃ m ∈ pattern.findAll statement.text.mask,
      f.Quotes rules source (document.lineAt (statement.offset + m.start.offset)) := by
  simp only [placeFindings, List.mem_map] at h
  obtain ⟨m, hm, rfl⟩ := h
  exact ⟨m, hm, .ofInfo rule hrule rfl rfl rfl rfl rfl⟩

/-- A finding on a statement is on the line where the statement starts, or on the line of a comma
that is in the wrong place. -/
theorem quotes_of_mem_check {parser : Option (Text → Option String)} {statement : Statement}
    (h : f ∈ check document source parser statement) :
    ∃ offset, f.Quotes rules source (document.lineAt (statement.offset + offset)) ∧
      (offset = 0 ∨ ∃ pattern ∈ [trailingCommaPattern, doubledCommaPattern],
        ∃ m ∈ pattern.findAll statement.text.mask, offset = m.start.offset) := by
  simp only [check, List.mem_append, Option.mem_toList] at h
  rcases h with ((h | h) | h) | h
  · exact ⟨0, quotes_of_balanceFinding? h, .inl rfl⟩
  · obtain ⟨m, hm, hf⟩ := quotes_of_mem_placeFindings (by simp [rules]) h
    exact ⟨m.start.offset, hf, .inr ⟨_, by simp, m, hm, rfl⟩⟩
  · obtain ⟨m, hm, hf⟩ := quotes_of_mem_placeFindings (by simp [rules]) h
    exact ⟨m.start.offset, hf, .inr ⟨_, by simp, m, hm, rfl⟩⟩
  · split at h
    · simp only [Option.mem_toList, Option.map_eq_some_iff] at h
      obtain ⟨reason, -, rfl⟩ := h
      exact ⟨0, .ofInfo rejected (by simp [rules]) rfl rfl rfl rfl rfl, .inl rfl⟩
    · simp at h

theorem exists_quotes_of_mem_checkAll {parser : Option (Text → Option String)}
    (h : f ∈ checkAll document source parser) : ∃ line, f.Quotes rules source line := by
  obtain ⟨statement, -, h⟩ := List.mem_flatMap.mp h
  obtain ⟨offset, hf, -⟩ := quotes_of_mem_check h
  exact ⟨_, hf⟩

end StatementCheck

/-! ## Tables -/

namespace SchemaCheck

variable {source : Text} {table : Table} {f : Finding}

/-- The rules on keys and columns, whose findings stand where the table is defined. -/
def tableRules : List RuleInfo :=
  [missingKey, keyColumnUnknown, referenceColumnUnknown, referencedTableUnknown,
   referencedColumnUnknown, unknownType, unsupportedType, floatMoney, duplicateColumn]

/-- The rules on keys alone. -/
def keyRules : List RuleInfo :=
  [missingKey, keyColumnUnknown, referenceColumnUnknown, referencedTableUnknown,
   referencedColumnUnknown]

theorem quotes_about {infos : List RuleInfo} {info : RuleInfo} (hinfo : info ∈ infos)
    (column message : String) :
    (about info source table column message).Quotes infos source table.line :=
  .ofInfo info hinfo rfl rfl rfl rfl rfl

theorem quotes_keyRules_of_mem_checkKeys {tables : List Table}
    (h : f ∈ checkKeys source tables table) : f.Quotes keyRules source table.line := by
  simp only [checkKeys, List.mem_append, List.mem_flatMap] at h
  rcases h with h | ⟨key, -, h | h⟩
  · rw [checkPrimaryKey] at h
    split at h
    · rw [List.mem_singleton.mp h]
      exact .ofInfo missingKey (by simp [keyRules]) rfl rfl rfl rfl rfl
    · simp only [List.mem_map] at h
      obtain ⟨column, -, rfl⟩ := h
      exact quotes_about (by simp [keyRules]) _ _
  · rw [checkReferenceColumn] at h
    split at h
    · rw [List.mem_singleton.mp h]
      exact quotes_about (by simp [keyRules]) _ _
    · simp at h
  · rw [checkReferencedTable] at h
    split at h
    · rw [List.mem_singleton.mp h]
      exact .ofInfo referencedTableUnknown (by simp [keyRules]) rfl rfl rfl rfl rfl
    · split at h
      · rw [List.mem_singleton.mp h]
        exact quotes_about (by simp [keyRules]) _ _
      · simp at h

theorem quotes_of_mem_checkKeys {tables : List Table} (h : f ∈ checkKeys source tables table) :
    f.Quotes tableRules source table.line :=
  (quotes_keyRules_of_mem_checkKeys h).mono (by decide)

theorem quotes_of_mem_checkType {registry : Registry} {dialect : Option Dialect} {column : Column}
    (h : f ∈ checkType source registry dialect table column) :
    f.Quotes tableRules source table.line := by
  rw [checkType] at h
  split at h
  · rw [List.mem_singleton.mp h]
    exact quotes_about (by simp [tableRules]) _ _
  · rcases List.mem_append.mp h with h | h
    · unfold checkSupport at h
      split at h
      · simp at h
      · split at h
        · simp at h
        · rw [List.mem_singleton.mp h]
          exact .ofInfo unsupportedType (by simp [tableRules]) rfl rfl rfl rfl rfl
    · rw [checkMoney] at h
      split at h
      · rw [List.mem_singleton.mp h]
        exact .ofInfo floatMoney (by simp [tableRules]) rfl rfl rfl rfl rfl
      · simp at h

theorem quotes_of_mem_checkColumnsFrom {registry : Registry} {dialect : Option Dialect}
    {earlier columns : List Column}
    (h : f ∈ checkColumnsFrom source registry dialect table earlier columns) :
    f.Quotes tableRules source table.line := by
  induction columns generalizing earlier with
  | nil => simp [checkColumnsFrom] at h
  | cons column rest ih =>
    simp only [checkColumnsFrom, List.mem_append] at h
    rcases h with (h | h) | h
    · rw [checkDuplicate] at h
      split at h
      · rw [List.mem_singleton.mp h]
        exact quotes_about (by simp [tableRules]) _ _
      · simp at h
    · exact quotes_of_mem_checkType h
    · exact ih h

theorem quotes_of_mem_checkTable {registry : Registry} {dialect : Option Dialect}
    {tables : List Table}
    (h : f ∈ checkKeys source tables table ∨ f ∈ checkColumns source registry dialect table) :
    f.Quotes tableRules source table.line := by
  rcases h with h | h
  · exact quotes_of_mem_checkKeys h
  · exact quotes_of_mem_checkColumnsFrom h

/-- A skipped fragment is reported with its own line and text. -/
theorem of_checkSkipped {skipped : SkippedFragment} (h : checkSkipped skipped = some f) :
    (f.rule = unreadableColumn.id ∧ f.concern = unreadableColumn.concern ∧
      f.severity = unreadableColumn.severity) ∧
    f.line = some skipped.line ∧ f.fragment = skipped.fragment := by
  rw [checkSkipped] at h
  split at h
  · cases h
    exact ⟨⟨rfl, rfl, rfl⟩, rfl, by simp [RuleInfo.finding]⟩
  · cases h

end SchemaCheck

/-! ## Predicates -/

namespace PredicateCheck

variable {source : Text} {f : Finding}

theorem column?_isSome_of_owner? {uses : List TableUse} {qualifier : Option String}
    {column : String} {table : Table} (h : owner? uses qualifier column = some table) :
    (table.column? column).isSome = true := by
  cases qualifier with
  | some q =>
    rw [owner?, Option.filter_eq_some_iff] at h
    exact h.2
  | none =>
    have hfound := List.find?_some h
    exact hfound

/-- A column in use adds nothing, or a finding on a column that its table declares, in the spelling
of the declaration, with which no index of the table starts and which has not been reported. -/
theorem findingsFrom_cons (source : Text) (place : Nat → Nat) (uses : List TableUse)
    (reported : List (Text × Text)) (use : ColumnUse) (rest : List ColumnUse) :
    findingsFrom source place uses reported (use :: rest) =
        findingsFrom source place uses reported rest ∨
      ∃ table column, owner? uses use.qualifier use.column = some table ∧
        table.column? use.column = some column ∧ table.hasLeadingIndex use.column = false ∧
        reportKey table use.column ∉ reported ∧
        findingsFrom source place uses reported (use :: rest) =
          finding source (place use.offset) table column.name ::
            findingsFrom source place uses (reportKey table use.column :: reported) rest := by
  rw [findingsFrom]
  split
  · exact .inl rfl
  · rename_i table howner
    dsimp only
    split
    · exact .inl rfl
    · rename_i hnew
      rw [Bool.or_eq_true, not_or, Bool.not_eq_true, List.contains_iff_mem] at hnew
      obtain ⟨column, hcolumn⟩ := Option.isSome_iff_exists.mp (column?_isSome_of_owner? howner)
      refine .inr ⟨table, column, howner, hcolumn, hnew.1, hnew.2, ?_⟩
      rw [hcolumn]
      rfl

theorem of_mem_findingsFrom {place : Nat → Nat} {uses : List TableUse}
    {reported : List (Text × Text)} {columns : List ColumnUse}
    (h : f ∈ findingsFrom source place uses reported columns) :
    ∃ use ∈ columns, ∃ table column, owner? uses use.qualifier use.column = some table ∧
      table.column? use.column = some column ∧ table.hasLeadingIndex use.column = false ∧
      f = finding source (place use.offset) table column.name := by
  induction columns generalizing reported with
  | nil => simp [findingsFrom] at h
  | cons use rest ih =>
    rcases findingsFrom_cons source place uses reported use rest with
      heq | ⟨table, column, howner, hcolumn, hindex, -, heq⟩
    · rw [heq] at h
      obtain ⟨other, hother, hf⟩ := ih h
      exact ⟨other, List.mem_cons_of_mem _ hother, hf⟩
    · rw [heq] at h
      rcases List.mem_cons.mp h with rfl | h
      · exact ⟨use, List.mem_cons_self, table, column, howner, hcolumn, hindex, rfl⟩
      · obtain ⟨other, hother, hf⟩ := ih h
        exact ⟨other, List.mem_cons_of_mem _ hother, hf⟩

/-- Where a finding on a filtered column comes from in its statement. -/
theorem of_mem_check {document : Text} {tables : List Table} {statement : Statement}
    (h : f ∈ check document source tables statement) :
    ∃ m, predicatePattern.find? statement.text.mask = some m ∧
      ∃ use ∈ columnUses m.start.after, ∃ table column,
        owner? (tableUses tables statement.text.mask) use.qualifier use.column = some table ∧
        table.column? use.column = some column ∧ table.hasLeadingIndex use.column = false ∧
        f = finding source (document.lineAt (statement.offset + m.start.offset + use.offset))
          table column.name := by
  rw [check] at h
  split at h
  · simp at h
  · dsimp only at h
    split at h
    · simp at h
    · rename_i m hm
      exact ⟨m, hm, of_mem_findingsFrom h⟩

/-- A finding on a filtered column is on the line of the column. -/
theorem quotes_of_mem_check {document : Text} {tables : List Table} {statement : Statement}
    (h : f ∈ check document source tables statement) :
    ∃ m, predicatePattern.find? statement.text.mask = some m ∧
      ∃ use ∈ columnUses m.start.after, f.Quotes [SchemaCheck.missingIndex] source
        (document.lineAt (statement.offset + m.start.offset + use.offset)) := by
  obtain ⟨m, hm, use, huse, table, column, -, -, -, rfl⟩ := of_mem_check h
  exact ⟨m, hm, use, huse, .ofInfo SchemaCheck.missingIndex (by simp) rfl rfl rfl rfl rfl⟩

theorem exists_of_mem_checkAll {document : Text} {tables : List Table}
    (h : f ∈ checkAll document source tables) :
    ∃ statement ∈ document.statements, f ∈ check document source tables statement := by
  rw [checkAll] at h
  split at h
  · simp at h
  · exact List.mem_flatMap.mp h

theorem exists_quotes_of_mem_checkAll {document : Text} {tables : List Table}
    (h : f ∈ checkAll document source tables) :
    ∃ line, f.Quotes [SchemaCheck.missingIndex] source line := by
  obtain ⟨statement, -, h⟩ := exists_of_mem_checkAll h
  obtain ⟨m, -, use, -, hf⟩ := quotes_of_mem_check h
  exact ⟨_, hf⟩

end PredicateCheck

/-! ## Lines and statements together -/

namespace Analyzer

def scanRules : List RuleInfo := lineRules.map LineRule.info ++ StatementCheck.rules

theorem exists_quotes_of_mem_scan {a : Analyzer} (hrules : a.extraRules = [])
    {document source : Text} {f : Finding} (h : f ∈ a.scan document source) :
    ∃ line, f.Quotes scanRules source line := by
  rcases List.mem_append.mp h with h | h
  · obtain ⟨n, -, -, hf⟩ := quotes_of_mem_checkLines hrules h
    exact ⟨n, hf.mono fun info => List.mem_append_left _⟩
  · obtain ⟨line, hf⟩ := StatementCheck.exists_quotes_of_mem_checkAll h
    exact ⟨line, hf.mono fun info => List.mem_append_right _⟩

end Analyzer
end SqlAudit
