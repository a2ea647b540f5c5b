import Mathlib.Data.List.Basic
import Mathlib.Data.List.GetD
import SqlAudit.Proofs.Lexical.Locality
import SqlAudit.Proofs.Review.Anchoring
import SqlAudit.Proofs.Sorting

/-!
Analyses of scripts that follow each other.  A script that ends in a newline and leaves no quote,
comment or statement open is analysed as if nothing came after it, and what comes after it as if
nothing came before, except that its lines are counted on.
-/

namespace SqlAudit

open Text

/-! ## Lines of a text after another one -/

namespace Text

theorem lines_append_of_newline {a : Text} (hnewline : a.getLast? = some '\n') (b : Text) :
    (a ++ b).lines = a.lines ++ b.lines := by
  obtain ⟨front, rfl⟩ := List.getLast?_eq_some_iff.mp hnewline
  rw [List.append_assoc, List.singleton_append, lines_append_newline]

theorem length_lines_of_newline {a : Text} (hnewline : a.getLast? = some '\n') :
    a.lines.length = a.count '\n' := by
  obtain ⟨front, rfl⟩ := List.getLast?_eq_some_iff.mp hnewline
  exact length_lines_ending_in_newline front

theorem line_append_left {a : Text} (hnewline : a.getLast? = some '\n') (b : Text) {n : Nat}
    (hone : 1 ≤ n) (hlast : n ≤ a.lines.length) : (a ++ b).line n = a.line n := by
  rw [line, line, lines_append_of_newline hnewline, List.getD_append _ _ _ _ (by omega)]

theorem line_append_right {a : Text} (hnewline : a.getLast? = some '\n') (b : Text) {n : Nat}
    (hone : 1 ≤ n) : (a ++ b).line (a.count '\n' + n) = b.line n := by
  have hlength := length_lines_of_newline hnewline
  rw [line, line, lines_append_of_newline hnewline, List.getD_append_right _ _ _ _ (by omega)]
  congr 1
  omega

end Text

/-- Blanking keeps a newline at the end. -/
theorem Blanking.getLast?_eq_newline {t u : Text} (h : Blanking t u)
    (hnewline : t.getLast? = some '\n') : u.getLast? = some '\n' := by
  have hend : ∀ (front u : Text), Blanking (front ++ ['\n']) u → u.getLast? = some '\n' := by
    intro front
    induction front with
    | nil =>
      intro u h
      cases h with
      | keep _ h =>
        cases h
        rfl
      | blank hc _ => exact absurd rfl hc
    | cons c rest ih =>
      intro u h
      cases h with
      | keep _ h => rw [List.getLast?_cons, ih _ h]; rfl
      | blank _ h => rw [List.getLast?_append, ih _ h]; rfl
  obtain ⟨front, rfl⟩ := List.getLast?_eq_some_iff.mp hnewline
  exact hend front u h

/-! ## Findings on later lines -/

namespace Finding

/-- The finding when a number of lines stands before the text. -/
def below (lines : Nat) (f : Finding) : Finding := { f with line := f.line.map (lines + ·) }

theorem below_zero (f : Finding) : f.below 0 = f := by
  simp [below]

theorem place_below {lines n : Nat} {f : Finding} (hline : f.line = some n) :
    (f.below lines).place = lines + f.place := by
  simp [place, below, hline]

/-- Findings that name a line keep their order when they are moved. -/
theorem before_below (lines : Nat) {f g : Finding} {m n : Nat} (hf : f.line = some m)
    (hg : g.line = some n) : before f g = before (f.below lines) (g.below lines) := by
  have hiff := before_iff (f.below lines) (g.below lines)
  rw [place_below hf, place_below hg] at hiff
  rw [Bool.eq_iff_iff, before_iff, hiff]
  simp only [Nat.add_lt_add_iff_left, Nat.add_left_cancel_iff]
  rfl

/-- Findings that stand on the first lines, mixed with findings below these, are sorted apart. -/
theorem sort_mixed_below {lines : Nat} {first second first' second' : List Finding}
    (hfirst : ∀ f ∈ first ++ first', ∃ n, f.line = some n ∧ n ≤ lines)
    (hsecond : ∀ f ∈ second ++ second', ∃ n, f.line = some n ∧ 1 ≤ n) :
    sort (first ++ second.map (below lines) ++ (first' ++ second'.map (below lines))) =
      sort (first ++ first') ++ (sort (second ++ second')).map (below lines) := by
  have hpos : ∀ f ∈ first ++ first', decide (f.place ≤ lines) = true := by
    intro f hf
    obtain ⟨n, hline, hn⟩ := hfirst f hf
    simpa [place, hline] using hn
  have hneg : ∀ f ∈ second ++ second', decide ((f.below lines).place ≤ lines) = false := by
    intro f hf
    obtain ⟨n, hline, hn⟩ := hsecond f hf
    rw [place_below hline, place, hline]
    simp
    omega
  have hlower : ∀ f ∈ second.map (below lines) ++ second'.map (below lines),
      decide (f.place ≤ lines) = false := by
    intro f hf
    rw [← List.map_append] at hf
    obtain ⟨found, hfound, rfl⟩ := List.mem_map.mp hf
    exact hneg found hfound
  have hinitial : ∀ f g : Finding, before f g = true → decide (g.place ≤ lines) = true →
      decide (f.place ≤ lines) = true := by
    intro f g hfg hg
    rw [before_iff] at hfg
    rw [decide_eq_true_eq] at hg ⊢
    omega
  rw [sort, mergeSort_mixed before_trans before_total hinitial hpos hlower, ← List.map_append,
    sort, sort, List.map_mergeSort]
  intro f hf g hg
  obtain ⟨m, hm, -⟩ := hsecond f hf
  obtain ⟨n, hn, -⟩ := hsecond g hg
  exact before_below lines hm hn

theorem totalPenalty_append (fs gs : List Finding) :
    totalPenalty (fs ++ gs) = totalPenalty fs + totalPenalty gs := by
  induction fs with
  | nil => simp [totalPenalty]
  | cons f rest ih =>
    rw [List.cons_append, totalPenalty, totalPenalty, ih]
    omega

theorem totalPenalty_map_below (lines : Nat) (fs : List Finding) :
    totalPenalty (fs.map (below lines)) = totalPenalty fs := by
  induction fs with
  | nil => rfl
  | cons f rest ih => rw [List.map_cons, totalPenalty, totalPenalty, ih]; rfl

end Finding

open Finding

theorem LineRule.check_below (rule : LineRule) (line : SourceLine) (lines : Nat) :
    rule.check { line with number := lines + line.number } =
      (rule.check line).map (below lines) := by
  have hfires : rule.fires { line with number := lines + line.number } = rule.fires line := rfl
  rw [LineRule.check, LineRule.check, hfires]
  split <;> rfl

namespace StatementCheck

/-- A statement has the same text in another document, with the same source below a number of
lines. -/
structure Moves (lines : Nat) (document source : Text) (statement : Statement)
    (document' source' : Text) (statement' : Statement) : Prop where
  text_eq : statement'.text = statement.text
  lineAt_eq : ∀ offset < size statement.text,
    document'.lineAt (statement'.offset + offset) =
      lines + document.lineAt (statement.offset + offset)
  line_eq : ∀ offset < size statement.text,
    source'.line (lines + document.lineAt (statement.offset + offset)) =
      source.line (document.lineAt (statement.offset + offset))

variable {lines : Nat} {document source document' source' : Text} {statement statement' : Statement}

theorem placeFindings_of_moves
    (h : Moves lines document source statement document' source' statement') {pattern : Pattern}
    (hwide : 0 < pattern.minWidth) (rule : RuleInfo) (message suggestion : String) :
    placeFindings document' source' statement' pattern rule message suggestion =
      (placeFindings document source statement pattern rule message suggestion).map
        (below lines) := by
  rw [placeFindings, placeFindings, h.text_eq, List.map_map]
  apply List.map_congr_left
  intro m hm
  obtain ⟨hreach, hmatch⟩ := Pattern.of_mem_findAll hm
  have hoffset := Pattern.start_offset_lt hwide hreach hmatch
  rw [size_mask] at hoffset
  simp only [h.lineAt_eq _ hoffset, h.line_eq _ hoffset]
  rfl

theorem balanceFinding?_below (b : Balance) (line : Nat) (fragment : Text) (lines : Nat) :
    balanceFinding? b (lines + line) fragment =
      (balanceFinding? b line fragment).map (below lines) := by
  obtain ⟨found, -, heq⟩ := exists_balanceFinding?_eq b
  rw [heq, heq, Option.map_map]
  rfl

/-- What is found on a statement moves with it. -/
theorem check_of_moves (h : Moves lines document source statement document' source' statement')
    (hne : statement.text ≠ []) (parser : Option (Text → Option String)) :
    check document' source' parser statement' =
      (check document source parser statement).map (below lines) := by
  have hpos := size_pos_of_ne_nil hne
  have hline := h.lineAt_eq 0 hpos
  have hsource := h.line_eq 0 hpos
  rw [Nat.add_zero, Nat.add_zero] at hline
  rw [Nat.add_zero] at hsource
  simp only [check, h.text_eq, hline, hsource, List.map_append, ← Option.toList_map]
  rw [balanceFinding?_below, placeFindings_of_moves h (by decide),
    placeFindings_of_moves h (by decide)]
  congr 1
  split
  · rw [← Option.toList_map, Option.map_map]
    rfl
  · rfl

end StatementCheck
namespace Analyzer

/-! ## Passes over two scripts -/

/-- A script that can be followed by another one: it ends in a newline outside quotes and block
comments, and its last character that is neither blank nor in a comment, if there is one, is a
semicolon outside quotes. -/
structure SelfContained (a : Analyzer) (script : Text) : Prop where
  newline : script.getLast? = some '\n'
  outside : (script.commentState (a.dialect = .mysql)).IsOutside
  terminated : (a.withoutComments script).Terminated

variable {a : Analyzer} {script : Text}

theorem blanking_withoutComments (a : Analyzer) (t : Text) : Blanking t (a.withoutComments t) :=
  blanking_blankComments t _

theorem getLast?_withoutComments (h : a.SelfContained script) :
    (a.withoutComments script).getLast? = some '\n' :=
  (a.blanking_withoutComments script).getLast?_eq_newline h.newline

theorem withoutComments_append (h : a.SelfContained script) (hscript : '\\' ∉ script)
    {rest : Text} (hrest : '\\' ∉ rest) :
    a.withoutComments (script ++ rest) = a.withoutComments script ++ a.withoutComments rest :=
  blankComments_append hscript hrest h.newline h.outside

theorem sourceLines_append (h : a.SelfContained script) (document rest : Text) :
    sourceLines (a.withoutComments script ++ document) (script ++ rest) =
      sourceLines (a.withoutComments script) script ++ (sourceLines document rest).map fun line =>
        { line with number := script.count '\n' + line.number } := by
  have hlength : (a.withoutComments script).lines.length = script.lines.length :=
    (a.blanking_withoutComments script).length_lines_eq
  have hzip : ((a.withoutComments script).lines.zip script.lines).length = script.count '\n' := by
    rw [List.length_zip, hlength, Nat.min_self, length_lines_of_newline h.newline]
  simp only [sourceLines]
  rw [lines_append_of_newline (getLast?_withoutComments h), lines_append_of_newline h.newline,
    List.zip_append hlength, List.zipIdx_append, List.filterMap_append, hzip]
  congr 1
  rw [List.zipIdx_eq_map_add (i := 1 + _), List.zipIdx_eq_map_add (i := 1), List.filterMap_map,
    List.filterMap_map, List.map_filterMap]
  congr 1
  funext entry
  obtain ⟨pair, i⟩ := entry
  have hnumber : 1 + script.count '\n' + i = script.count '\n' + (1 + i) := by omega
  simp only [Function.comp, hnumber]
  split <;> rfl

theorem checkLines_append (hrules : a.extraRules = []) (h : a.SelfContained script)
    (document rest : Text) :
    a.checkLines (a.withoutComments script ++ document) (script ++ rest) =
      a.checkLines (a.withoutComments script) script ++
        (a.checkLines document rest).map (below (script.count '\n')) := by
  simp only [checkLines, sourceLines_append h, List.flatMap_append, List.flatMap_map,
    List.map_flatMap, List.map_filterMap]
  congr 2
  funext line
  apply List.filterMap_congr
  intro rule hrule
  simp only [rules, hrules, List.append_nil, List.mem_filter, List.mem_map] at hrule
  obtain ⟨⟨lineRule, -, rfl⟩, -⟩ := hrule
  exact lineRule.check_below line _

theorem checkAll_append (h : a.SelfContained script) (hscript : '\\' ∉ script) {rest : Text}
    (hrest : '\\' ∉ rest) (parser : Option (Text → Option String)) :
    StatementCheck.checkAll (a.withoutComments script ++ a.withoutComments rest) (script ++ rest)
        parser =
      StatementCheck.checkAll (a.withoutComments script) script parser ++
        (StatementCheck.checkAll (a.withoutComments rest) rest parser).map
          (below (script.count '\n')) := by
  have hblanking := a.blanking_withoutComments script
  have hdocument := no_backslash_of_blanking hblanking hscript
  have hothers := no_backslash_of_blanking (a.blanking_withoutComments rest) hrest
  have hclosed : (a.withoutComments script).quoteState .standard = .code :=
    quoteState_blankComments hscript h.newline h.outside
  simp only [StatementCheck.checkAll, List.map_flatMap]
  rw [statements_append hdocument hothers hclosed h.terminated, List.flatMap_append,
    List.flatMap_map]
  congr 1
  · apply List.flatMap_congr
    intro statement hstatement
    -- Inside the first script every offset lies before what was added, so nothing moves.
    have hmoves : StatementCheck.Moves 0 (a.withoutComments script) script statement
        (a.withoutComments script ++ a.withoutComments rest) (script ++ rest) statement := by
      refine ⟨rfl, fun offset hoffset => ?_, fun offset hoffset => ?_⟩
      · rw [lineAt_append_left (offset_add_lt_size hstatement hoffset), Nat.zero_add]
      · have hline : (a.withoutComments script).IsLineOf
            ((a.withoutComments script).lineAt (statement.offset + offset)) :=
          ⟨_, offset_add_lt_size hstatement hoffset, rfl⟩
        obtain ⟨hone, hlast⟩ := hblanking.bounds hline
        rw [Nat.zero_add, line_append_left h.newline rest hone hlast]
    have hcheck := StatementCheck.check_of_moves hmoves (text_ne_nil_of_mem_statements hstatement)
      parser
    rw [List.map_congr_left (fun f _ => below_zero f), List.map_id'] at hcheck
    exact hcheck
  · apply List.flatMap_congr
    intro statement hstatement
    have hmoves : StatementCheck.Moves (script.count '\n') (a.withoutComments rest) rest statement
        (a.withoutComments script ++ a.withoutComments rest) (script ++ rest)
        { statement with offset := size (a.withoutComments script) + statement.offset } := by
      refine ⟨rfl, fun offset hoffset => ?_, fun offset hoffset => ?_⟩
      · rw [Nat.add_assoc, lineAt_append_right, hblanking.count_newline_eq]
      · exact line_append_right h.newline rest (one_le_lineAt _ _)
    exact StatementCheck.check_of_moves hmoves (text_ne_nil_of_mem_statements hstatement) parser

/-! ## Scripts one after the other -/

/-- The findings of enabled rules, adjusted but not sorted. -/
def adjusted (a : Analyzer) (fs : List Finding) : List Finding :=
  (fs.filter fun f => !a.settings.rules.isDisabled f.rule).map a.adjust

theorem adjusted_append (a : Analyzer) (fs gs : List Finding) :
    a.adjusted (fs ++ gs) = a.adjusted fs ++ a.adjusted gs := by
  rw [adjusted, List.filter_append, List.map_append]
  rfl

theorem adjusted_map_below (a : Analyzer) (lines : Nat) (fs : List Finding) :
    a.adjusted (fs.map (below lines)) = (a.adjusted fs).map (below lines) := by
  rw [adjusted, adjusted, List.filter_map, List.map_map, List.map_map]
  rfl

theorem exists_line_of_mem_adjusted (hrules : a.extraRules = []) {f : Finding}
    (h : f ∈ a.adjusted (a.scan (a.withoutComments script) script)) :
    ∃ n, f.line = some n ∧ 1 ≤ n ∧ n ≤ script.lines.length := by
  simp only [adjusted, List.mem_map, List.mem_filter] at h
  obtain ⟨found, ⟨hfound, -⟩, rfl⟩ := h
  obtain ⟨infos, n, -, hone, hlast, hquotes⟩ := quotes_of_mem_scan hrules hfound
  exact ⟨n, hquotes.line_eq, hone, hlast⟩

/-- A script that is self-contained keeps its findings when another one follows, and the other one
keeps its own, on lines that are counted on.  Each finding takes the points that it took before. -/
theorem analyze_append (registry : Registry) (settings : Settings)
    (parser : Dialect → Text → Option String) (script rest : Text) (hscript : '\\' ∉ script)
    (hrest : '\\' ∉ rest) (h : SelfContained { registry, settings, parser } script) :
    analyze { registry, settings, parser } (script ++ rest) =
        analyze { registry, settings, parser } script ++
          (analyze { registry, settings, parser } rest).map (below (script.count '\n')) ∧
      totalPenalty (analyze { registry, settings, parser } (script ++ rest)) =
        totalPenalty (analyze { registry, settings, parser } script) +
          totalPenalty (analyze { registry, settings, parser } rest) := by
  generalize ha : ({ registry, settings, parser } : Analyzer) = a at h ⊢
  have hrules : a.extraRules = [] := by rw [← ha]
  have hfindings : a.analyze (script ++ rest) =
      a.analyze script ++ (a.analyze rest).map (below (script.count '\n')) := by
    have hfirst : ∀ f ∈ a.adjusted (a.scan (a.withoutComments script) script),
        ∃ n, f.line = some n ∧ n ≤ script.count '\n' := by
      intro f hf
      obtain ⟨n, hline, -, hlast⟩ := exists_line_of_mem_adjusted hrules hf
      rw [length_lines_of_newline h.newline] at hlast
      exact ⟨n, hline, hlast⟩
    have hsecond : ∀ f ∈ a.adjusted (a.scan (a.withoutComments rest) rest),
        ∃ n, f.line = some n ∧ 1 ≤ n := by
      intro f hf
      obtain ⟨n, hline, hone, -⟩ := exists_line_of_mem_adjusted hrules hf
      exact ⟨n, hline, hone⟩
    rw [scan, adjusted_append] at hfirst hsecond
    have hsorted := sort_mixed_below hfirst hsecond
    show sort (a.adjusted (a.scan _ _)) = sort (a.adjusted (a.scan _ _)) ++
      (sort (a.adjusted (a.scan _ _))).map _
    rw [withoutComments_append h hscript hrest, scan, checkLines_append hrules h,
      checkAll_append h hscript hrest, adjusted_append, adjusted_append, adjusted_append,
      adjusted_map_below, adjusted_map_below, hsorted, scan, scan, adjusted_append,
      adjusted_append]
  refine ⟨hfindings, ?_⟩
  rw [hfindings, totalPenalty_append, totalPenalty_map_below]

/-- A single finding stands where it is found, in whatever order findings are put. -/
theorem map_analyze_eq_singleton {a : Analyzer} {source : Text} {β : Type} {key : Finding → β} {x : β}
    (h : (a.adjusted (a.scan (a.withoutComments source) source)).map key = [x]) :
    (a.analyze source).map key = [x] :=
  List.perm_singleton.mp (((List.mergeSort_perm _ before).map key).trans (.of_eq h))

/-- A quote in a comment between two scripts with one finding each. -/
theorem analyze_append_after_comment :
    SelfContained { registry := {} } "SELECT * FROM t;\n-- it's done\n".toList ∧
    analyze { registry := {} }
        ("SELECT * FROM t;\n-- it's done\n".toList ++ "DROP TABLE t".toList) =
      analyze { registry := {} } "SELECT * FROM t;\n-- it's done\n".toList ++
        (analyze { registry := {} } "DROP TABLE t".toList).map (below 2) ∧
    (analyze { registry := {} } ("SELECT * FROM t;\n-- it's done\n".toList ++
        "DROP TABLE t".toList)).map (fun f => (f.rule, f.line)) =
      [("PERF001", some 1), ("SEC003", some 3)] := by
  have hself : SelfContained { registry := {} } "SELECT * FROM t;\n-- it's done\n".toList := by
    refine ⟨by decide, by decide +kernel, fun m hm => ?_⟩
    have hlast : ((marks .standard "SELECT * FROM t;\n            \n".toList).filter
        (!isBlank ·.char)).getLast? = some ⟨';', false⟩ := by decide +kernel
    have hdocument : withoutComments { registry := {} } "SELECT * FROM t;\n-- it's done\n".toList =
        "SELECT * FROM t;\n            \n".toList := by decide +kernel
    rw [hdocument, marks_of_no_backslash (by decide +kernel), hlast] at hm
    cases hm
    rfl
  have happend : analyze { registry := {} }
        ("SELECT * FROM t;\n-- it's done\n".toList ++ "DROP TABLE t".toList) =
      analyze { registry := {} } "SELECT * FROM t;\n-- it's done\n".toList ++
        (analyze { registry := {} } "DROP TABLE t".toList).map (below 2) :=
    (analyze_append _ _ _ _ _ (by decide +kernel) (by decide +kernel) hself).1
  have hfirst : (analyze { registry := {} } "SELECT * FROM t;\n-- it's done\n".toList).map
      (fun f => (f.rule, f.line)) = [("PERF001", some 1)] :=
    map_analyze_eq_singleton (by decide +kernel)
  have hsecond : ((analyze { registry := {} } "DROP TABLE t".toList).map (below 2)).map
      (fun f => (f.rule, f.line)) = [("SEC003", some 3)] := by
    rw [List.map_map]
    exact map_analyze_eq_singleton (by decide +kernel)
  refine ⟨hself, happend, ?_⟩
  rw [happend, List.map_append, hfirst, hsecond]
  rfl

end Analyzer
end SqlAudit
