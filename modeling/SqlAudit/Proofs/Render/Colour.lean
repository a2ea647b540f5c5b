import SqlAudit.Proofs.Text.Numeral
import SqlAudit.Render.Basic

/-!
Colour in reports.  Whatever writes a styled text as one escape sequence, the text and one more
sequence, a coloured report without its sequences is the plain one.
-/

namespace SqlAudit

/-! ## Taking sequences out -/

namespace Text

/-- A character of the numbers in an escape sequence. -/
def isCode (c : Char) : Bool := c.isDigit || c == ';'

/-- What follows a sequence that switches styles, if a text starts with one. -/
def afterSequence? : Text → Option Text
  | '\x1b' :: '[' :: rest =>
    match rest.dropWhile isCode with
    | 'm' :: after => some after
    | _ => none
  | _ => none

theorem length_lt_of_afterSequence? {t after : Text} (h : afterSequence? t = some after) :
    after.length < t.length := by
  unfold afterSequence? at h
  split at h
  · rename_i rest
    split at h
    · rename_i hdrop
      have hlength := (rest.dropWhile_suffix isCode).length_le
      rw [hdrop, List.length_cons] at hlength
      rw [← Option.some.inj h, List.length_cons, List.length_cons]
      omega
    · cases h
  · cases h

/-- A text without the sequences that switch styles. -/
def withoutSequences : Text → Text
  | [] => []
  | c :: rest =>
    match hafter : afterSequence? (c :: rest) with
    | some after =>
      have := length_lt_of_afterSequence? hafter
      withoutSequences after
    | none => c :: withoutSequences rest
termination_by t => t.length
decreasing_by
  · exact this
  · exact Nat.lt_succ_self rest.length

variable {t : Text}

theorem withoutSequences_of_some {after : Text} (h : afterSequence? t = some after) :
    withoutSequences t = withoutSequences after := by
  cases t with
  | nil => cases h
  | cons c rest =>
    rw [withoutSequences]
    split
    · rename_i other hother
      rw [h] at hother
      rw [Option.some.inj hother]
    · rename_i hnone
      rw [h] at hnone
      cases hnone

theorem withoutSequences_cons {c : Char} (hc : c ≠ '\x1b') :
    withoutSequences (c :: t) = c :: withoutSequences t := by
  have hnone : afterSequence? (c :: t) = none := by
    unfold afterSequence?
    split
    · rename_i heq
      exact absurd (List.cons.inj heq).1 hc
    · rfl
  rw [withoutSequences]
  split
  · rename_i other hother
    rw [hnone] at hother
    cases hother
  · rfl

theorem withoutSequences_append (h : '\x1b' ∉ t) (u : Text) :
    withoutSequences (t ++ u) = t ++ withoutSequences u := by
  induction t with
  | nil => rfl
  | cons c t ih =>
    rw [List.mem_cons, not_or] at h
    rw [List.cons_append, withoutSequences_cons (Ne.symm h.1), ih h.2, List.cons_append]

theorem splitOnce?_eq_none {c : Char} {needle t : Text} (h : c ∉ t) :
    splitOnce? (c :: needle) t = none := by
  induction t with
  | nil => rfl
  | cons d t ih =>
    rw [List.mem_cons, not_or] at h
    rw [splitOnce?, if_neg (by simp [h.1]), ih h.2]
    rfl

/-- A sequence that switches styles. -/
def IsSequence (t : Text) : Prop :=
  ∃ codes : Text, (∀ c ∈ codes, isCode c = true) ∧ t = '\x1b' :: '[' :: (codes ++ ['m'])

theorem withoutSequences_sequence {s : Text} (h : IsSequence s) (u : Text) :
    withoutSequences (s ++ u) = withoutSequences u := by
  obtain ⟨codes, hcodes, rfl⟩ := h
  apply withoutSequences_of_some
  show afterSequence? ('\x1b' :: '[' :: (codes ++ ['m'] ++ u)) = some u
  have hdrop : (codes ++ ['m'] ++ u).dropWhile isCode = 'm' :: u := by
    rw [List.append_assoc, List.dropWhile_append_of_pos hcodes]
    rfl
  unfold afterSequence?
  simp only [hdrop]

/-! ## Texts with sequences put in -/

/-- Without its sequences a text is another one, whatever follows. -/
def Colours (x y : Text) : Prop :=
  ∀ u, withoutSequences (x ++ u) = y ++ withoutSequences u

namespace Colours

variable {x y x' y' : Text}

theorem of_not_mem (h : '\x1b' ∉ x) : Colours x x := withoutSequences_append h

theorem of_isSequence (h : IsSequence x) : Colours x [] := withoutSequences_sequence h

theorem append (h : Colours x y) (h' : Colours x' y') : Colours (x ++ x') (y ++ y') := by
  intro u
  rw [List.append_assoc, h, h', List.append_assoc]

theorem withoutSequences_eq (h : Colours x y) : withoutSequences x = y := by
  have hend := h []
  rwa [List.append_nil, withoutSequences, List.append_nil] at hend

theorem flatMap {α : Type} {f g : α → Text} {l : List α} (h : ∀ a ∈ l, Colours (f a) (g a)) :
    Colours (l.flatMap f) (l.flatMap g) := by
  induction l with
  | nil => exact fun u => rfl
  | cons a l ih =>
    rw [List.forall_mem_cons] at h
    exact h.1.append (ih h.2)

theorem intercalate {α : Type} {f g : α → Text} {l : List α} {sep : Text} (hsep : '\x1b' ∉ sep)
    (h : ∀ a ∈ l, Colours (f a) (g a)) :
    Colours (sep.intercalate (l.map f)) (sep.intercalate (l.map g)) := by
  induction l with
  | nil => exact fun u => rfl
  | cons a l ih =>
    rw [List.forall_mem_cons] at h
    cases l with
    | nil => simpa using h.1
    | cons b more =>
      rw [List.map_cons, List.map_cons, List.map_cons, List.map_cons, List.intercalate_cons_cons,
        List.intercalate_cons_cons]
      exact (h.1.append (.of_not_mem hsep)).append (ih h.2)

end Colours

theorem not_mem_intercalate {c : Char} {sep : Text} (hsep : c ∉ sep) {ts : List Text}
    (h : ∀ t ∈ ts, c ∉ t) : c ∉ sep.intercalate ts := by
  induction ts with
  | nil => simp
  | cons t ts ih =>
    rw [List.forall_mem_cons] at h
    cases ts with
    | nil => simpa using h.1
    | cons t' more =>
      rw [List.intercalate_cons_cons, List.mem_append, List.mem_append, not_or, not_or]
      exact ⟨⟨h.1, hsep⟩, ih h.2⟩

end Text

/-! ## Painters -/

namespace Painter

open Text

/-- A text without escapes is written as one sequence, the text and one more sequence. -/
def Wraps (paint : Painter) : Prop :=
  ∀ (ink : Ink) (t : Text), '\x1b' ∉ t → ∃ opening reset, IsSequence opening ∧ IsSequence reset ∧
    paint ink t = opening ++ (t ++ reset)

theorem Wraps.colours {paint : Painter} (hpaint : paint.Wraps) {t : Text} (h : '\x1b' ∉ t)
    (ink : Ink) : Colours (paint ink t) t := by
  obtain ⟨opening, reset, hopening, hreset, hwritten⟩ := hpaint ink t h
  have hcolours : Colours (opening ++ (t ++ reset)) ([] ++ (t ++ [])) :=
    (Colours.of_isSequence hopening).append
      ((Colours.of_not_mem h).append (Colours.of_isSequence hreset))
  rwa [List.nil_append, List.append_nil, ← hwritten] at hcolours

end Painter

namespace Ink

open Text

theorem isSequence_sequence {codes : String} (h : codes.toList.all isCode = true) :
    IsSequence (sequence codes) :=
  ⟨codes.toList, List.all_eq_true.mp h, rfl⟩

theorem wraps_paint : Painter.Wraps paint := by
  intro ink t h
  have hcodes : ink.codes.toList.all isCode = true := by cases ink <;> rfl
  -- A reset inside the text would switch the ink on again; without escapes there is none.
  have hreplace : t.replace reset (reset ++ sequence ink.codes) = t := by
    have hreset : reset = '\x1b' :: reset.tail := rfl
    rw [Text.replace, hreset, if_neg (by simp)]
    cases t with
    | nil => rfl
    | cons c rest => rw [List.length_cons, replaceFrom, splitOnce?_eq_none h]
  refine ⟨sequence ink.codes, reset, isSequence_sequence hcodes, isSequence_sequence rfl, ?_⟩
  rw [paint]
  simp only [hreplace, List.append_assoc]

end Ink

/-! ## Strings without escapes -/

def EscapeFree (s : String) : Prop := '\x1b' ∉ s.toList

instance (s : String) : Decidable (EscapeFree s) := inferInstanceAs (Decidable (_ ∉ _))

namespace EscapeFree

@[simp] theorem append_iff (a b : String) : EscapeFree (a ++ b) ↔ EscapeFree a ∧ EscapeFree b := by
  rw [EscapeFree, String.toList_append, List.mem_append, not_or]
  rfl

@[simp] theorem toString_iff (s : String) : EscapeFree (toString s) ↔ EscapeFree s := Iff.rfl

theorem ofList_iff (t : Text) : EscapeFree (String.ofList t) ↔ '\x1b' ∉ t := by
  rw [EscapeFree, String.toList_ofList]

theorem not_mem_toDigits (n : Nat) : '\x1b' ∉ Nat.toDigits 10 n := by
  intro h
  exact absurd (Nat.isDigit_of_mem_toDigits (by decide) (by decide) h) (by decide)

@[simp] theorem repr_nat (n : Nat) : EscapeFree n.repr := by
  rw [EscapeFree, Nat.toList_repr]
  exact not_mem_toDigits n

theorem intercalate {sep : String} (hsep : EscapeFree sep) {l : List String}
    (h : ∀ s ∈ l, EscapeFree s) : EscapeFree (sep.intercalate l) := by
  rw [EscapeFree, String.toList_intercalate]
  exact Text.not_mem_intercalate hsep (List.forall_mem_map.mpr h)

theorem not_mem_placed (places units : Nat) : '\x1b' ∉ Decimal.placed places units := by
  rw [Decimal.placed]
  by_cases hplaces : places = 0
  · simp [hplaces, Decimal.digitsOf, not_mem_toDigits]
  · simp [hplaces, Decimal.digitsOf, not_mem_toDigits]

theorem not_mem_fixed (places : Nat) (b : Binary) : '\x1b' ∉ b.fixed places :=
  not_mem_placed places _

end EscapeFree

/-- The strings of a finding that are shown have no escapes. -/
structure Finding.Clean (f : Finding) : Prop where
  rule : EscapeFree f.rule
  message : EscapeFree f.message
  fragment : EscapeFree f.fragment
  suggestion : ∀ s ∈ f.suggestion, EscapeFree s

structure Table.Clean (t : Table) : Prop where
  name : EscapeFree t.name
  columns : ∀ column ∈ t.columns, EscapeFree column.name ∧ EscapeFree column.type

structure IndexSuggestion.Clean (s : IndexSuggestion) : Prop where
  table : EscapeFree s.table
  columns : ∀ column ∈ s.columns, EscapeFree column
  reason : EscapeFree s.reason

structure TypeMigration.Clean (m : TypeMigration) : Prop where
  table : EscapeFree m.table
  column : EscapeFree m.column
  type : EscapeFree m.type
  candidates : ∀ candidate ∈ m.candidates, EscapeFree candidate
  path : ∀ steps ∈ m.path, ∀ step ∈ steps, EscapeFree step

/-- The strings of a report with its source that are shown have no escapes. -/
structure SourceReport.Clean (s : SourceReport) : Prop where
  source : EscapeFree s.source
  tables : ∀ table ∈ s.report.tables, table.Clean
  findings : ∀ finding ∈ s.report.findings, finding.Clean
  indexes : ∀ index ∈ s.report.indexes, index.Clean
  migrations : ∀ migration ∈ s.report.migrations, migration.Clean
  advice : ∀ line ∈ s.report.advice, EscapeFree line

/-! ## Pieces -/

namespace Piece

def Clean (p : Piece) : Prop := '\x1b' ∉ p.text

@[simp] theorem clean_plain_iff (s : String) : (plain s).Clean ↔ EscapeFree s := Iff.rfl

@[simp] theorem clean_styled_iff (style : Style) (s : String) :
    (styled style s).Clean ↔ EscapeFree s := Iff.rfl

/-- Colour adds nothing to a piece but sequences. -/
theorem Clean.colours {p : Piece} (h : p.Clean) {paint : Painter} (hpaint : paint.Wraps) :
    Text.Colours (p.render paint true) (p.render paint false) := by
  obtain ⟨style, t⟩ := p
  cases style with
  | none => exact .of_not_mem h
  | some style => exact hpaint.colours h style.ink

end Piece

namespace Styled

open Piece EscapeFree

variable {verbose : Bool}

theorem escapeFree_padded {s : String} (h : EscapeFree s) (width : Nat) :
    EscapeFree (padded width s) := by
  rw [padded, append_iff, ofList_iff, List.mem_replicate]
  exact ⟨h, fun hmem => absurd hmem.2 (by decide)⟩

theorem escapeFree_place (f : Finding) : EscapeFree (place f) := by
  rw [place]
  split
  · simp +decide
  · decide

theorem clean_finding {f : Finding} (h : f.Clean) : ∀ p ∈ finding verbose f, p.Clean := by
  have hlabel : EscapeFree f.severity.label := by cases f.severity <;> decide
  have hconcern : EscapeFree f.concern.label := by cases f.concern <;> decide
  rw [finding]
  refine List.forall_mem_append.mpr ⟨List.forall_mem_append.mpr
    ⟨List.forall_mem_append.mpr ⟨?head, ?fragment⟩, ?suggestion⟩, ?confidence⟩
  case head =>
    simp +decide [escapeFree_padded hlabel, h.rule, hconcern, escapeFree_place, h.message]
  case fragment =>
    split
    · exact List.forall_mem_nil _
    · simp +decide [h.fragment]
  case suggestion =>
    split
    · rename_i suggestion hsome
      simp +decide [h.suggestion suggestion hsome]
    · exact List.forall_mem_nil _
  case confidence =>
    split
    · have hconfidence := (ofList_iff _).mpr (not_mem_fixed 2 (Binary.ofSingle f.confidence))
      simp +decide [hconfidence]
    · exact List.forall_mem_nil _

theorem clean_heading {s : SourceReport} (h : s.Clean) : ∀ p ∈ heading s, p.Clean := by
  simp +decide [heading, h.source]

theorem clean_table {t : Table} (h : t.Clean) : (table t).Clean := by
  have hcolumns : EscapeFree (", ".intercalate (t.columns.map fun c => s!"{c.name} {c.type}")) := by
    refine EscapeFree.intercalate (by decide) (List.forall_mem_map.mpr fun column hcolumn => ?_)
    simp +decide [h.columns column hcolumn]
  simp +decide [table, h.name, hcolumns]

theorem clean_tables {r : Report} (h : ∀ table ∈ r.tables, table.Clean) :
    ∀ p ∈ tables r, p.Clean := by
  rw [tables]
  split
  · exact List.forall_mem_nil _
  · refine List.forall_mem_append.mpr ⟨List.forall_mem_map.mpr fun t ht => clean_table (h t ht), ?_⟩
    exact List.forall_mem_singleton.mpr (by decide : EscapeFree "\n")

theorem clean_findings {r : Report} (h : ∀ finding ∈ r.findings, finding.Clean) :
    ∀ p ∈ findings verbose r, p.Clean := by
  rw [findings]
  split
  · exact List.forall_mem_singleton.mpr (by decide : EscapeFree "No issues found\n")
  · exact List.forall_mem_flatMap.mpr fun f hf => clean_finding (h f hf)

theorem clean_titled (title : String) (htitle : EscapeFree title) {entries : List String}
    (h : ∀ entry ∈ entries, EscapeFree entry) : ∀ p ∈ titled title entries, p.Clean := by
  rw [titled]
  split
  · exact List.forall_mem_nil _
  · refine List.forall_mem_cons.mpr ⟨?_, List.forall_mem_map.mpr h⟩
    simp +decide [htitle]

theorem escapeFree_indexSuggestion {s : IndexSuggestion} (h : s.Clean) :
    EscapeFree (indexSuggestion s) := by
  have hcolumns := EscapeFree.intercalate (by decide : EscapeFree ", ") h.columns
  simp +decide [indexSuggestion, h.table, hcolumns, h.reason]

theorem escapeFree_migration (verbose : Bool) {m : TypeMigration} (h : m.Clean) :
    EscapeFree (migration verbose m) := by
  have hcandidates := EscapeFree.intercalate (by decide : EscapeFree " | ") h.candidates
  have hpath : ∀ steps, m.path = some steps → EscapeFree (" -> ".intercalate steps) :=
    fun steps hsome => EscapeFree.intercalate (by decide) (h.path steps hsome)
  unfold migration
  simp +decide only [append_iff, toString_iff, h.table, h.column, h.type, hcandidates, and_self,
    true_and, and_true]
  split
  · rename_i steps hsome
    simp +decide [hpath steps hsome]
  · decide

theorem escapeFree_advice {r : Report} (h : ∀ line ∈ r.advice, EscapeFree line) :
    ∀ line ∈ advice r, EscapeFree line := by
  refine List.forall_mem_map.mpr fun (line, number) hline => ?_
  have hmem := h line (List.fst_mem_of_mem_zipIdx hline)
  simp +decide [hmem]

theorem clean_report {s : SourceReport} (h : s.Clean) : ∀ p ∈ report verbose s, p.Clean := by
  have htables : ∀ p ∈ (if verbose then tables s.report else []), p.Clean := by
    split
    · exact clean_tables h.tables
    · exact List.forall_mem_nil _
  have hindexes := clean_titled "Index suggestions" (by decide)
    (List.forall_mem_map.mpr fun i hi => escapeFree_indexSuggestion (h.indexes i hi))
  have hmigrations := clean_titled "Type migrations" (by decide)
    (List.forall_mem_map.mpr fun m hm => escapeFree_migration verbose (h.migrations m hm))
  have hadvice : ∀ p ∈ .plain "\nRecommendations:\n" :: (advice s.report).map .plain,
      Piece.Clean p :=
    List.forall_mem_cons.mpr ⟨(by decide : EscapeFree "\nRecommendations:\n"),
      List.forall_mem_map.mpr (escapeFree_advice h.advice)⟩
  rw [report]
  simp only [List.forall_mem_append]
  exact ⟨⟨⟨⟨⟨clean_heading h, htables⟩, clean_findings h.findings⟩, hindexes⟩, hmigrations⟩,
    hadvice⟩

/-! ## Reports -/

variable {paint : Painter} {reports : List SourceReport}

theorem colours_renderAll (hpaint : paint.Wraps) (h : ∀ s ∈ reports, s.Clean) :
    Text.Colours (renderAll paint true verbose reports)
      (renderAll paint false verbose reports) := by
  apply Text.Colours.intercalate (by decide)
  intro s hs
  apply Text.Colours.flatMap
  intro p hp
  exact (clean_report (h s hs) p hp).colours hpaint

theorem not_mem_renderAll (h : ∀ s ∈ reports, s.Clean) :
    '\x1b' ∉ renderAll paint false verbose reports := by
  have hall : ∀ t ∈ reports.map (render paint false verbose), '\x1b' ∉ t := by
    refine List.forall_mem_map.mpr fun s hs hmem => ?_
    obtain ⟨p, hp, hrender⟩ := List.mem_flatMap.mp hmem
    exact clean_report (h s hs) p hp hrender
  exact Text.not_mem_intercalate (by decide) hall

end Styled

/-- Colour is only sequences that switch styles, whatever paints by wrapping: taken out of coloured
reports, they leave the plain ones, and these have no escapes. -/
theorem Presentation.withoutSequences_render_colored (paint : Painter) (hpaint : paint.Wraps)
    (verbose : Bool) (reports : List SourceReport) (h : ∀ s ∈ reports, s.Clean) :
    Text.withoutSequences (render { format := .text, colored := true, verbose } reports paint) =
        render { format := .text, colored := false, verbose } reports paint ∧
      '\x1b' ∉ render { format := .text, colored := false, verbose } reports paint :=
  ⟨(Styled.colours_renderAll hpaint h).withoutSequences_eq, Styled.not_mem_renderAll h⟩

namespace Styled

def sampleFinding : Finding where
  rule := "SEC001"
  concern := .security
  severity := .critical
  line := some 2
  message := "DELETE without WHERE"
  fragment := "DELETE FROM t"
  suggestion := some "Add a WHERE clause"

def sampleTable : Table := { name := "t", columns := [{ name := "a", type := "INT" }], line := 1 }

def sampleReport : SourceReport where
  source := "a.sql"
  report :=
    { tables := [sampleTable], findings := [sampleFinding], score := 75
      advice := ["Fix critical findings"]
      indexes := [], migrations := [], summary := .ofFindings [sampleFinding] }

theorem clean_sampleReport : sampleReport.Clean := by
  have hfinding : sampleFinding.Clean :=
    ⟨by decide, by decide, by decide, by simp +decide⟩
  have htable : sampleTable.Clean := ⟨by decide, by simp +decide⟩
  exact
    { source := by decide
      tables := List.forall_mem_singleton.mpr htable
      findings := List.forall_mem_singleton.mpr hfinding
      indexes := List.forall_mem_nil _
      migrations := List.forall_mem_nil _
      advice := List.forall_mem_singleton.mpr (by decide) }

end Styled

/-- A verbose report on a table and one finding with a suggestion: its coloured text has escapes. -/
theorem Presentation.withoutSequences_render_finding :
    ∃ (paint : Painter) (s : SourceReport), paint.Wraps ∧
      s.report.tables.length = 1 ∧ s.report.findings.length = 1 ∧
      '\x1b' ∈ render { format := .text, colored := true, verbose := true } [s] paint ∧
      Text.withoutSequences (render { format := .text, colored := true, verbose := true } [s] paint) =
        render { format := .text, colored := false, verbose := true } [s] paint :=
  ⟨Ink.paint, Styled.sampleReport, Ink.wraps_paint, rfl, rfl, by decide +kernel,
    (withoutSequences_render_colored Ink.paint Ink.wraps_paint true [Styled.sampleReport]
      (List.forall_mem_singleton.mpr Styled.clean_sampleReport)).1⟩

end SqlAudit
