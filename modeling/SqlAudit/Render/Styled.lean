import SqlAudit.Render.Document

/-!
Reports as text for a terminal.  The text is made of pieces, some of which have a style; without
colour the styles are left out and nothing else changes.
-/

namespace SqlAudit

inductive Style where
  | heading
  | severity (s : Severity)
  | rule
  /-- Good news and advice. -/
  | good
  deriving DecidableEq, Repr

structure Piece where
  style : Option Style := none
  text : Text

/-- How a terminal is asked to write a text. -/
inductive Ink where
  | bold
  | red
  | boldRed
  | yellow
  | blue
  | cyan
  | green
  deriving DecidableEq, Repr

def Style.ink : Style → Ink
  | .heading => .bold
  | .severity .critical => .boldRed
  | .severity .high => .red
  | .severity .medium => .yellow
  | .severity .low => .blue
  | .rule => .cyan
  | .good => .green

/-- What writes a text in an ink; reports take any, and `Ink.paint` unless they are given one. -/
def Painter := Ink → Text → Text

namespace Ink

/-- The numbers that switch an ink on. -/
def codes : Ink → String
  | .bold => "1"
  | .red => "31"
  | .boldRed => "1;31"
  | .yellow => "33"
  | .blue => "34"
  | .cyan => "36"
  | .green => "32"

def sequence (codes : String) : Text := '\x1b' :: '[' :: codes.toList ++ ['m']

def reset : Text := sequence "0"

def paint : Painter := fun ink t =>
  let start := sequence ink.codes
  -- Where the text itself switches inks off, this one is switched on again.
  start ++ Text.replace t reset (reset ++ start) ++ reset

end Ink

namespace Piece

def plain (s : String) : Piece := { text := s.toList }

def styled (style : Style) (s : String) : Piece := { style := some style, text := s.toList }

def render (paint : Painter) (colored : Bool) (p : Piece) : Text :=
  match colored, p.style with
  | true, some style => paint style.ink p.text
  | _, _ => p.text

end Piece

namespace Styled

def padded (width : Nat) (s : String) : String :=
  s ++ String.ofList (List.replicate (width - s.length) ' ')

/-! ## Findings -/

def place (f : Finding) : String :=
  match f.line with
  | some line => s!"line {line}"
  | none => "schema"

/-- A finding: what and where, the source, the suggestion, and for a verbose report how sure it is. -/
def finding (verbose : Bool) (f : Finding) : List Piece :=
  [.plain "  ", .styled (.severity f.severity) (padded 8 f.severity.label), .plain " ",
    .styled .rule f.rule, .plain s!" [{f.concern.label}] {place f}: {f.message}\n"] ++
  (if f.fragment.isEmpty then [] else [.plain s!"      > {f.fragment}\n"]) ++
  (match f.suggestion with
    | some suggestion => [.plain "      = ", .styled .good suggestion, .plain "\n"]
    | none => []) ++
  if verbose then
    let confidence := String.ofList ((Binary.ofSingle f.confidence).fixed 2)
    [.plain s!"      confidence {confidence}\n"]
  else []

/-! ## Sections -/

def heading (s : SourceReport) : List Piece :=
  let r := s.report
  let n := r.summary
  [.styled .heading s!"=== {s.source} ===", .plain "\n",
   .plain (s!"Tables: {r.tables.length} | Findings: {n.total} (critical {n.critical}, " ++
     s!"high {n.high}, medium {n.medium}, low {n.low}) | Score: {r.score}/100\n\n")]

def table (t : Table) : Piece :=
  let columns := ", ".intercalate (t.columns.map fun c => s!"{c.name} {c.type}")
  .plain s!"  table {t.name} (line {t.line}): {columns}\n"

def tables (r : Report) : List Piece :=
  if r.tables.isEmpty then [] else r.tables.map table ++ [.plain "\n"]

def findings (verbose : Bool) (r : Report) : List Piece :=
  if r.findings.isEmpty then [.styled .good "No issues found\n"]
  else r.findings.flatMap (finding verbose)

/-- A section under a title; without entries it is left out. -/
def titled (title : String) (entries : List String) : List Piece :=
  if entries.isEmpty then [] else .plain s!"\n{title}:\n" :: entries.map .plain

def indexSuggestion (s : IndexSuggestion) : String :=
  let columns := ", ".intercalate s.columns
  s!"  - {s.table}({columns}): {s.reason}\n"

def migration (verbose : Bool) (m : TypeMigration) : String :=
  let candidates := " | ".intercalate m.candidates
  let path := match verbose, m.path with
    | true, some steps => " (path: " ++ " -> ".intercalate steps ++ ")"
    | _, _ => ""
  s!"  - {m.table}.{m.column} {m.type} -> {candidates}{path}\n"

def advice (r : Report) : List String :=
  (r.advice.zipIdx 1).map fun (line, number) => s!"  {number}. {line}\n"

/-- A report as pieces.  A verbose one lists the tables and says more on findings and migrations. -/
def report (verbose : Bool) (s : SourceReport) : List Piece :=
  heading s ++ (if verbose then tables s.report else []) ++ findings verbose s.report ++
  titled "Index suggestions" (s.report.indexes.map indexSuggestion) ++
  titled "Type migrations" (s.report.migrations.map (migration verbose)) ++
  .plain "\nRecommendations:\n" :: (advice s.report).map .plain

def render (paint : Painter) (colored verbose : Bool) (s : SourceReport) : Text :=
  (report verbose s).flatMap (Piece.render paint colored)

/-- Several reports, with an empty line between them. -/
def renderAll (paint : Painter) (colored verbose : Bool) (reports : List SourceReport) : Text :=
  ['\n'].intercalate (reports.map (render paint colored verbose))

end Styled
end SqlAudit
