import SqlAudit.Render.Json
import SqlAudit.Render.Sarif
import SqlAudit.Render.Styled
import SqlAudit.Render.Yaml

/-!
The formats in which reports are written.
-/

namespace SqlAudit

inductive Format where
  | text
  | json
  | yaml
  | sarif
  deriving DecidableEq, Repr

namespace Format

def name : Format → String
  | .text => "text"
  | .json => "json"
  | .yaml => "yaml"
  | .sarif => "sarif"

def all : List Format := [.text, .json, .yaml, .sarif]

def ofName? (written : String) : Option Format := all.find? (·.name == written)

end Format

/-- How reports are written; colour and verbosity concern text only. -/
structure Presentation where
  format : Format := .text
  colored : Bool := false
  verbose : Bool := false
  deriving DecidableEq, Repr

def Presentation.render (p : Presentation) (reports : List SourceReport)
    (paint : Painter := Ink.paint) : Text :=
  match p.format with
  | .text => Styled.renderAll paint p.colored p.verbose reports
  | .json => (Document.ofReports reports).json
  | .yaml => (Document.ofReports reports).yaml
  | .sarif => (Sarif.log reports).json

end SqlAudit
