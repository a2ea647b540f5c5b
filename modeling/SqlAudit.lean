import SqlAudit.Command.Directory
import SqlAudit.Command.Invocation
import SqlAudit.Command.Run
import SqlAudit.Command.TypesQuery
import SqlAudit.Command.Usage
import SqlAudit.Configuration
import SqlAudit.DataType.Calendar
import SqlAudit.DataType.Catalog
import SqlAudit.DataType.Category
import SqlAudit.DataType.Descriptor
import SqlAudit.DataType.IpAddress
import SqlAudit.DataType.JsonText
import SqlAudit.DataType.Registry
import SqlAudit.DataType.SampleFormat
import SqlAudit.Decimal.Basic
import SqlAudit.Decimal.Binary
import SqlAudit.Dialect
import SqlAudit.Failure
import SqlAudit.Input
import SqlAudit.Lexical.Balance
import SqlAudit.Lexical.Comment
import SqlAudit.Lexical.Enclosed
import SqlAudit.Lexical.Mask
import SqlAudit.Lexical.Quote
import SqlAudit.Lexical.Segment
import SqlAudit.Lexical.Statement
import SqlAudit.Main
import SqlAudit.Pattern.Basic
import SqlAudit.Pattern.Cursor
import SqlAudit.Pattern.Search
import SqlAudit.Pattern.Vocabulary
import SqlAudit.Power
import SqlAudit.Proofs.DataType.CalendarDate
import SqlAudit.Proofs.DataType.ClockTime
import SqlAudit.Proofs.DataType.Conversion
import SqlAudit.Proofs.DataType.FormatHierarchy
import SqlAudit.Proofs.DataType.Inference
import SqlAudit.Proofs.DataType.NameResolution
import SqlAudit.Proofs.DataType.Timestamp
import SqlAudit.Proofs.Decimal.SinglePrecision
import SqlAudit.Proofs.Lexical.Appending
import SqlAudit.Proofs.Lexical.Blanking
import SqlAudit.Proofs.Lexical.CommentFree
import SqlAudit.Proofs.Lexical.Cutting
import SqlAudit.Proofs.Lexical.Geometry
import SqlAudit.Proofs.Lexical.Lexemes
import SqlAudit.Proofs.Lexical.Literals
import SqlAudit.Proofs.Lexical.Locality
import SqlAudit.Proofs.Lexical.Masking
import SqlAudit.Proofs.Lexical.Nesting
import SqlAudit.Proofs.Lexical.Occurrence
import SqlAudit.Proofs.Lexical.OpenQuote
import SqlAudit.Proofs.Lexical.SegmentRejoining
import SqlAudit.Proofs.Lexical.StatementPartition
import SqlAudit.Proofs.Lexical.Statements
import SqlAudit.Proofs.Lexical.Tidy
import SqlAudit.Proofs.Pattern.Evaluation
import SqlAudit.Proofs.Pattern.Extension
import SqlAudit.Proofs.Pattern.Phrase
import SqlAudit.Proofs.Pattern.Reach
import SqlAudit.Proofs.Pattern.Skipping
import SqlAudit.Proofs.Pattern.Spelling
import SqlAudit.Proofs.Render.Colour
import SqlAudit.Proofs.Render.SarifLog
import SqlAudit.Proofs.Report.Coherence
import SqlAudit.Proofs.Report.SuggestedIndexes
import SqlAudit.Proofs.Report.TypeAgreement
import SqlAudit.Proofs.Review.Anchoring
import SqlAudit.Proofs.Review.CommentInsensitivity
import SqlAudit.Proofs.Review.IndexRemedy
import SqlAudit.Proofs.Review.JoinChain
import SqlAudit.Proofs.Review.LineReports
import SqlAudit.Proofs.Review.LiteralInsensitivity
import SqlAudit.Proofs.Review.Locality
import SqlAudit.Proofs.Review.MissingIndex
import SqlAudit.Proofs.Review.OpenQuoteReport
import SqlAudit.Proofs.Review.Provenance
import SqlAudit.Proofs.Review.RuleConfiguration
import SqlAudit.Proofs.Review.Snippet
import SqlAudit.Proofs.Review.Tautology
import SqlAudit.Proofs.Review.UnguardedDelete
import SqlAudit.Proofs.Schema.ArgumentReading
import SqlAudit.Proofs.Schema.ColumnReading
import SqlAudit.Proofs.Schema.ColumnRoundTrip
import SqlAudit.Proofs.Schema.ConstraintReading
import SqlAudit.Proofs.Schema.Declaration
import SqlAudit.Proofs.Schema.DefinitionReading
import SqlAudit.Proofs.Schema.DefinitionSearch
import SqlAudit.Proofs.Schema.FragmentAccounting
import SqlAudit.Proofs.Schema.FragmentPlaces
import SqlAudit.Proofs.Schema.IndexAppending
import SqlAudit.Proofs.Schema.ModifierReading
import SqlAudit.Proofs.Schema.NameReading
import SqlAudit.Proofs.Schema.OffsetReading
import SqlAudit.Proofs.Schema.Origins
import SqlAudit.Proofs.Schema.Placement
import SqlAudit.Proofs.Schema.QuotedName
import SqlAudit.Proofs.Schema.RoundTrip
import SqlAudit.Proofs.Schema.TypeReading
import SqlAudit.Proofs.Sorting
import SqlAudit.Proofs.Text.CaseFolding
import SqlAudit.Proofs.Text.Decoding
import SqlAudit.Proofs.Text.Identifier
import SqlAudit.Proofs.Text.Lines
import SqlAudit.Proofs.Text.Numeral
import SqlAudit.Proofs.Text.Trim
import SqlAudit.Render.Basic
import SqlAudit.Render.Document
import SqlAudit.Render.Json
import SqlAudit.Render.Sarif
import SqlAudit.Render.Styled
import SqlAudit.Render.Yaml
import SqlAudit.Render.YamlScalar
import SqlAudit.Report.Basic
import SqlAudit.Report.IndexSuggestion
import SqlAudit.Report.Summary
import SqlAudit.Report.TypeMigration
import SqlAudit.Review.Analysis
import SqlAudit.Review.Finding
import SqlAudit.Review.Lexis
import SqlAudit.Review.LineRule
import SqlAudit.Review.PerformanceRules
import SqlAudit.Review.PredicateCheck
import SqlAudit.Review.SchemaCheck
import SqlAudit.Review.SecurityRules
import SqlAudit.Review.SemanticRules
import SqlAudit.Review.Settings
import SqlAudit.Review.Severity
import SqlAudit.Review.StatementCheck
import SqlAudit.Review.StrictParser
import SqlAudit.Schema.Column
import SqlAudit.Schema.Constraint
import SqlAudit.Schema.Extraction
import SqlAudit.Schema.Name
import SqlAudit.Schema.Table
import SqlAudit.Text.Basic
import SqlAudit.Text.Blank
import SqlAudit.Text.CaseShift
import SqlAudit.Text.Digit
import SqlAudit.Text.Letter
import SqlAudit.Text.LowerCase
import SqlAudit.Text.Numeral
import SqlAudit.Text.Numeric
import SqlAudit.Text.Ranges
import SqlAudit.Text.UpperCase
import SqlAudit.Text.Utf8
import SqlAudit.Text.WordChar
import SqlAudit.Toml.Basic
import SqlAudit.Toml.Document
import SqlAudit.Toml.Scalar
import SqlAudit.Tool
