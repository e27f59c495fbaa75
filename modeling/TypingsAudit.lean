import TypingsAudit.Analysis
import TypingsAudit.Analysis.Comparison
import TypingsAudit.Analysis.Problem
import TypingsAudit.Archive
import TypingsAudit.Archive.Basic
import TypingsAudit.Archive.Gzip
import TypingsAudit.Archive.Inflate
import TypingsAudit.Archive.Tar
import TypingsAudit.CommandLine.Arguments
import TypingsAudit.CommandLine.Run
import TypingsAudit.Decimal.Binary64
import TypingsAudit.Decimal.Shortest
import TypingsAudit.Disk
import TypingsAudit.EntryPoint
import TypingsAudit.Exports.Basic
import TypingsAudit.Exports.Lookup
import TypingsAudit.FileTree
import TypingsAudit.Json.Basic
import TypingsAudit.Json.Parser
import TypingsAudit.Json.Printer
import TypingsAudit.Loading
import TypingsAudit.Main
import TypingsAudit.Manifest
import TypingsAudit.Path
import TypingsAudit.Proofs.Analysis.ProblemOrder
import TypingsAudit.Proofs.Exports.ConditionNames
import TypingsAudit.Proofs.Exports.Containment
import TypingsAudit.Proofs.Exports.Lazy
import TypingsAudit.Proofs.Exports.Walk
import TypingsAudit.Proofs.FileTree
import TypingsAudit.Proofs.Path
import TypingsAudit.Proofs.Resolution.Answers
import TypingsAudit.Proofs.Resolution.FieldReads
import TypingsAudit.Proofs.Resolution.Growth
import TypingsAudit.Proofs.Resolution.Soundness
import TypingsAudit.Proofs.Resolution.Targets
import TypingsAudit.Proofs.Resolution.WithoutExports
import TypingsAudit.Report.Raw
import TypingsAudit.Report.Style
import TypingsAudit.Report.Text
import TypingsAudit.Resolution.Basic
import TypingsAudit.Resolution.ModuleScopes
import TypingsAudit.Resolution.Resolver
import TypingsAudit.Script.Lexer
import TypingsAudit.Script.ModuleSyntax
import TypingsAudit.Script.NameChar
import TypingsAudit.Script.Numeral
import TypingsAudit.Script.Parser
import TypingsAudit.Script.Parser.Basic
import TypingsAudit.Script.Parser.Binding
import TypingsAudit.Script.Parser.Declaration
import TypingsAudit.Script.Parser.Expression
import TypingsAudit.Script.Parser.Function
import TypingsAudit.Script.Parser.Module
import TypingsAudit.Script.Parser.Statement
import TypingsAudit.Script.Parser.Types
import TypingsAudit.Script.Target
import TypingsAudit.Script.Token
import TypingsAudit.Script.Tree
import TypingsAudit.Text.Affix
import TypingsAudit.Text.Blank
import TypingsAudit.Text.Star
import TypingsAudit.Text.Utf8
import TypingsAudit.TypesVersions
import TypingsAudit.Proofs.Exports.Grammar
import TypingsAudit.Proofs.Analysis.Classification
import TypingsAudit.Proofs.Analysis.Selection
import TypingsAudit.Proofs.Resolution.ContentReads
import TypingsAudit.Proofs.Text.Star
import TypingsAudit.Proofs.Text.Utf8
import TypingsAudit.Proofs.Json.RoundTrip
import TypingsAudit.Proofs.Report.Raw
import TypingsAudit.Proofs.Analysis.Unparsable
import TypingsAudit.Proofs.Script.Places
import TypingsAudit.Proofs.Script.CommonJs
import TypingsAudit.Proofs.Script.ExportedNames
import TypingsAudit.Proofs.Resolution.Failures
import TypingsAudit.Proofs.Resolution.Specifiers
import TypingsAudit.Proofs.Json.Keys
import TypingsAudit.Proofs.Exports.Enumeration
import TypingsAudit.Analysis.SyntaxCache
import TypingsAudit.Proofs.Analysis.SyntaxCache
import TypingsAudit.Proofs.Exports.Leaves
import TypingsAudit.Proofs.Exports.Visits
import TypingsAudit.Proofs.Exports.Specificity
import TypingsAudit.Proofs.Resolution.FallbackMarks
import TypingsAudit.Proofs.FileTree.Listing
import TypingsAudit.Proofs.Path.Canonical
import TypingsAudit.Proofs.Path.Endings
import TypingsAudit.Proofs.Resolution.Scopes
import TypingsAudit.Proofs.Analysis.Counterparts
import TypingsAudit.Proofs.Script.Sums
import TypingsAudit.Proofs.Script.Visited
import TypingsAudit.Proofs.TypesVersions
import TypingsAudit.Proofs.Resolution.MappedPaths
import TypingsAudit.Proofs.Resolution.Probing
import TypingsAudit.Proofs.Script.Marker
import TypingsAudit.Proofs.Analysis.KindOrder
import TypingsAudit.Proofs.Manifest
import TypingsAudit.Proofs.Resolution.Spellings
import TypingsAudit.Proofs.Archive.Containment
import TypingsAudit.Proofs.Archive.Stored
import TypingsAudit.Proofs.Loading
import TypingsAudit.Proofs.Text.Slices
import TypingsAudit.Proofs.Report.Groups
import TypingsAudit.Proofs.Report.Text
import TypingsAudit.Proofs.CommandLine.Flags
import TypingsAudit.Proofs.CommandLine.Outcome
