import StyleTokens.Binary64.Basic
import StyleTokens.Binary64.Shortest
import StyleTokens.Bits
import StyleTokens.Build.Bundled
import StyleTokens.Build.Configuration
import StyleTokens.Build.Loader
import StyleTokens.Build.Plan
import StyleTokens.Build.Run
import StyleTokens.Check.Change
import StyleTokens.Check.Entry
import StyleTokens.Check.Key
import StyleTokens.Check.Similarity
import StyleTokens.Check.Value
import StyleTokens.Color.Basic
import StyleTokens.Color.Reader
import StyleTokens.CommandLine.Arguments
import StyleTokens.CommandLine.Invocation
import StyleTokens.CommandLine.Run
import StyleTokens.Environment
import StyleTokens.Event
import StyleTokens.File.Pathname
import StyleTokens.File.Tree
import StyleTokens.File.Utf8
import StyleTokens.Json.Basic
import StyleTokens.Json.Reader
import StyleTokens.Json.Shown
import StyleTokens.Json.Traverse
import StyleTokens.Json.Writer
import StyleTokens.Main
import StyleTokens.Moment
import StyleTokens.Numeral
import StyleTokens.Output.Error
import StyleTokens.Output.Format
import StyleTokens.Output.Header
import StyleTokens.Output.Literal
import StyleTokens.Output.Markup
import StyleTokens.Output.NameTree
import StyleTokens.Output.Source
import StyleTokens.Output.StyleSheet
import StyleTokens.Project.Check
import StyleTokens.Project.Source
import StyleTokens.Project.Workspace
import StyleTokens.Proofs.Alias
import StyleTokens.Proofs.Caching
import StyleTokens.Proofs.Categories
import StyleTokens.Proofs.Chain
import StyleTokens.Proofs.ColorChecks
import StyleTokens.Proofs.ColorRange
import StyleTokens.Proofs.Comments
import StyleTokens.Proofs.Comparison
import StyleTokens.Proofs.Compatibility
import StyleTokens.Proofs.Confinement
import StyleTokens.Proofs.Definitions
import StyleTokens.Proofs.Directories
import StyleTokens.Proofs.Distance
import StyleTokens.Proofs.DocumentOrder
import StyleTokens.Proofs.Elements
import StyleTokens.Proofs.Entries
import StyleTokens.Proofs.Evaluation
import StyleTokens.Proofs.Failures
import StyleTokens.Proofs.FileTree
import StyleTokens.Proofs.Findings
import StyleTokens.Proofs.Framing
import StyleTokens.Proofs.FunctionForm
import StyleTokens.Proofs.Groups
import StyleTokens.Proofs.HexLiterals
import StyleTokens.Proofs.Identifiers
import StyleTokens.Proofs.JoinedWords
import StyleTokens.Proofs.KeyAdvice
import StyleTokens.Proofs.KeyLanguage
import StyleTokens.Proofs.Keys
import StyleTokens.Proofs.Knowledge
import StyleTokens.Proofs.KnownNames
import StyleTokens.Proofs.LeadingNumbers
import StyleTokens.Proofs.Leaves
import StyleTokens.Proofs.LineBreaks
import StyleTokens.Proofs.Lines
import StyleTokens.Proofs.Locality
import StyleTokens.Proofs.LongNumbers
import StyleTokens.Proofs.LowerCase
import StyleTokens.Proofs.Merging
import StyleTokens.Proofs.Metadata
import StyleTokens.Proofs.NameSteps
import StyleTokens.Proofs.ObjectLiterals
import StyleTokens.Proofs.Overflow
import StyleTokens.Proofs.Overwriting
import StyleTokens.Proofs.PlanDocuments
import StyleTokens.Proofs.PlanGrammar
import StyleTokens.Proofs.PrintedReferences
import StyleTokens.Proofs.Reading
import StyleTokens.Proofs.Refusal
import StyleTokens.Proofs.Remnant
import StyleTokens.Proofs.RenderedColors
import StyleTokens.Proofs.Rounding
import StyleTokens.Proofs.ScriptConstants
import StyleTokens.Proofs.Selection
import StyleTokens.Proofs.Solution
import StyleTokens.Proofs.SourceFiles
import StyleTokens.Proofs.StringLiterals
import StyleTokens.Proofs.Strings
import StyleTokens.Proofs.Substitution
import StyleTokens.Proofs.Tags
import StyleTokens.Proofs.Units
import StyleTokens.Proofs.Untagged
import StyleTokens.Proofs.Utf8
import StyleTokens.Proofs.WordEnds
import StyleTokens.Proofs.Writing
import StyleTokens.Report
import StyleTokens.Text.Blank
import StyleTokens.Text.Case
import StyleTokens.Text.CaseTable
import StyleTokens.Text.Digit
import StyleTokens.Text.Hex
import StyleTokens.Text.Printable
import StyleTokens.Text.Quoted
import StyleTokens.Text.Segment
import StyleTokens.Token.Basic
import StyleTokens.Token.Document
import StyleTokens.Token.Filter
import StyleTokens.Token.Reference
import StyleTokens.Token.Resolution
import StyleTokens.Token.Transform
import StyleTokens.Token.Words
import StyleTokens.Trace
