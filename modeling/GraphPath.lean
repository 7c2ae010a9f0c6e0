import GraphPath.CommandLine.Invocation
import GraphPath.CommandLine.Options
import GraphPath.CommandLine.Run
import GraphPath.CommandLine.Scan
import GraphPath.Compile.Emit
import GraphPath.Compile.Error
import GraphPath.Compile.Registry
import GraphPath.Compile.Selector
import GraphPath.Iri
import GraphPath.Main
import GraphPath.Node
import GraphPath.Number.Binary64
import GraphPath.Number.Decimal
import GraphPath.Number.Numeral
import GraphPath.Parser.Basic
import GraphPath.Parser.Token
import GraphPath.Path.Grammar
import GraphPath.Path.Printer
import GraphPath.Path.Selector
import GraphPath.Pattern.Basic
import GraphPath.Proofs.Accepted
import GraphPath.Proofs.Agreement
import GraphPath.Proofs.Alternatives
import GraphPath.Proofs.AnswerOrder
import GraphPath.Proofs.BooleanLaws
import GraphPath.Proofs.Cap
import GraphPath.Proofs.Causes
import GraphPath.Proofs.Conditions
import GraphPath.Proofs.Conjunction
import GraphPath.Proofs.CriteriaOrder
import GraphPath.Proofs.DataOrder
import GraphPath.Proofs.Denotation
import GraphPath.Proofs.Equivariance
import GraphPath.Proofs.Exactness
import GraphPath.Proofs.Faults
import GraphPath.Proofs.Following
import GraphPath.Proofs.Freshness
import GraphPath.Proofs.Growth
import GraphPath.Proofs.Hygiene
import GraphPath.Proofs.Links
import GraphPath.Proofs.Locality
import GraphPath.Proofs.Monotonicity
import GraphPath.Proofs.Naming
import GraphPath.Proofs.Naturality
import GraphPath.Proofs.Navigation
import GraphPath.Proofs.Neatness
import GraphPath.Proofs.Negation
import GraphPath.Proofs.Outcomes
import GraphPath.Proofs.Parentheses
import GraphPath.Proofs.PassThrough
import GraphPath.Proofs.Places
import GraphPath.Proofs.Positive
import GraphPath.Proofs.Renaming
import GraphPath.Proofs.Rereading
import GraphPath.Proofs.Assembly
import GraphPath.Proofs.Resolution
import GraphPath.Proofs.RoundTrip
import GraphPath.Proofs.Rows
import GraphPath.Proofs.Rules
import GraphPath.Proofs.Seeding
import GraphPath.Proofs.Sorted
import GraphPath.Proofs.Spelling
import GraphPath.Proofs.Stillness
import GraphPath.Proofs.StoreHistory
import GraphPath.Proofs.Substitution
import GraphPath.Proofs.Tested
import GraphPath.Proofs.TextInput
import GraphPath.Proofs.Tracing
import GraphPath.Proofs.Unbounded
import GraphPath.Proofs.Unions
import GraphPath.Proofs.UniqueReading
import GraphPath.Proofs.Verdicts
import GraphPath.Proofs.Words
import GraphPath.Query.Basic
import GraphPath.Query.Endpoint
import GraphPath.Query.Row
import GraphPath.Query.Sparql
import GraphPath.Session.Basic
import GraphPath.Session.Criterion
import GraphPath.Settings.Basic
import GraphPath.Settings.Document
import GraphPath.Settings.Escape
import GraphPath.Settings.Format
import GraphPath.Settings.Json
import GraphPath.Settings.Toml
import GraphPath.Settings.Toml.Scalar
import GraphPath.Settings.Toml.Table
import GraphPath.Settings.Yaml
import GraphPath.Settings.Yaml.Cursor
import GraphPath.Settings.Yaml.Node
import GraphPath.Settings.Yaml.Scalar
import GraphPath.Settings.Yaml.Token
import GraphPath.Sorting.Perm
import GraphPath.Sorting.Runs
import GraphPath.Sorting.Short
import GraphPath.Store.Basic
import GraphPath.Store.Eval
import GraphPath.Store.Order
import GraphPath.Store.Quad
import GraphPath.Store.Statements
import GraphPath.Store.Value
import GraphPath.Table
import GraphPath.Text.Blank
import GraphPath.Text.CaseData
import GraphPath.Text.Letter
import GraphPath.Text.LetterCase
import GraphPath.Text.Position
import GraphPath.Text.Span
import GraphPath.Text.Visible
import GraphPath.Vocabulary
import GraphPath.Proofs.Extensions
import GraphPath.Proofs.JoinOrder
import GraphPath.Proofs.Orderings
import GraphPath.Proofs.Paging
import GraphPath.Proofs.Quotation
import GraphPath.Proofs.Brackets
import GraphPath.Proofs.Positions
import GraphPath.Proofs.Reloading
import GraphPath.Proofs.Tokens
import GraphPath.Proofs.QueryTokens
import GraphPath.Proofs.Confinement
import GraphPath.Proofs.Framing
import GraphPath.Proofs.Unrolling
import GraphPath.Proofs.Coherence
import GraphPath.Proofs.Lookups
import GraphPath.Proofs.CompactNames
import GraphPath.Proofs.Abbreviated
import GraphPath.Proofs.Vocabularies
import GraphPath.Proofs.Allocation
import GraphPath.Proofs.Counter
import GraphPath.Proofs.LanguageRanges
