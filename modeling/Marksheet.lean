import Marksheet.CommandLine.Arguments
import Marksheet.CommandLine.Session
import Marksheet.Decimal.Binary64
import Marksheet.Decimal.Fixed
import Marksheet.Decimal.Numeral
import Marksheet.Decimal.Shortest
import Marksheet.Features.NameSet
import Marksheet.Features.Node
import Marksheet.Features.Record
import Marksheet.Features.Shape
import Marksheet.Files.Batch
import Marksheet.Files.Tree
import Marksheet.Grading.Grader
import Marksheet.Grammar.Block
import Marksheet.Grammar.CasePattern
import Marksheet.Grammar.Expression
import Marksheet.Grammar.Layout
import Marksheet.Grammar.Program
import Marksheet.Grammar.Reader
import Marksheet.Grammar.Statement
import Marksheet.Json.Basic
import Marksheet.Json.Reader
import Marksheet.Json.Token
import Marksheet.Main
import Marksheet.Proofs.Features.Construct
import Marksheet.Proofs.Features.Flags
import Marksheet.Proofs.Features.Growth
import Marksheet.Proofs.Features.Input
import Marksheet.Proofs.Features.Place
import Marksheet.Proofs.Features.Rearrangement
import Marksheet.Proofs.Features.StringVariables
import Marksheet.Proofs.Features.Tally
import Marksheet.Report.Basic
import Marksheet.Report.Document
import Marksheet.Report.Pretty
import Marksheet.Proofs.Grading.Independence
import Marksheet.Proofs.Grammar.Comment
import Marksheet.Proofs.Grammar.Gives
import Marksheet.Proofs.Grammar.Orderly
import Marksheet.Proofs.Grammar.Statements
import Marksheet.Proofs.Rubric.Credit
import Marksheet.Proofs.Rubric.Results
import Marksheet.Proofs.Syntax.Context
import Marksheet.Proofs.Syntax.Rearrangement
import Marksheet.Proofs.Syntax.Suite
import Marksheet.Rubric.Check
import Marksheet.Rubric.Dynamic
import Marksheet.Rubric.Standard
import Marksheet.Rubric.Static
import Marksheet.Rubric.Structural
import Marksheet.Run.Capture
import Marksheet.Run.Conduct
import Marksheet.Run.Note
import Marksheet.Run.Outcome
import Marksheet.Run.Process
import Marksheet.Run.Request
import Marksheet.Run.Script
import Marksheet.Run.Supervisor
import Marksheet.Settings.Basic
import Marksheet.Settings.Discovery
import Marksheet.Settings.Reading
import Marksheet.Settings.Valid
import Marksheet.Shell.Behaviour
import Marksheet.Shell.Evaluation
import Marksheet.Shell.Expansion
import Marksheet.Shell.Reader
import Marksheet.Shell.State
import Marksheet.Shell.Syntax
import Marksheet.Shell.Token
import Marksheet.Shell.Utility.Basic
import Marksheet.Shell.Utility.Filing
import Marksheet.Shell.Utility.Filter
import Marksheet.Shell.Utility.Printing
import Marksheet.Source.Alphabet
import Marksheet.Source.Alphabet.Identifiers
import Marksheet.Source.Alphabet.LetterCase
import Marksheet.Source.Lexer
import Marksheet.Source.Position
import Marksheet.Source.Quoted
import Marksheet.Source.Token
import Marksheet.Syntax.Abstraction
import Marksheet.Syntax.Literal
import Marksheet.Syntax.Operator
import Marksheet.Syntax.Phrase
import Marksheet.Syntax.Sentence
import Marksheet.Syntax.Tree
import Marksheet.Text.Blank
import Marksheet.Text.Decoding
import Marksheet.Text.Hidden
import Marksheet.Text.LowerCase
import Marksheet.Text.Search
import Marksheet.Text.Shown
import Marksheet.Wildcard.Basic
import Marksheet.Wildcard.Matching
import Marksheet.Yaml.Character
import Marksheet.Yaml.Directive
import Marksheet.Yaml.Document
import Marksheet.Yaml.Event
import Marksheet.Yaml.Property
import Marksheet.Yaml.Scalar.Block
import Marksheet.Yaml.Scalar.Gap
import Marksheet.Yaml.Scalar.Plain
import Marksheet.Yaml.Scalar.Quoted
import Marksheet.Yaml.Token
import Marksheet.Yaml.TokenStream
import Marksheet.Yaml.Typed
import Marksheet.Proofs.Files.Outside
import Marksheet.Proofs.CommandLine.Status
import Marksheet.Proofs.CommandLine.Batch
import Marksheet.Proofs.Decimal.Numeral
import Marksheet.Proofs.Json.RoundTrip
import Marksheet.Proofs.CommandLine.Document
import Marksheet.Proofs.Syntax.Print
import Marksheet.Proofs.Grammar.Brackets
import Marksheet.Proofs.Grammar.Inverse
import Marksheet.Proofs.Features.Unlined
import Marksheet.Proofs.Grammar.Assignments
import Marksheet.Proofs.Grammar.Bindings
import Marksheet.Proofs.Grammar.Blocks
import Marksheet.Proofs.Grammar.Compound
import Marksheet.Proofs.Grammar.Imports
import Marksheet.Proofs.Grammar.Programs
import Marksheet.Proofs.Source.Programs
import Marksheet.Proofs.Grammar.Restored
import Marksheet.Proofs.Json.Compact
import Marksheet.Proofs.Rubric.Hints
import Marksheet.Proofs.Run.Answers
import Marksheet.Proofs.Run.Capture
import Marksheet.Proofs.Features.Wiped
import Marksheet.Proofs.Grading.LineEnds
import Marksheet.Report.Reading
import Marksheet.Proofs.Report.RoundTrip
import Marksheet.Proofs.Settings.Discovery
import Marksheet.Proofs.Features.ElifChain
import Marksheet.Proofs.Grammar.Legacy
import Marksheet.Proofs.Run.ScriptName
import Marksheet.Proofs.Run.Judgement
import Marksheet.Proofs.Source.Fronts
import Marksheet.Proofs.Grammar.LineOrder
import Marksheet.Proofs.Rubric.Dynamic
import Marksheet.Proofs.Wildcard.Matching
import Marksheet.Proofs.Files.Batch
import Marksheet.Proofs.Yaml.Written
import Marksheet.Proofs.Yaml.Scalars
import Marksheet.Proofs.Yaml.Tokens
import Marksheet.Proofs.Yaml.Parts
import Marksheet.Proofs.Settings.Written
import Marksheet.Proofs.CommandLine.Arguments
import Marksheet.Proofs.Text.Lines
import Marksheet.Proofs.Text.LowerCase
import Marksheet.Proofs.Rubric.Static
import Marksheet.Proofs.Report.Totals
import Marksheet.Proofs.Report.Style
import Marksheet.Proofs.Syntax.Literal
import Marksheet.Proofs.Syntax.Joined
import Marksheet.Proofs.Rubric.Fault
import Marksheet.Proofs.Syntax.Comprehension
