import Reckoner.CommandLine
import Reckoner.Data.Table
import Reckoner.Evaluation.Caches
import Reckoner.Evaluation.Calculation
import Reckoner.Evaluation.Cancellation
import Reckoner.Evaluation.Context
import Reckoner.Evaluation.Plugin
import Reckoner.Evaluation.Promotion
import Reckoner.Evaluation.Reduction
import Reckoner.Evaluation.Registry
import Reckoner.Evaluation.Run
import Reckoner.Evaluation.Scope
import Reckoner.Expr
import Reckoner.Expr.Operator
import Reckoner.Expr.Postfix
import Reckoner.Expr.Reader
import Reckoner.Expr.Token
import Reckoner.Expr.Tokenizer
import Reckoner.Failure
import Reckoner.Lexer
import Reckoner.Main
import Reckoner.Number
import Reckoner.Number.Binary64
import Reckoner.Number.Binary64.Arithmetic
import Reckoner.Number.Binary64.Shortest
import Reckoner.Number.Decimal
import Reckoner.Number.Decimal.Text
import Reckoner.Number.Digits
import Reckoner.Number.Fast
import Reckoner.Number.Literal
import Reckoner.Pattern
import Reckoner.Pattern.Automaton
import Reckoner.Pattern.NodeSet
import Reckoner.Pattern.Reading
import Reckoner.Pattern.Regex
import Reckoner.Proofs.Evaluation.AgreeingReduction
import Reckoner.Proofs.Evaluation.Agreement
import Reckoner.Proofs.Evaluation.Answering
import Reckoner.Proofs.Evaluation.Assignments
import Reckoner.Proofs.Evaluation.Bindings
import Reckoner.Proofs.Evaluation.Caching
import Reckoner.Proofs.Evaluation.Completion
import Reckoner.Proofs.Evaluation.Ending
import Reckoner.Proofs.Evaluation.Expansion
import Reckoner.Proofs.Evaluation.Factorials
import Reckoner.Proofs.Evaluation.Interruption
import Reckoner.Proofs.Evaluation.Invariance
import Reckoner.Proofs.Evaluation.Journal
import Reckoner.Proofs.Evaluation.Laws
import Reckoner.Proofs.Evaluation.Layers
import Reckoner.Proofs.Evaluation.Lookup
import Reckoner.Proofs.Evaluation.Preservation
import Reckoner.Proofs.Evaluation.Readability
import Reckoner.Proofs.Evaluation.Repeating
import Reckoner.Proofs.Evaluation.Representation
import Reckoner.Proofs.Evaluation.Steadiness
import Reckoner.Proofs.Evaluation.SteadyReduction
import Reckoner.Proofs.Evaluation.Termination
import Reckoner.Proofs.Evaluation.UniformReduction
import Reckoner.Proofs.Expr.Arrangement
import Reckoner.Proofs.Expr.Assigning
import Reckoner.Proofs.Expr.Calls
import Reckoner.Proofs.Expr.Climbing
import Reckoner.Proofs.Expr.Conservation
import Reckoner.Proofs.Expr.Descent
import Reckoner.Proofs.Expr.Embedding
import Reckoner.Proofs.Expr.Learning
import Reckoner.Proofs.Expr.Leaves
import Reckoner.Proofs.Expr.Numbers
import Reckoner.Proofs.Expr.Postorder
import Reckoner.Proofs.Expr.Rendering
import Reckoner.Proofs.Expr.Reordering
import Reckoner.Proofs.Expr.Rereading
import Reckoner.Proofs.Expr.Resolution
import Reckoner.Proofs.Expr.Shapes
import Reckoner.Proofs.Expr.Spacing
import Reckoner.Proofs.Expr.Spelling
import Reckoner.Proofs.Expr.Vocabulary
import Reckoner.Proofs.Expr.Writing
import Reckoner.Proofs.Lexer.Cutting
import Reckoner.Proofs.Lexer.LongestMatch
import Reckoner.Proofs.Lexer.Walking
import Reckoner.Proofs.Number.Arithmetic
import Reckoner.Proofs.Number.Denotation
import Reckoner.Proofs.Number.FewDigits
import Reckoner.Proofs.Number.Forms
import Reckoner.Proofs.Number.IntegerParts
import Reckoner.Proofs.Number.Literals
import Reckoner.Proofs.Number.Nearest
import Reckoner.Proofs.Number.Nearness
import Reckoner.Proofs.Number.Notation
import Reckoner.Proofs.Number.Numeral
import Reckoner.Proofs.Number.Powers
import Reckoner.Proofs.Number.Precision
import Reckoner.Proofs.Number.Rounding
import Reckoner.Proofs.Number.Shortest
import Reckoner.Proofs.Number.Value
import Reckoner.Proofs.Pattern.Dialect
import Reckoner.Proofs.Pattern.Language
import Reckoner.Proofs.Pattern.Literal
import Reckoner.Proofs.Pattern.Matching
import Reckoner.Proofs.Pattern.Reading
import Reckoner.Proofs.Pattern.Recognition
import Reckoner.Proofs.Pattern.Run
import Reckoner.Proofs.Plugins.Hooks
import Reckoner.Proofs.Plugins.Lifecycle
import Reckoner.Proofs.Plugins.Order
import Reckoner.Proofs.Session.History
import Reckoner.Proofs.Session.Implementation
import Reckoner.Proofs.Session.Operations
import Reckoner.Proofs.Session.ReadingBack
import Reckoner.Proofs.Session.Standing
import Reckoner.Proofs.Standard.AgreeingRegistry
import Reckoner.Proofs.Standard.Agreement
import Reckoner.Proofs.Standard.Angles
import Reckoner.Proofs.Standard.Arcsine
import Reckoner.Proofs.Standard.Arctangent
import Reckoner.Proofs.Standard.Completion
import Reckoner.Proofs.Standard.Exponential
import Reckoner.Proofs.Standard.Literals
import Reckoner.Proofs.Standard.Logarithm
import Reckoner.Proofs.Standard.Magnitudes
import Reckoner.Proofs.Standard.Pi
import Reckoner.Proofs.Standard.Powers
import Reckoner.Proofs.Standard.Precise
import Reckoner.Proofs.Standard.Ranges
import Reckoner.Proofs.Standard.Reductions
import Reckoner.Proofs.Standard.Representation
import Reckoner.Proofs.Standard.Rereading
import Reckoner.Proofs.Standard.Roots
import Reckoner.Proofs.Standard.Selections
import Reckoner.Proofs.Standard.Steadiness
import Reckoner.Proofs.Standard.SteadyRegistry
import Reckoner.Proofs.Standard.UniformRegistry
import Reckoner.Session
import Reckoner.Session.Commands
import Reckoner.Session.Configuration
import Reckoner.Session.Dialogue
import Reckoner.Session.Options
import Reckoner.Standard.Combinatorics
import Reckoner.Standard.Documents
import Reckoner.Standard.Elementary
import Reckoner.Standard.Functions
import Reckoner.Standard.Implementations
import Reckoner.Standard.Operators
import Reckoner.Standard.Plugin
import Reckoner.Standard.Trigonometry
import Reckoner.Text.Blank
import Reckoner.Text.Casing
import Reckoner.Text.Lowercase
import Reckoner.Text.Printable
import Reckoner.Text.Quoted
