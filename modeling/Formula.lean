import Formula.Binary64.Basic
import Formula.Binary64.Elementary
import Formula.Binary64.Shortest
import Formula.CommandLine.Console
import Formula.CommandLine.Folder
import Formula.Config
import Formula.Datum
import Formula.Decimal.Arithmetic
import Formula.Decimal.Basic
import Formula.Decimal.Context
import Formula.Decimal.Power
import Formula.Decimal.Text
import Formula.Document
import Formula.Environment
import Formula.Evaluation
import Formula.Expression
import Formula.Failure
import Formula.Json.Document
import Formula.Json.Text
import Formula.Json.Token
import Formula.Library.Arguments
import Formula.Library.Arithmetic
import Formula.Library.Assignment
import Formula.Library.Collection
import Formula.Library.Control
import Formula.Library.Elementary
import Formula.Library.Logic
import Formula.Library.Standard
import Formula.Literal
import Formula.Magnitude
import Formula.Main
import Formula.Node
import Formula.Plan
import Formula.Printer
import Formula.Proofs.Datum.Exchange
import Formula.Proofs.Decimal.Digits
import Formula.Proofs.Decimal.Exact
import Formula.Proofs.Decimal.Fit
import Formula.Proofs.Decimal.Notation
import Formula.Proofs.Decimal.Order
import Formula.Proofs.Decimal.Printed
import Formula.Proofs.Decimal.Range
import Formula.Proofs.Decimal.Spelling
import Formula.Proofs.Decimal.Value
import Formula.Proofs.Decimal.Whole
import Formula.Proofs.Decimal.WholePower
import Formula.Proofs.Environment.Cells
import Formula.Proofs.Environment.Numbers
import Formula.Proofs.Environment.Restoration
import Formula.Proofs.Environment.SameCells
import Formula.Proofs.Evaluation.Agreement
import Formula.Proofs.Evaluation.Choice
import Formula.Proofs.Evaluation.ConfinedTree
import Formula.Proofs.Evaluation.Confinement
import Formula.Proofs.Evaluation.Echo
import Formula.Proofs.Evaluation.EchoTree
import Formula.Proofs.Evaluation.Invariant
import Formula.Proofs.Evaluation.Joined
import Formula.Proofs.Evaluation.Repeats
import Formula.Proofs.Evaluation.Repetition
import Formula.Proofs.Evaluation.Retention
import Formula.Proofs.Evaluation.Rounds
import Formula.Proofs.Evaluation.RoundsInStep
import Formula.Proofs.Evaluation.Run
import Formula.Proofs.Evaluation.SameCells
import Formula.Proofs.Evaluation.Tree
import Formula.Proofs.Expression.Arity
import Formula.Proofs.Expression.Bench
import Formula.Proofs.Expression.Caching
import Formula.Proofs.Expression.Composed
import Formula.Proofs.Expression.Confinement
import Formula.Proofs.Expression.NumberText
import Formula.Proofs.Expression.Numbers
import Formula.Proofs.Expression.Printed
import Formula.Proofs.Expression.Reading
import Formula.Proofs.Expression.Restriction
import Formula.Proofs.Expression.Script
import Formula.Proofs.Expression.Seeding
import Formula.Proofs.Failure.Place
import Formula.Proofs.Library.Confined
import Formula.Proofs.Library.Numbers
import Formula.Proofs.Library.Power
import Formula.Proofs.Library.Standard
import Formula.Proofs.Registry.Closing
import Formula.Proofs.Registry.Entry
import Formula.Proofs.Registry.Extension
import Formula.Proofs.Registry.Keys
import Formula.Proofs.Registry.Reachable
import Formula.Proofs.Registry.Row
import Formula.Proofs.Registry.Symbol
import Formula.Proofs.Rpn.Calls
import Formula.Proofs.Rpn.Enclosed
import Formula.Proofs.Rpn.Extension
import Formula.Proofs.Rpn.Listed
import Formula.Proofs.Rpn.Lookup
import Formula.Proofs.Rpn.Parameters
import Formula.Proofs.Rpn.Parenthesised
import Formula.Proofs.Rpn.Phrase
import Formula.Proofs.Rpn.Places
import Formula.Proofs.Rpn.Reader
import Formula.Proofs.Rpn.Reading
import Formula.Proofs.Rpn.Reference
import Formula.Proofs.Rpn.RoundTrip
import Formula.Proofs.Rpn.Script
import Formula.Proofs.Rpn.Term
import Formula.Proofs.Rpn.Validation
import Formula.Proofs.Rpn.Yard
import Formula.Proofs.Session.Choice
import Formula.Proofs.Session.Excerpt
import Formula.Proofs.Session.Grouping
import Formula.Proofs.Session.Mirror
import Formula.Proofs.Session.Repetitions
import Formula.Proofs.Session.Reported
import Formula.Proofs.Session.Script
import Formula.Proofs.Session.Splits
import Formula.Proofs.Text.Line
import Formula.Proofs.Text.Pattern
import Formula.Proofs.Token.Character
import Formula.Proofs.Token.Enclosed
import Formula.Proofs.Token.Layout
import Formula.Proofs.Token.Longest
import Formula.Proofs.Token.Number
import Formula.Proofs.Token.NumberText
import Formula.Proofs.Token.Offset
import Formula.Proofs.Token.Order
import Formula.Proofs.Token.Respelling
import Formula.Proofs.Token.Sequence
import Formula.Proofs.Token.Succession
import Formula.Proofs.Token.Written
import Formula.Proofs.Tree.Assembly
import Formula.Proofs.Tree.Calls
import Formula.Proofs.Tree.Confined
import Formula.Proofs.Tree.Depth
import Formula.Proofs.Tree.Flat
import Formula.Proofs.Tree.Gives
import Formula.Proofs.Tree.Kept
import Formula.Proofs.Tree.Listing
import Formula.Proofs.Tree.Mention
import Formula.Proofs.Tree.Places
import Formula.Proofs.Tree.Plain
import Formula.Proofs.Value.Order
import Formula.Registration
import Formula.Registry
import Formula.Registry.Row
import Formula.Rpn
import Formula.Sample.Behaviour
import Formula.Sample.Extras
import Formula.Sample.Game
import Formula.Session
import Formula.State
import Formula.Table
import Formula.Text.Alphabetic
import Formula.Text.Blank
import Formula.Text.Boundary
import Formula.Text.Digit
import Formula.Text.Integer
import Formula.Text.Line
import Formula.Text.Lowercase
import Formula.Text.Numeric
import Formula.Text.Pattern
import Formula.Text.Printable
import Formula.Text.Quoted
import Formula.Token
import Formula.Token.Scan
import Formula.Value
import Formula.Value.Order
import Formula.Yaml.Content
import Formula.Yaml.Cursor
import Formula.Yaml.Document
import Formula.Yaml.Graph
import Formula.Yaml.Graph.Merge
import Formula.Yaml.Graph.Read
import Formula.Yaml.Tag
import Formula.Yaml.Text
import Formula.Yaml.Token
import Formula.Yaml.Token.Scalar
import Formula.Yaml.Token.Scan
