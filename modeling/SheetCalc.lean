import SheetCalc.Cell
import SheetCalc.Column
import SheetCalc.Command.Arguments
import SheetCalc.Command.Console
import SheetCalc.Command.Line
import SheetCalc.Command.Run
import SheetCalc.Decimal.Binary
import SheetCalc.Decimal.Digits
import SheetCalc.Decimal.Layout
import SheetCalc.Decimal.Numeral
import SheetCalc.Decimal.Rounding
import SheetCalc.Decimal.Whole
import SheetCalc.Entries
import SheetCalc.Files
import SheetCalc.Formula.Evaluation
import SheetCalc.Formula.Failure
import SheetCalc.Formula.Resolver
import SheetCalc.Formula.Stacks
import SheetCalc.Formula.Token
import SheetCalc.Journal.Clock
import SheetCalc.Journal.Emitter
import SheetCalc.Journal.Event
import SheetCalc.Journal.Fields
import SheetCalc.Journal.Log
import SheetCalc.Journal.Move
import SheetCalc.Journal.Trim
import SheetCalc.Json.Quoted
import SheetCalc.Json.Reader
import SheetCalc.Json.Writer
import SheetCalc.Label
import SheetCalc.Main
import SheetCalc.Path
import SheetCalc.Project
import SheetCalc.Sheet
import SheetCalc.Sheet.File
import SheetCalc.Sheet.Spec
import SheetCalc.Sorting
import SheetCalc.Sorting.Merge
import SheetCalc.Sorting.Run
import SheetCalc.Text
import SheetCalc.Text.Blank
import SheetCalc.Text.Control
import SheetCalc.Text.DecimalDigit
import SheetCalc.Text.Hex
import SheetCalc.Text.Lines
import SheetCalc.Text.Printable
import SheetCalc.Text.Quoted
import SheetCalc.Text.Units
import SheetCalc.Text.Utf8
import SheetCalc.Value
import SheetCalc.Value.Number
import SheetCalc.Value.Order
import SheetCalc.Value.Text
import SheetCalc.Yaml.Cursor
import SheetCalc.Yaml.Document
import SheetCalc.Yaml.Node
import SheetCalc.Yaml.Plain
import SheetCalc.Yaml.Scalar
import SheetCalc.Yaml.Token
import SheetCalc.Proofs.Command.Agreement
import SheetCalc.Proofs.Command.Configuration
import SheetCalc.Proofs.Command.Console
import SheetCalc.Proofs.Command.Logging
import SheetCalc.Proofs.Command.Output
import SheetCalc.Proofs.Command.Refusal
import SheetCalc.Proofs.Command.Session
import SheetCalc.Proofs.Command.Summary
import SheetCalc.Proofs.Decimal.Arithmetic
import SheetCalc.Proofs.Decimal.Characters
import SheetCalc.Proofs.Decimal.Interval
import SheetCalc.Proofs.Decimal.Nearest
import SheetCalc.Proofs.Decimal.Shortest
import SheetCalc.Proofs.Files
import SheetCalc.Proofs.Formula.Answers
import SheetCalc.Proofs.Formula.Conservation
import SheetCalc.Proofs.Formula.Endings
import SheetCalc.Proofs.Formula.Expression
import SheetCalc.Proofs.Formula.Fields
import SheetCalc.Proofs.Formula.Footprint
import SheetCalc.Proofs.Formula.Kinds
import SheetCalc.Proofs.Formula.Malformed
import SheetCalc.Proofs.Formula.Openings
import SheetCalc.Proofs.Formula.Origins
import SheetCalc.Proofs.Formula.Plan
import SheetCalc.Proofs.Formula.Precedence
import SheetCalc.Proofs.Formula.References
import SheetCalc.Proofs.Formula.Rounds
import SheetCalc.Proofs.Formula.StackOrder
import SheetCalc.Proofs.Formula.Symbols
import SheetCalc.Proofs.Formula.Unclosed
import SheetCalc.Proofs.Journal.Appended
import SheetCalc.Proofs.Journal.Damage
import SheetCalc.Proofs.Journal.Emission
import SheetCalc.Proofs.Journal.Failures
import SheetCalc.Proofs.Journal.Finite
import SheetCalc.Proofs.Journal.Outcomes
import SheetCalc.Proofs.Journal.ReadBack
import SheetCalc.Proofs.Journal.Retrieval
import SheetCalc.Proofs.Journal.Tally
import SheetCalc.Proofs.Journal.Trimming
import SheetCalc.Proofs.Journal.Validation
import SheetCalc.Proofs.Journal.Written
import SheetCalc.Proofs.Json.Fits
import SheetCalc.Proofs.Json.Floats
import SheetCalc.Proofs.Json.Numbers
import SheetCalc.Proofs.Json.Plain
import SheetCalc.Proofs.Json.RoundTrip
import SheetCalc.Proofs.Json.Strict
import SheetCalc.Proofs.Json.Texts
import SheetCalc.Proofs.Label
import SheetCalc.Proofs.Messages
import SheetCalc.Proofs.Procedure
import SheetCalc.Proofs.Sheet.Calls
import SheetCalc.Proofs.Sheet.Cells
import SheetCalc.Proofs.Sheet.Columns
import SheetCalc.Proofs.Sheet.Description
import SheetCalc.Proofs.Sheet.Division
import SheetCalc.Proofs.Sheet.FixedPoint
import SheetCalc.Proofs.Sheet.Frame
import SheetCalc.Proofs.Sheet.Independence
import SheetCalc.Proofs.Sheet.Loading
import SheetCalc.Proofs.Sheet.Naming
import SheetCalc.Proofs.Sheet.Positions
import SheetCalc.Proofs.Sheet.Sharing
import SheetCalc.Proofs.Sheet.Sight
import SheetCalc.Proofs.Sheet.Store
import SheetCalc.Proofs.Text.Lines
import SheetCalc.Proofs.Text.Utf8
