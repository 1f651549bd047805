import ElementLint.CommandLine.Arguments
import ElementLint.CommandLine.Console
import ElementLint.CommandLine.Dump
import ElementLint.CommandLine.Run
import ElementLint.Engine.Basic
import ElementLint.Engine.Options
import ElementLint.Engine.Settings
import ElementLint.Files.Basic
import ElementLint.Files.Disk
import ElementLint.Grammar.Character
import ElementLint.Grammar.Expression
import ElementLint.Grammar.Function
import ElementLint.Grammar.LineBreak
import ElementLint.Grammar.Parse
import ElementLint.Grammar.Parser
import ElementLint.Grammar.Pattern
import ElementLint.Grammar.Scan
import ElementLint.Grammar.Statement
import ElementLint.Grammar.Token
import ElementLint.Json.Basic
import ElementLint.Json.Order
import ElementLint.Json.Reader
import ElementLint.Json.Writer
import ElementLint.Lint.Basic
import ElementLint.Lint.Load
import ElementLint.Literal.Escape
import ElementLint.Literal.Value
import ElementLint.Main
import ElementLint.Node.Basic
import ElementLint.Node.Listing
import ElementLint.Node.OfTree
import ElementLint.Node.Walk
import ElementLint.Number.Decimal
import ElementLint.Number.Double
import ElementLint.Number.Numeral
import ElementLint.Proofs.Attempt
import ElementLint.Proofs.CommandLine.Assignment
import ElementLint.Proofs.CommandLine.Console
import ElementLint.Proofs.CommandLine.Grammar
import ElementLint.Proofs.CommandLine.Scan
import ElementLint.Proofs.CommandLine.Status
import ElementLint.Proofs.Engine.Acceptance
import ElementLint.Proofs.Engine.Options
import ElementLint.Proofs.Engine.Run
import ElementLint.Proofs.Engine.Settings
import ElementLint.Proofs.Files.Disk
import ElementLint.Proofs.Json.Ascii
import ElementLint.Proofs.Lint.Completion
import ElementLint.Proofs.Lint.FileResult
import ElementLint.Proofs.Lint.RuleIndependence
import ElementLint.Proofs.Literal.EscapeSpelling
import ElementLint.Proofs.Literal.IntegerSpelling
import ElementLint.Proofs.Literal.NumberSpelling
import ElementLint.Proofs.Literal.StringSpelling
import ElementLint.Proofs.Node.Address
import ElementLint.Proofs.Node.Ancestry
import ElementLint.Proofs.Node.BareTree
import ElementLint.Proofs.Node.CallsKept
import ElementLint.Proofs.Node.Conversion
import ElementLint.Proofs.Node.OperatorChain
import ElementLint.Proofs.Node.Origins
import ElementLint.Proofs.Node.Readable
import ElementLint.Proofs.Node.SourceOrder
import ElementLint.Proofs.Number.Positional
import ElementLint.Proofs.Number.Reading
import ElementLint.Proofs.Order.Insertion
import ElementLint.Proofs.Order.StableSort
import ElementLint.Proofs.Report.Given
import ElementLint.Proofs.Report.ItemOrder
import ElementLint.Proofs.Report.Summary
import ElementLint.Proofs.Rule.BadElementName
import ElementLint.Proofs.Rule.ConjunctionOperands
import ElementLint.Proofs.Rule.Guard
import ElementLint.Proofs.Rule.NamePattern
import ElementLint.Proofs.Rule.NameSpelling
import ElementLint.Proofs.Rule.TestMeaning
import ElementLint.Proofs.Rule.UnguardedCall
import ElementLint.Proofs.Text.Pieces
import ElementLint.Proofs.Text.Utf16
import ElementLint.Proofs.Text.Utf8
import ElementLint.Proofs.Tree.Address
import ElementLint.Proofs.Tree.Bare
import ElementLint.Proofs.Tree.Column
import ElementLint.Proofs.Tree.Fault
import ElementLint.Proofs.Tree.Operands
import ElementLint.Proofs.Tree.Preorder
import ElementLint.Proofs.Tree.Problem
import ElementLint.Proofs.Tree.Snippet
import ElementLint.Proofs.Tree.Source
import ElementLint.Report.Given
import ElementLint.Report.Insertion
import ElementLint.Report.Item
import ElementLint.Report.Summary
import ElementLint.Report.Timing
import ElementLint.Rule.Basic
import ElementLint.Rule.ElementName
import ElementLint.Rule.GuardSuperCall
import ElementLint.Rule.InvalidElementName
import ElementLint.Text.Basic
import ElementLint.Text.Cased
import ElementLint.Text.Digit
import ElementLint.Text.Lowercase
import ElementLint.Text.Printable
import ElementLint.Text.Quoted
import ElementLint.Text.Ranges
import ElementLint.Text.Utf8
import ElementLint.Tree.Basic
import ElementLint.Tree.Problem
import ElementLint.Tree.Source
