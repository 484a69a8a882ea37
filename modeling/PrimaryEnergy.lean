import PrimaryEnergy.Bundle.Basic
import PrimaryEnergy.Bundle.Content
import PrimaryEnergy.Bundle.Run
import PrimaryEnergy.CommandLine.Arguments
import PrimaryEnergy.CommandLine.Commands
import PrimaryEnergy.Component.Balance
import PrimaryEnergy.Component.Basic
import PrimaryEnergy.Component.Selection
import PrimaryEnergy.Component.Summary
import PrimaryEnergy.Component.Text
import PrimaryEnergy.Decimal.Double
import PrimaryEnergy.Decimal.Fixed
import PrimaryEnergy.Decimal.Numeral
import PrimaryEnergy.Decimal.Shortest
import PrimaryEnergy.Distinct
import PrimaryEnergy.Document.Basic
import PrimaryEnergy.Document.Checked
import PrimaryEnergy.Document.Json
import PrimaryEnergy.Document.Moment
import PrimaryEnergy.Document.Records
import PrimaryEnergy.Document.Yaml.Glyph
import PrimaryEnergy.Document.Yaml.Lexeme
import PrimaryEnergy.Document.Yaml.Node
import PrimaryEnergy.Document.Yaml.Read
import PrimaryEnergy.Document.Yaml.Scalar
import PrimaryEnergy.Document.Yaml.Word
import PrimaryEnergy.Document.Yaml.Write
import PrimaryEnergy.Example
import PrimaryEnergy.Factor.Basic
import PrimaryEnergy.Factor.Completion
import PrimaryEnergy.Factor.Family
import PrimaryEnergy.Factor.Perimeter
import PrimaryEnergy.Factor.Pruning
import PrimaryEnergy.Factor.Text
import PrimaryEnergy.Factor.Uniqueness
import PrimaryEnergy.Fault
import PrimaryEnergy.Files.Path
import PrimaryEnergy.Files.Tree
import PrimaryEnergy.Journal
import PrimaryEnergy.Main
import PrimaryEnergy.Metadata
import PrimaryEnergy.Pair
import PrimaryEnergy.Preparation
import PrimaryEnergy.Proofs.Bundle.Agreement
import PrimaryEnergy.Proofs.Bundle.CompletedFile
import PrimaryEnergy.Proofs.Bundle.History
import PrimaryEnergy.Proofs.Bundle.Inputs
import PrimaryEnergy.Proofs.Bundle.Location
import PrimaryEnergy.Proofs.Bundle.PreparedFile
import PrimaryEnergy.Proofs.Bundle.Record
import PrimaryEnergy.Proofs.Bundle.Run
import PrimaryEnergy.Proofs.Bundle.Validation
import PrimaryEnergy.Proofs.Bundle.Writing
import PrimaryEnergy.Proofs.CommandLine.Factors
import PrimaryEnergy.Proofs.Completion.Again
import PrimaryEnergy.Proofs.Completion.Independence
import PrimaryEnergy.Proofs.Completion.Interruption
import PrimaryEnergy.Proofs.Completion.Order
import PrimaryEnergy.Proofs.Completion.Outcome
import PrimaryEnergy.Proofs.Completion.Record
import PrimaryEnergy.Proofs.Completion.Rules
import PrimaryEnergy.Proofs.Completion.Settled
import PrimaryEnergy.Proofs.Completion.Supply
import PrimaryEnergy.Proofs.Completion.Text
import PrimaryEnergy.Proofs.Component.Again
import PrimaryEnergy.Proofs.Component.Ambient
import PrimaryEnergy.Proofs.Component.Balance
import PrimaryEnergy.Proofs.Component.Covered
import PrimaryEnergy.Proofs.Component.Exchange
import PrimaryEnergy.Proofs.Component.Grammar
import PrimaryEnergy.Proofs.Component.Locality
import PrimaryEnergy.Proofs.Component.Processed
import PrimaryEnergy.Proofs.Component.Projection
import PrimaryEnergy.Proofs.Component.Selection
import PrimaryEnergy.Proofs.Component.Summary
import PrimaryEnergy.Proofs.Component.Text
import PrimaryEnergy.Proofs.Decimal.Arithmetic
import PrimaryEnergy.Proofs.Decimal.Bits
import PrimaryEnergy.Proofs.Decimal.Fixed
import PrimaryEnergy.Proofs.Decimal.Nearest
import PrimaryEnergy.Proofs.Decimal.Stable
import PrimaryEnergy.Proofs.Decimal.Unpacked
import PrimaryEnergy.Proofs.Decimal.Written
import PrimaryEnergy.Proofs.Distinct
import PrimaryEnergy.Proofs.Document.Checked
import PrimaryEnergy.Proofs.Factor.Perimeter
import PrimaryEnergy.Proofs.Factor.Pruning
import PrimaryEnergy.Proofs.Factor.Resolution
import PrimaryEnergy.Proofs.Factor.Text
import PrimaryEnergy.Proofs.Factor.Uniqueness
import PrimaryEnergy.Proofs.Files.Folder
import PrimaryEnergy.Proofs.Metadata
import PrimaryEnergy.Proofs.Pair
import PrimaryEnergy.Proofs.Preparation.Coverage
import PrimaryEnergy.Proofs.Series.Conservation
import PrimaryEnergy.Proofs.Series.Rounded
import PrimaryEnergy.Proofs.Series.Sum
import PrimaryEnergy.Proofs.Settings.RoundTrip
import PrimaryEnergy.Proofs.Table.Breaks
import PrimaryEnergy.Proofs.Table.Field
import PrimaryEnergy.Proofs.Table.Line
import PrimaryEnergy.Proofs.Table.RoundTrip
import PrimaryEnergy.Proofs.Table.Text
import PrimaryEnergy.Proofs.Text.Breaks
import PrimaryEnergy.Proofs.Text.LetterCase
import PrimaryEnergy.Proofs.Text.Lines
import PrimaryEnergy.Regulation.Basic
import PrimaryEnergy.Regulation.Completed
import PrimaryEnergy.Regulation.Current
import PrimaryEnergy.Regulation.Document
import PrimaryEnergy.Series.Pointwise
import PrimaryEnergy.Series.Sum
import PrimaryEnergy.Settings.Basic
import PrimaryEnergy.Table.Basic
import PrimaryEnergy.Table.Text
import PrimaryEnergy.Text.Blank
import PrimaryEnergy.Text.Digit
import PrimaryEnergy.Text.Grid
import PrimaryEnergy.Text.Hex
import PrimaryEnergy.Text.LetterCase
import PrimaryEnergy.Text.Lines
import PrimaryEnergy.Text.Quoted
import PrimaryEnergy.Vocabulary
