import ModelSchema.Block.Basic
import ModelSchema.Block.Gathered
import ModelSchema.Block.Scope
import ModelSchema.Block.Statement
import ModelSchema.Command.Arguments
import ModelSchema.Command.Paths
import ModelSchema.Command.Run
import ModelSchema.Compiler
import ModelSchema.Config.Load
import ModelSchema.Config.OptionTable
import ModelSchema.Error.Category
import ModelSchema.Error.Cause
import ModelSchema.Error.Report
import ModelSchema.Error.Scan
import ModelSchema.Event
import ModelSchema.Expression.Condition
import ModelSchema.Expression.Permission
import ModelSchema.Expression.View
import ModelSchema.Field.Effect
import ModelSchema.Field.Type
import ModelSchema.Files.Path
import ModelSchema.Files.Tree
import ModelSchema.Json.Reader
import ModelSchema.Json.Writer
import ModelSchema.Literal
import ModelSchema.Main
import ModelSchema.Number.Basic
import ModelSchema.Number.Double
import ModelSchema.Number.Numeral
import ModelSchema.Number.Shortest
import ModelSchema.Number.Whole
import ModelSchema.Options
import ModelSchema.Pattern.Basic
import ModelSchema.Pattern.Reader
import ModelSchema.Proofs.Accumulation
import ModelSchema.Proofs.Attempt
import ModelSchema.Proofs.Blanks
import ModelSchema.Proofs.Breakdown
import ModelSchema.Proofs.Caret
import ModelSchema.Proofs.Concatenation
import ModelSchema.Proofs.Configuration
import ModelSchema.Proofs.Conservation
import ModelSchema.Proofs.Contribution
import ModelSchema.Proofs.Decomposition
import ModelSchema.Proofs.Default
import ModelSchema.Proofs.Division
import ModelSchema.Proofs.Document
import ModelSchema.Proofs.Effect
import ModelSchema.Proofs.Ending
import ModelSchema.Proofs.Exchange
import ModelSchema.Proofs.Fields
import ModelSchema.Proofs.Finiteness
import ModelSchema.Proofs.FirstFailure
import ModelSchema.Proofs.FirstPlace
import ModelSchema.Proofs.Flush
import ModelSchema.Proofs.Grammar
import ModelSchema.Proofs.Heading
import ModelSchema.Proofs.ItemType
import ModelSchema.Proofs.JsonNumber
import ModelSchema.Proofs.JsonText
import ModelSchema.Proofs.Keyword
import ModelSchema.Proofs.Layout
import ModelSchema.Proofs.Location
import ModelSchema.Proofs.Magnitude
import ModelSchema.Proofs.Mention
import ModelSchema.Proofs.Numeral
import ModelSchema.Proofs.Options
import ModelSchema.Proofs.Origin
import ModelSchema.Proofs.Outline
import ModelSchema.Proofs.Permissions
import ModelSchema.Proofs.Place
import ModelSchema.Proofs.Printing
import ModelSchema.Proofs.Quotation
import ModelSchema.Proofs.Reference
import ModelSchema.Proofs.Refinement
import ModelSchema.Proofs.Reordering
import ModelSchema.Proofs.Respacing
import ModelSchema.Proofs.Rule
import ModelSchema.Proofs.Run
import ModelSchema.Proofs.Scan
import ModelSchema.Proofs.Seam
import ModelSchema.Proofs.Session
import ModelSchema.Proofs.Spelling
import ModelSchema.Proofs.Splitting
import ModelSchema.Proofs.Text
import ModelSchema.Proofs.Tokens
import ModelSchema.Proofs.Unclosed
import ModelSchema.Proofs.Untouched
import ModelSchema.Proofs.Walk
import ModelSchema.Schema.Findings
import ModelSchema.Schema.Keyword
import ModelSchema.Schema.Metaschema
import ModelSchema.Schema.Pointer
import ModelSchema.Schema.Validation
import ModelSchema.Source.Header
import ModelSchema.Source.Line
import ModelSchema.Tag.Basic
import ModelSchema.Tag.Kind
import ModelSchema.Tag.Scanner
import ModelSchema.Text.Basic
import ModelSchema.Text.Blank
import ModelSchema.Text.Digit
import ModelSchema.Text.Hex
import ModelSchema.Text.LowerCase
import ModelSchema.Text.Printable
import ModelSchema.Text.Quoted
import ModelSchema.Text.Range
import ModelSchema.Text.Utf8
import ModelSchema.Text.Word
import ModelSchema.Toml.Lexical
import ModelSchema.Toml.Reader
import ModelSchema.Toml.Table
import ModelSchema.Value.Basic
import ModelSchema.Value.Display
import ModelSchema.Value.Equality
import ModelSchema.Value.Fields
import ModelSchema.Version
