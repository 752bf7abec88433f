import SqlLayout.Command.Arguments
import SqlLayout.Command.Report
import SqlLayout.Command.Run
import SqlLayout.Error
import SqlLayout.Files.Path
import SqlLayout.Files.Source
import SqlLayout.Files.Tree
import SqlLayout.Files.Workspace
import SqlLayout.Format
import SqlLayout.Host.Embedded
import SqlLayout.Host.Lexer
import SqlLayout.Host.Literal
import SqlLayout.Host.Parser
import SqlLayout.Host.Parser.Attribute
import SqlLayout.Host.Parser.Basic
import SqlLayout.Host.Parser.Expr
import SqlLayout.Host.Parser.Grammar
import SqlLayout.Host.Parser.Item
import SqlLayout.Host.Parser.Path
import SqlLayout.Host.Parser.Pattern
import SqlLayout.Host.Parser.Statement
import SqlLayout.Host.Parser.Type
import SqlLayout.Host.Token
import SqlLayout.Layout.FunctionName
import SqlLayout.Layout.OfSql
import SqlLayout.Layout.Piece
import SqlLayout.Layout.Render
import SqlLayout.Layout.Tree
import SqlLayout.Main
import SqlLayout.Placeholder
import SqlLayout.Proofs.HostAdvancing
import SqlLayout.Proofs.HostConstants
import SqlLayout.Proofs.HostLiterals
import SqlLayout.Proofs.Lines
import SqlLayout.Proofs.Queries
import SqlLayout.Proofs.QueryClauses
import SqlLayout.Proofs.Revision
import SqlLayout.Proofs.Splice
import SqlLayout.Sql.Keyword
import SqlLayout.Sql.Lexer
import SqlLayout.Sql.Parser
import SqlLayout.Sql.Parser.Alteration
import SqlLayout.Sql.Parser.Basic
import SqlLayout.Sql.Parser.Block
import SqlLayout.Sql.Parser.Call
import SqlLayout.Sql.Parser.ColumnOption
import SqlLayout.Sql.Parser.Command
import SqlLayout.Sql.Parser.DataType
import SqlLayout.Sql.Parser.Definition
import SqlLayout.Sql.Parser.Grammar
import SqlLayout.Sql.Parser.Mutation
import SqlLayout.Sql.Parser.Name
import SqlLayout.Sql.Parser.Nested
import SqlLayout.Sql.Parser.Operand
import SqlLayout.Sql.Parser.Operator
import SqlLayout.Sql.Parser.Option
import SqlLayout.Sql.Parser.Privilege
import SqlLayout.Sql.Parser.Query
import SqlLayout.Sql.Parser.Routine
import SqlLayout.Sql.Parser.Session
import SqlLayout.Sql.Parser.Table
import SqlLayout.Sql.Parser.TableDef
import SqlLayout.Sql.Parser.Transfer
import SqlLayout.Sql.Parser.TypeDef
import SqlLayout.Sql.Printer
import SqlLayout.Sql.Token
import SqlLayout.Sql.Tree
import SqlLayout.Style
import SqlLayout.Style.Discover
import SqlLayout.Style.OfToml
import SqlLayout.Text.Basic
import SqlLayout.Text.Cased
import SqlLayout.Text.Letter
import SqlLayout.Text.Quoted
import SqlLayout.Text.Visible
import SqlLayout.Text.Word
import SqlLayout.Toml.Document
import SqlLayout.Toml.Double
import SqlLayout.Toml.Reader
import SqlLayout.Toml.Tree
import SqlLayout.Toml.Value
import SqlLayout.Proofs.Markers
import SqlLayout.Proofs.Conditions
import SqlLayout.Proofs.Grouping
import SqlLayout.Proofs.Fences
import SqlLayout.Proofs.Leaves
import SqlLayout.Proofs.Emission
import SqlLayout.Proofs.Restoring
import SqlLayout.Proofs.Reformatting
import SqlLayout.Proofs.StyleIndependence
import SqlLayout.Proofs.Quoting
import SqlLayout.Proofs.NewLiterals
import SqlLayout.Proofs.Places
import SqlLayout.Proofs.Agreement
import SqlLayout.Proofs.Soundness
import SqlLayout.Proofs.Normalizing
import SqlLayout.Proofs.Stopping
import SqlLayout.Proofs.Stability
import SqlLayout.Proofs.HostRenewal
import SqlLayout.Proofs.Congruence
import SqlLayout.Proofs.Exchange
import SqlLayout.Proofs.Indentation
import SqlLayout.Proofs.ParserResults
import SqlLayout.Proofs.SetOperations
import SqlLayout.Proofs.Joins
import SqlLayout.Proofs.RawLiterals
import SqlLayout.Proofs.TypeNames
import SqlLayout.Proofs.Signs
import SqlLayout.Proofs.Openings
import SqlLayout.Proofs.Scripts
import SqlLayout.Proofs.CleanLines
import SqlLayout.Proofs.Comparisons
import SqlLayout.Proofs.NotEqual
import SqlLayout.Proofs.Groups
import SqlLayout.Proofs.Alignment
import SqlLayout.Proofs.HashRuns
import SqlLayout.Proofs.LineColumns
import SqlLayout.Proofs.BackToFront
import SqlLayout.Proofs.SourcePaths
import SqlLayout.Proofs.Reading.Basic
import SqlLayout.Proofs.Reading.Operands
import SqlLayout.Proofs.Reading.Expressions
import SqlLayout.Proofs.Reading.Clauses
import SqlLayout.Proofs.Reading.Calls
import SqlLayout.Proofs.Reading.Tables
import SqlLayout.Proofs.Reading.Bodies
import SqlLayout.Proofs.Reading.Statements
import SqlLayout.Proofs.Rereading.Casing
import SqlLayout.Proofs.Rereading.Readability
import SqlLayout.Proofs.Rereading.Writing
import SqlLayout.Proofs.Rereading.Expressions
import SqlLayout.Proofs.Rereading.Phrases
import SqlLayout.Proofs.Rereading.Tables
import SqlLayout.Proofs.Rereading.Queries
import SqlLayout.Proofs.Rereading.Trees
import SqlLayout.Proofs.Rereading.Surviving
import SqlLayout.Proofs.Rereading.Scripts
