import ColumnStore.Environment
import ColumnStore.Environment.Setting
import ColumnStore.Fault
import ColumnStore.Json
import ColumnStore.Migration.Command
import ColumnStore.Migration.History
import ColumnStore.Migration.Operation
import ColumnStore.Migration.Order
import ColumnStore.Migration.ScriptedStore
import ColumnStore.Number.Binary64
import ColumnStore.Number.Decimal
import ColumnStore.Number.FloatText
import ColumnStore.Number.JsonText
import ColumnStore.Proofs.Migration.Addressing
import ColumnStore.Proofs.Migration.AllOrNothing
import ColumnStore.Proofs.Migration.Cluster
import ColumnStore.Proofs.Migration.Columns
import ColumnStore.Proofs.Migration.Counting
import ColumnStore.Proofs.Migration.CreationOrder
import ColumnStore.Proofs.Migration.Depth
import ColumnStore.Proofs.Migration.Execution
import ColumnStore.Proofs.Migration.ExternalDictionaries
import ColumnStore.Proofs.Migration.HistoryProbe
import ColumnStore.Proofs.Migration.HistoryRuns
import ColumnStore.Proofs.Migration.Insertion
import ColumnStore.Proofs.Migration.Layers
import ColumnStore.Proofs.Migration.Placeholder
import ColumnStore.Proofs.Migration.Resorting
import ColumnStore.Proofs.Migration.Terminator
import ColumnStore.Proofs.Number.Doubles
import ColumnStore.Proofs.Number.FloatText
import ColumnStore.Proofs.Number.Nearest
import ColumnStore.Proofs.Outcome
import ColumnStore.Proofs.Query.EnumerationCodes
import ColumnStore.Proofs.Query.Folding
import ColumnStore.Proofs.Query.Grammar
import ColumnStore.Proofs.Query.Grouping
import ColumnStore.Proofs.Query.InPlace
import ColumnStore.Proofs.Query.Indices
import ColumnStore.Proofs.Query.LexicalScope
import ColumnStore.Proofs.Query.Modifiers
import ColumnStore.Proofs.Query.Negation
import ColumnStore.Proofs.Query.Nullness
import ColumnStore.Proofs.Query.Operators
import ColumnStore.Proofs.Query.Parameters
import ColumnStore.Proofs.Query.PathAccess
import ColumnStore.Proofs.Query.PathText
import ColumnStore.Proofs.Query.Sampling
import ColumnStore.Proofs.Query.Scoping
import ColumnStore.Proofs.Query.Untranslatable
import ColumnStore.Proofs.Query.WholeNumbers
import ColumnStore.Proofs.Table.Clauses
import ColumnStore.Proofs.Table.Creation
import ColumnStore.Proofs.Table.EngineText
import ColumnStore.Proofs.Table.Nulls
import ColumnStore.Proofs.Table.Settings
import ColumnStore.Proofs.Text.Blank
import ColumnStore.Proofs.Text.Comment
import ColumnStore.Proofs.Text.Integer
import ColumnStore.Proofs.Text.Lists
import ColumnStore.Proofs.Text.Names
import ColumnStore.Proofs.Text.Quoted
import ColumnStore.Proofs.Types.Arguments
import ColumnStore.Proofs.Types.Enumerations
import ColumnStore.Proofs.Types.FieldNames
import ColumnStore.Proofs.Types.LongTuples
import ColumnStore.Proofs.Types.Mapping
import ColumnStore.Proofs.Types.Members
import ColumnStore.Proofs.Types.Parentheses
import ColumnStore.Proofs.Types.RecordNames
import ColumnStore.Proofs.Types.RoundTrip
import ColumnStore.Proofs.Types.Splitting
import ColumnStore.Proofs.Types.Stability
import ColumnStore.Proofs.Types.Totality
import ColumnStore.Proofs.Types.Wrapping
import ColumnStore.Proofs.Value.Literal
import ColumnStore.Proofs.Value.NumberText
import ColumnStore.Proofs.Value.Reading
import ColumnStore.Proofs.Value.Signs
import ColumnStore.Query.Expr
import ColumnStore.Query.JsonPath
import ColumnStore.Query.Lowering
import ColumnStore.Query.Method
import ColumnStore.Query.Select
import ColumnStore.Query.Sql
import ColumnStore.Query.Typing
import ColumnStore.SortedMap
import ColumnStore.Table.Clause
import ColumnStore.Table.Dictionary
import ColumnStore.Table.Engine
import ColumnStore.Table.Entity
import ColumnStore.Table.SkipIndex
import ColumnStore.Text.Integer
import ColumnStore.Text.Printable
import ColumnStore.Text.Quoted
import ColumnStore.Text.Search
import ColumnStore.Types.ColumnType
import ColumnStore.Types.Reading
import ColumnStore.Types.ValueType
import ColumnStore.Value.Arithmetic
import ColumnStore.Value.Basic
