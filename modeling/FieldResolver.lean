import FieldResolver.Api.Bind
import FieldResolver.Api.Bound
import FieldResolver.Api.DataSource
import FieldResolver.Api.Definition
import FieldResolver.Api.Location
import FieldResolver.Api.Resolver
import FieldResolver.Attribute.Value
import FieldResolver.Calendar.Date
import FieldResolver.Calendar.Moment
import FieldResolver.Calendar.Pattern
import FieldResolver.CommandLine.Arguments
import FieldResolver.CommandLine.Help
import FieldResolver.CommandLine.Run
import FieldResolver.Decimal.Binary
import FieldResolver.Decimal.Layout
import FieldResolver.Decimal.Reading
import FieldResolver.Decimal.Shortest
import FieldResolver.Dict
import FieldResolver.Dispatch.Batch
import FieldResolver.Dispatch.Dispatcher
import FieldResolver.Field.Context
import FieldResolver.Field.Request
import FieldResolver.Json.Basic
import FieldResolver.Json.Printer
import FieldResolver.Json.Reader
import FieldResolver.Json.Record
import FieldResolver.Main
import FieldResolver.Proofs.Api.Binding
import FieldResolver.Proofs.Api.Definitions
import FieldResolver.Proofs.Api.Parts
import FieldResolver.Proofs.Api.Resolvers
import FieldResolver.Proofs.Api.Sources
import FieldResolver.Proofs.Attribute.RoundTrip
import FieldResolver.Proofs.Batching.Account
import FieldResolver.Proofs.Batching.Accounting
import FieldResolver.Proofs.Batching.OpenBatches
import FieldResolver.Proofs.Batching.Protocol
import FieldResolver.Proofs.Batching.Shares
import FieldResolver.Proofs.Batching.Timeline
import FieldResolver.Proofs.Decimal.Arithmetic
import FieldResolver.Proofs.Decimal.Nearest
import FieldResolver.Proofs.Decimal.ReadBack
import FieldResolver.Proofs.Decimal.Rounding
import FieldResolver.Proofs.Decimal.Text
import FieldResolver.Proofs.Dict
import FieldResolver.Proofs.Fallible
import FieldResolver.Proofs.Field.Request
import FieldResolver.Proofs.Json.Records
import FieldResolver.Proofs.Json.Text
import FieldResolver.Proofs.Json.Valid
import FieldResolver.Proofs.Resolution.Alone
import FieldResolver.Proofs.Resolution.Courses
import FieldResolver.Proofs.Resolution.Endings
import FieldResolver.Proofs.Resolution.Interleaving
import FieldResolver.Proofs.Resolution.Recorded
import FieldResolver.Proofs.Resolution.Runs
import FieldResolver.Proofs.Resolution.Schedule
import FieldResolver.Proofs.Resolution.Siblings
import FieldResolver.Proofs.Resolution.StageCourse
import FieldResolver.Proofs.Resolution.Starting
import FieldResolver.Proofs.Resolution.Traces
import FieldResolver.Proofs.Resolution.Views
import FieldResolver.Proofs.Resolution.Waits
import FieldResolver.Proofs.Table.Effects
import FieldResolver.Proofs.Table.Entries
import FieldResolver.Proofs.Table.Failure
import FieldResolver.Proofs.Table.History
import FieldResolver.Proofs.Table.KeyNames
import FieldResolver.Proofs.Table.KeyText
import FieldResolver.Proofs.Table.Reached
import FieldResolver.Proofs.Table.WellFormed
import FieldResolver.Proofs.Template.Cache
import FieldResolver.Proofs.Template.Identifiers
import FieldResolver.Proofs.Template.Recording
import FieldResolver.Regex.CharSet
import FieldResolver.Regex.Matching
import FieldResolver.Regex.Parser
import FieldResolver.Regex.Program
import FieldResolver.Regex.Syntax
import FieldResolver.Resolution.FieldResult
import FieldResolver.Resolution.Pipeline
import FieldResolver.Resolution.Program
import FieldResolver.Resolution.Session
import FieldResolver.Resolution.StageError
import FieldResolver.Resolution.Timeline
import FieldResolver.Source.Call
import FieldResolver.Source.FunctionProcess
import FieldResolver.Source.Relational
import FieldResolver.Source.Script
import FieldResolver.Source.Statement
import FieldResolver.Source.Url
import FieldResolver.Source.Web
import FieldResolver.Table.Condition
import FieldResolver.Table.Expression
import FieldResolver.Table.Index
import FieldResolver.Table.Request
import FieldResolver.Table.Store
import FieldResolver.Table.Token
import FieldResolver.Table.Update
import FieldResolver.Template.Arithmetic
import FieldResolver.Template.Comparison
import FieldResolver.Template.Evaluator
import FieldResolver.Template.Fault
import FieldResolver.Template.Function.Arguments
import FieldResolver.Template.Function.Attributes
import FieldResolver.Template.Function.Call
import FieldResolver.Template.Function.Collection
import FieldResolver.Template.Function.General
import FieldResolver.Template.Function.Rows
import FieldResolver.Template.Function.Time
import FieldResolver.Template.Heap
import FieldResolver.Template.Interpreter
import FieldResolver.Template.Methods
import FieldResolver.Template.Output
import FieldResolver.Template.Parser
import FieldResolver.Template.Run
import FieldResolver.Template.Syntax
import FieldResolver.Template.SyntaxError
import FieldResolver.Template.Tree
import FieldResolver.Template.Value
import FieldResolver.Text.Blank
import FieldResolver.Text.Encoding
import FieldResolver.Text.Identifier
import FieldResolver.Text.Search
import FieldResolver.Unicode.Case
import FieldResolver.Unicode.Category
import FieldResolver.Unicode.Packed
import FieldResolver.Proofs.Table.Listing
import FieldResolver.Proofs.Table.Readable
import FieldResolver.Proofs.Table.Paging
import FieldResolver.Proofs.Json.TextOrder
import FieldResolver.Proofs.Table.KeyOrder
import FieldResolver.Proofs.Table.Creation
import FieldResolver.Proofs.Table.Batches
import FieldResolver.Proofs.Template.Reuse
import FieldResolver.Proofs.Template.Passive
import FieldResolver.Proofs.Template.RoundTrip
import FieldResolver.Proofs.Dispatch.Agenda
import FieldResolver.Proofs.Dispatch.Moves
import FieldResolver.Proofs.Dispatch.Race
import FieldResolver.Proofs.Dispatch.Waiting
import FieldResolver.Proofs.Dispatch.Rest
import FieldResolver.Proofs.Dispatch.Batched
import FieldResolver.Proofs.Dispatch.Outcome
import FieldResolver.Proofs.Parsing.Sigils
import FieldResolver.Proofs.Parsing.Turns
import FieldResolver.Proofs.Parsing.Escaping
import FieldResolver.Proofs.Parsing.ReadBack
import FieldResolver.Proofs.Template.Sameness
import FieldResolver.Proofs.Template.Loops
import FieldResolver.Proofs.Expression.Tokens
import FieldResolver.Proofs.Expression.Conditions
import FieldResolver.Proofs.Expression.Clauses
import FieldResolver.Proofs.Expression.Ordering
import FieldResolver.Proofs.Table.Attributes
import FieldResolver.Proofs.Table.Acceptance
import FieldResolver.Proofs.Decimal.Whole
import FieldResolver.Proofs.Table.Numbers
import FieldResolver.Proofs.Runs
import FieldResolver.Proofs.Resolution.GivenUp
import FieldResolver.Proofs.Source.Placeholders
import FieldResolver.Proofs.Json.Accepted
import FieldResolver.Proofs.Template.TrailingCommas
import FieldResolver.Proofs.Json.Lines
import FieldResolver.Proofs.Source.LastLine
import FieldResolver.Proofs.Calendar.Quoted
import FieldResolver.Proofs.Source.ContentType
import FieldResolver.Proofs.Template.WholeNumbers
import FieldResolver.Proofs.Journal
import FieldResolver.Proofs.Template.MapReadings
import FieldResolver.Proofs.Text.ScriptString
import FieldResolver.Proofs.Text.Encoding
import FieldResolver.Proofs.Text.Positions
