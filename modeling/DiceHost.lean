import DiceHost.Alias
import DiceHost.Card.Actions
import DiceHost.Command.Line
import DiceHost.Command.Register
import DiceHost.Command.Tree
import DiceHost.Config
import DiceHost.Console
import DiceHost.Context
import DiceHost.Context.Build
import DiceHost.Decimal.Binary
import DiceHost.Decimal.Digits
import DiceHost.Decimal.Layout
import DiceHost.Decimal.Numeral
import DiceHost.Digest
import DiceHost.Engine.Code
import DiceHost.Engine.Exchange
import DiceHost.Engine.Library
import DiceHost.Engine.Live
import DiceHost.Engine.Number
import DiceHost.Engine.Parse
import DiceHost.Engine.Pattern
import DiceHost.Engine.Run
import DiceHost.Engine.State
import DiceHost.Engine.Step
import DiceHost.Engine.Table
import DiceHost.Engine.Token
import DiceHost.Engine.Value
import DiceHost.Failure
import DiceHost.Files.Path
import DiceHost.Files.Tree
import DiceHost.Formula.Expr
import DiceHost.Formula.Parse
import DiceHost.Formula.Sheet
import DiceHost.Formula.Token
import DiceHost.Game.Actions
import DiceHost.Host
import DiceHost.Invoke
import DiceHost.Json.Read
import DiceHost.Json.Relaxed
import DiceHost.Json.Value
import DiceHost.Json.Write
import DiceHost.KeyTable
import DiceHost.Literal.Decode
import DiceHost.Literal.Encode
import DiceHost.Log.Directives
import DiceHost.Log.Filter
import DiceHost.Main
import DiceHost.Plugin.Catalog
import DiceHost.Plugin.Descriptor
import DiceHost.Plugin.Package
import DiceHost.Plugin.Reply
import DiceHost.Plugin.Rulebook
import DiceHost.Plugin.Rules
import DiceHost.Plugin.Template
import DiceHost.Proofs.Command.Dispatch
import DiceHost.Proofs.Command.Registrar
import DiceHost.Proofs.Context.Cache
import DiceHost.Proofs.Context.Lookup
import DiceHost.Proofs.Context.OwnFields
import DiceHost.Proofs.Context.Players
import DiceHost.Proofs.Decimal.Integer
import DiceHost.Proofs.Decimal.Layout
import DiceHost.Proofs.Engine.Bare
import DiceHost.Proofs.Engine.CardReading
import DiceHost.Proofs.Engine.Compare
import DiceHost.Proofs.Engine.Conversion
import DiceHost.Proofs.Engine.Course
import DiceHost.Proofs.Engine.Epilogue
import DiceHost.Proofs.Engine.Evaluate
import DiceHost.Proofs.Engine.Filling
import DiceHost.Proofs.Engine.Globals
import DiceHost.Proofs.Engine.Leak
import DiceHost.Proofs.Engine.Manuals
import DiceHost.Proofs.Engine.Plain
import DiceHost.Proofs.Engine.Replace
import DiceHost.Proofs.Engine.RuleQuery
import DiceHost.Proofs.Files.Walk
import DiceHost.Proofs.Formula.Grammar
import DiceHost.Proofs.Formula.Mentions
import DiceHost.Proofs.Formula.Progress
import DiceHost.Proofs.Formula.References
import DiceHost.Proofs.Formula.Solve
import DiceHost.Proofs.Json.Compact
import DiceHost.Proofs.Json.Held
import DiceHost.Proofs.Json.Numbers
import DiceHost.Proofs.Json.Quoted
import DiceHost.Proofs.Json.Relaxed
import DiceHost.Proofs.Json.RoundTrip
import DiceHost.Proofs.KeyTable
import DiceHost.Proofs.Literal.Compact
import DiceHost.Proofs.Literal.Entries
import DiceHost.Proofs.Literal.Escapes
import DiceHost.Proofs.Literal.Item
import DiceHost.Proofs.Literal.Numeral
import DiceHost.Proofs.Literal.Quoted
import DiceHost.Proofs.Literal.Renewal
import DiceHost.Proofs.Literal.RoundTrip
import DiceHost.Proofs.Literal.Written
import DiceHost.Proofs.Placeholders
import DiceHost.Proofs.Plugin.Contribution
import DiceHost.Proofs.Plugin.Handover
import DiceHost.Proofs.Plugin.History
import DiceHost.Proofs.Plugin.Isolation
import DiceHost.Proofs.Plugin.Malformed
import DiceHost.Proofs.Plugin.Owner
import DiceHost.Proofs.Plugin.Qualified
import DiceHost.Proofs.Plugin.Records
import DiceHost.Proofs.Plugin.Refused
import DiceHost.Proofs.Plugin.Repeated
import DiceHost.Proofs.Plugin.RuleLookup
import DiceHost.Proofs.Plugin.Serving
import DiceHost.Proofs.Plugin.Standing
import DiceHost.Proofs.Render
import DiceHost.Proofs.Script.Collected
import DiceHost.Proofs.Script.Loading
import DiceHost.Proofs.Script.Scanning
import DiceHost.Proofs.Script.Wrapping
import DiceHost.Proofs.Search
import DiceHost.Proofs.Settling
import DiceHost.Proofs.Store.CardHistory
import DiceHost.Proofs.Store.CardLaws
import DiceHost.Proofs.Store.Cards
import DiceHost.Proofs.Store.Cells
import DiceHost.Proofs.Store.Changes
import DiceHost.Proofs.Store.Clients
import DiceHost.Proofs.Store.Columns
import DiceHost.Proofs.Store.Deck
import DiceHost.Proofs.Store.Deferred
import DiceHost.Proofs.Store.FailedSave
import DiceHost.Proofs.Store.GameHistory
import DiceHost.Proofs.Store.GameKeepers
import DiceHost.Proofs.Store.GameLaws
import DiceHost.Proofs.Store.GameRequests
import DiceHost.Proofs.Store.Games
import DiceHost.Proofs.Store.Migrations
import DiceHost.Proofs.Store.Operations
import DiceHost.Proofs.Store.Quiet
import DiceHost.Proofs.Store.Refusal
import DiceHost.Proofs.Store.Rosters
import DiceHost.Proofs.Store.Services
import DiceHost.Proofs.Store.Turns
import DiceHost.Proofs.Store.Unnamed
import DiceHost.Proofs.Store.Values
import DiceHost.Proofs.Template.Cycles
import DiceHost.Proofs.Template.DeclarationOrder
import DiceHost.Proofs.Template.Defaults
import DiceHost.Proofs.Template.Fields
import DiceHost.Proofs.Template.Names
import DiceHost.Proofs.Template.Registry
import DiceHost.Proofs.Text.Cuts
import DiceHost.Proofs.Text.Utf8
import DiceHost.Proofs.Text.Words
import DiceHost.Render
import DiceHost.Script.Interpreter
import DiceHost.Script.Load
import DiceHost.Script.Program
import DiceHost.Script.Wrap
import DiceHost.Storage
import DiceHost.Store.Action
import DiceHost.Store.Column
import DiceHost.Store.Database
import DiceHost.Store.Faulty
import DiceHost.Store.File
import DiceHost.Store.Memory
import DiceHost.Store.Migration
import DiceHost.Store.Record
import DiceHost.Text.Blank
import DiceHost.Text.Letter
import DiceHost.Text.LowerCase
import DiceHost.Text.Split
import DiceHost.Text.Utf8
import DiceHost.Toml.Read
import DiceHost.Toml.Scalar
import DiceHost.Toml.Section
import DiceHost.Toml.Tree
import DiceHost.Toml.Value
import DiceHost.Xml.Event
import DiceHost.Yaml.Parse
import DiceHost.Yaml.Token
import DiceHost.Yaml.Value
import DiceHost.Yaml.Write
