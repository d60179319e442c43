import KeyedRecords.Client.Basic
import KeyedRecords.Client.Fault
import KeyedRecords.Commit.Batch
import KeyedRecords.Declaration.Basic
import KeyedRecords.Declaration.Check
import KeyedRecords.Declaration.Definition
import KeyedRecords.Error.Basic
import KeyedRecords.Field.Basic
import KeyedRecords.Field.Kind
import KeyedRecords.Field.Shape
import KeyedRecords.Instance.Basic
import KeyedRecords.Instance.Identity
import KeyedRecords.Instance.Lifecycle
import KeyedRecords.Json.Access
import KeyedRecords.Json.Basic
import KeyedRecords.Json.Number
import KeyedRecords.Json.Reading
import KeyedRecords.Json.Writing
import KeyedRecords.Model.Basic
import KeyedRecords.Model.Catalog
import KeyedRecords.Model.Config
import KeyedRecords.Model.Keys
import KeyedRecords.Model.Layout
import KeyedRecords.Model.Record
import KeyedRecords.Model.Registry
import KeyedRecords.Model.Shaped
import KeyedRecords.Model.SortOrder
import KeyedRecords.Number.Binary64
import KeyedRecords.Number.Double
import KeyedRecords.Number.FloatText
import KeyedRecords.Number.Integer
import KeyedRecords.Number.Shortest
import KeyedRecords.Pattern.Basic
import KeyedRecords.Pattern.Class
import KeyedRecords.Pattern.Compiled
import KeyedRecords.Pattern.Reading
import KeyedRecords.Proofs.Client.Contracts
import KeyedRecords.Proofs.Client.Running
import KeyedRecords.Proofs.Commit.Agreement
import KeyedRecords.Proofs.Commit.Checks
import KeyedRecords.Proofs.Commit.Consistency
import KeyedRecords.Proofs.Commit.Entries
import KeyedRecords.Proofs.Commit.Footprint
import KeyedRecords.Proofs.Commit.Freshness
import KeyedRecords.Proofs.Commit.History
import KeyedRecords.Proofs.Commit.Instances
import KeyedRecords.Proofs.Commit.Neighbours
import KeyedRecords.Proofs.Commit.Origins
import KeyedRecords.Proofs.Commit.Ranking
import KeyedRecords.Proofs.Commit.Records
import KeyedRecords.Proofs.Commit.Renaming
import KeyedRecords.Proofs.Commit.VersionIndex
import KeyedRecords.Proofs.Commit.Versions
import KeyedRecords.Proofs.Commit.Visits
import KeyedRecords.Proofs.Declaration.Spelling
import KeyedRecords.Proofs.Field.Bytes
import KeyedRecords.Proofs.Field.RoundTrip
import KeyedRecords.Proofs.Keyed
import KeyedRecords.Proofs.Model.Admission
import KeyedRecords.Proofs.Model.Catalog
import KeyedRecords.Proofs.Model.Coherence
import KeyedRecords.Proofs.Model.Keys
import KeyedRecords.Proofs.Model.Layout
import KeyedRecords.Proofs.Model.Record
import KeyedRecords.Proofs.Model.Registry
import KeyedRecords.Proofs.Model.Weights
import KeyedRecords.Proofs.Number.Decimals
import KeyedRecords.Proofs.Number.Integer
import KeyedRecords.Proofs.Number.RoundTrip
import KeyedRecords.Proofs.Number.Rounding
import KeyedRecords.Proofs.Pattern.Avoidance
import KeyedRecords.Proofs.Pattern.Names
import KeyedRecords.Proofs.Query.Answers
import KeyedRecords.Proofs.Query.Asking
import KeyedRecords.Proofs.Query.Blocks
import KeyedRecords.Proofs.Query.Chains
import KeyedRecords.Proofs.Query.Composition
import KeyedRecords.Proofs.Query.Construction
import KeyedRecords.Proofs.Query.Criteria
import KeyedRecords.Proofs.Query.CriterionKeys
import KeyedRecords.Proofs.Query.Denotation
import KeyedRecords.Proofs.Query.Expiry
import KeyedRecords.Proofs.Query.Fragments
import KeyedRecords.Proofs.Query.Kinds
import KeyedRecords.Proofs.Query.Lowering
import KeyedRecords.Proofs.Query.Plans
import KeyedRecords.Proofs.Query.Projection
import KeyedRecords.Proofs.Query.ReadBack
import KeyedRecords.Proofs.Query.Readers
import KeyedRecords.Proofs.Query.Reading
import KeyedRecords.Proofs.Query.Refresh
import KeyedRecords.Proofs.Query.Registered
import KeyedRecords.Proofs.Query.Renaming
import KeyedRecords.Proofs.Query.Request
import KeyedRecords.Proofs.Query.Rerunning
import KeyedRecords.Proofs.Query.Results
import KeyedRecords.Proofs.Query.Scores
import KeyedRecords.Proofs.Query.Snapshot
import KeyedRecords.Proofs.Query.SortPatterns
import KeyedRecords.Proofs.Query.StorageOrder
import KeyedRecords.Proofs.Query.Trees
import KeyedRecords.Proofs.Query.UsageErrors
import KeyedRecords.Proofs.Result
import KeyedRecords.Proofs.Session.Absorption
import KeyedRecords.Proofs.Session.Accounting
import KeyedRecords.Proofs.Session.Contributions
import KeyedRecords.Proofs.Session.Edits
import KeyedRecords.Proofs.Session.FailedDeletes
import KeyedRecords.Proofs.Session.Independence
import KeyedRecords.Proofs.Session.Moves
import KeyedRecords.Proofs.Session.Partitions
import KeyedRecords.Proofs.Session.Parts
import KeyedRecords.Proofs.Session.PendingChanges
import KeyedRecords.Proofs.Session.Phases
import KeyedRecords.Proofs.Session.QueuedIds
import KeyedRecords.Proofs.Session.Reachable
import KeyedRecords.Proofs.Session.Registration
import KeyedRecords.Proofs.Session.Renaming
import KeyedRecords.Proofs.Session.Settlement
import KeyedRecords.Proofs.Session.Slots
import KeyedRecords.Proofs.Session.StoredRecords
import KeyedRecords.Proofs.Session.TakingOver
import KeyedRecords.Proofs.Session.Tracking
import KeyedRecords.Proofs.Session.Transactions
import KeyedRecords.Proofs.Session.UnsentCommits
import KeyedRecords.Proofs.Slice
import KeyedRecords.Proofs.Store.Algebra
import KeyedRecords.Proofs.Store.Atomicity
import KeyedRecords.Proofs.Store.Collections
import KeyedRecords.Proofs.Store.Contents
import KeyedRecords.Proofs.Store.Effects
import KeyedRecords.Proofs.Store.Execution
import KeyedRecords.Proofs.Store.Footprint
import KeyedRecords.Proofs.Store.Listing
import KeyedRecords.Proofs.Store.Members
import KeyedRecords.Proofs.Store.Reading
import KeyedRecords.Proofs.Store.Renaming
import KeyedRecords.Proofs.Store.Scanning
import KeyedRecords.Proofs.Store.Scores
import KeyedRecords.Proofs.Store.Sorting
import KeyedRecords.Proofs.Store.Sources
import KeyedRecords.Proofs.Store.Starvation
import KeyedRecords.Proofs.Store.Steps
import KeyedRecords.Proofs.Store.WeightOrder
import KeyedRecords.Proofs.Text.Hex
import KeyedRecords.Proofs.Text.Prefix
import KeyedRecords.Proofs.Text.Split
import KeyedRecords.Query.Basic
import KeyedRecords.Query.Fields
import KeyedRecords.Query.Live
import KeyedRecords.Query.Lookup
import KeyedRecords.Query.Lowering
import KeyedRecords.Query.Plan
import KeyedRecords.Query.ResultSet
import KeyedRecords.Query.Search
import KeyedRecords.Query.Tree
import KeyedRecords.Sample.Models
import KeyedRecords.Session.Basic
import KeyedRecords.Session.Commit
import KeyedRecords.Session.Event
import KeyedRecords.Session.Outcome
import KeyedRecords.Session.Preparation
import KeyedRecords.Session.ScriptedHandler
import KeyedRecords.Session.Store
import KeyedRecords.Session.Tracker
import KeyedRecords.Session.Transaction
import KeyedRecords.Slice
import KeyedRecords.Store.Algebra
import KeyedRecords.Store.Command
import KeyedRecords.Store.CommitScript
import KeyedRecords.Store.Data
import KeyedRecords.Store.Execute
import KeyedRecords.Store.Keyspace
import KeyedRecords.Store.Reply
import KeyedRecords.Store.Server
import KeyedRecords.Store.Sorting
import KeyedRecords.Text.Character
import KeyedRecords.Text.Hex
import KeyedRecords.Text.Identifier
import KeyedRecords.Text.Quoted
import KeyedRecords.Text.Split
import KeyedRecords.Text.Table.LetterCase
import KeyedRecords.Text.Table.Unprinted
import KeyedRecords.Text.Table.Word
import KeyedRecords.Text.Utf8
import KeyedRecords.Validation.Check
import KeyedRecords.Validation.Failure
import KeyedRecords.Value
import KeyedRecords.Wire.Command
import KeyedRecords.Wire.Declaration
import KeyedRecords.Wire.Error
import KeyedRecords.Wire.Query
import KeyedRecords.Wire.Reply
import KeyedRecords.Wire.Schema
import KeyedRecords.Wire.Server
import KeyedRecords.Wire.Session
import KeyedRecords.Wire.Value
