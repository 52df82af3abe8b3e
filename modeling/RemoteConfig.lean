import RemoteConfig.Client.Attribute
import RemoteConfig.Client.Context
import RemoteConfig.Cluster
import RemoteConfig.Decimal.Layout
import RemoteConfig.Decimal.Reading
import RemoteConfig.Digest
import RemoteConfig.Entity.Basic
import RemoteConfig.Entity.Change
import RemoteConfig.Entity.Value
import RemoteConfig.Entity.Wire
import RemoteConfig.Envelope
import RemoteConfig.Json.Basic
import RemoteConfig.Json.Number
import RemoteConfig.Json.Parser
import RemoteConfig.Json.Printer
import RemoteConfig.Json.Record
import RemoteConfig.Json.Token
import RemoteConfig.Pool
import RemoteConfig.Proofs.Acceptance
import RemoteConfig.Proofs.Addressing
import RemoteConfig.Proofs.Answers
import RemoteConfig.Proofs.Atomicity
import RemoteConfig.Proofs.Balance
import RemoteConfig.Proofs.Cache
import RemoteConfig.Proofs.Calendar
import RemoteConfig.Proofs.Chain
import RemoteConfig.Proofs.Completeness
import RemoteConfig.Proofs.Conditions
import RemoteConfig.Proofs.Convergence
import RemoteConfig.Proofs.Delivery
import RemoteConfig.Proofs.Digits
import RemoteConfig.Proofs.Dump
import RemoteConfig.Proofs.Edit
import RemoteConfig.Proofs.FastPath
import RemoteConfig.Proofs.Faults
import RemoteConfig.Proofs.Fields
import RemoteConfig.Proofs.Fingerprint
import RemoteConfig.Proofs.Fleet
import RemoteConfig.Proofs.Freshness
import RemoteConfig.Proofs.Grammar
import RemoteConfig.Proofs.Holdings
import RemoteConfig.Proofs.Host
import RemoteConfig.Proofs.Index
import RemoteConfig.Proofs.Inlining
import RemoteConfig.Proofs.Integrity
import RemoteConfig.Proofs.Invalidation
import RemoteConfig.Proofs.Invariant
import RemoteConfig.Proofs.Isolation
import RemoteConfig.Proofs.Ledger
import RemoteConfig.Proofs.Legality
import RemoteConfig.Proofs.Lineage
import RemoteConfig.Proofs.Literals
import RemoteConfig.Proofs.Lookup
import RemoteConfig.Proofs.Mirror
import RemoteConfig.Proofs.Moments
import RemoteConfig.Proofs.Network
import RemoteConfig.Proofs.NormalForm
import RemoteConfig.Proofs.Numerals
import RemoteConfig.Proofs.Observations
import RemoteConfig.Proofs.Operators
import RemoteConfig.Proofs.Opposites
import RemoteConfig.Proofs.Outcome
import RemoteConfig.Proofs.OwnRow
import RemoteConfig.Proofs.Parameters
import RemoteConfig.Proofs.Peers
import RemoteConfig.Proofs.Range
import RemoteConfig.Proofs.Reads
import RemoteConfig.Proofs.Recording
import RemoteConfig.Proofs.Records
import RemoteConfig.Proofs.Registry
import RemoteConfig.Proofs.Reread
import RemoteConfig.Proofs.Resolution
import RemoteConfig.Proofs.Restart
import RemoteConfig.Proofs.Rounding
import RemoteConfig.Proofs.Rows
import RemoteConfig.Proofs.RuleForm
import RemoteConfig.Proofs.Scanning
import RemoteConfig.Proofs.Serial
import RemoteConfig.Proofs.Sharing
import RemoteConfig.Proofs.Signs
import RemoteConfig.Proofs.Table
import RemoteConfig.Proofs.TextForm
import RemoteConfig.Proofs.Tokens
import RemoteConfig.Proofs.Truncation
import RemoteConfig.Proofs.Versions
import RemoteConfig.Proofs.Wildcards
import RemoteConfig.Proofs.Wire
import RemoteConfig.Recorder
import RemoteConfig.Replica
import RemoteConfig.Rule.Admission
import RemoteConfig.Rule.Evaluator
import RemoteConfig.Rule.Expr
import RemoteConfig.Rule.Glob
import RemoteConfig.Rule.Operator
import RemoteConfig.Rule.Parser
import RemoteConfig.Rule.Printer
import RemoteConfig.Rule.Version
import RemoteConfig.Rule.Wire
import RemoteConfig.Service.Basic
import RemoteConfig.Service.Write
import RemoteConfig.Snapshot.Basic
import RemoteConfig.Snapshot.Dump
import RemoteConfig.Snapshot.Resolve
import RemoteConfig.Storage.Basic
import RemoteConfig.Store
import RemoteConfig.Telemetry
import RemoteConfig.Text.Blank
import RemoteConfig.Text.CodeSet
import RemoteConfig.Text.Composition
import RemoteConfig.Text.Hex
import RemoteConfig.Text.Mark
import RemoteConfig.Text.Quoted
import RemoteConfig.Text.Unassigned
import RemoteConfig.Time.Calendar
import RemoteConfig.Time.Timestamp
import RemoteConfig.Url.Address
import RemoteConfig.Url.Basic
import RemoteConfig.Url.Direction
import RemoteConfig.Url.Domain
import RemoteConfig.Url.Folding
import RemoteConfig.Url.Joining
import RemoteConfig.Url.Punycode
