import Telemetry.Agent.Delivery
import Telemetry.Agent.Host
import Telemetry.Agent.Http
import Telemetry.Agent.Options
import Telemetry.Agent.Pool
import Telemetry.Agent.Rpc
import Telemetry.Agent.Samples
import Telemetry.Agent.Sender
import Telemetry.Agent.Timeline
import Telemetry.Bytes
import Telemetry.Config
import Telemetry.Decimal.Binary64
import Telemetry.Decimal.Integer
import Telemetry.Decimal.Layout
import Telemetry.Decimal.Literal
import Telemetry.Decimal.Shortest
import Telemetry.Digest.Mac
import Telemetry.Digest.Sha256
import Telemetry.Envelope
import Telemetry.Files
import Telemetry.Gzip.Checksum
import Telemetry.Gzip.Code
import Telemetry.Gzip.Inflate
import Telemetry.Gzip.Member
import Telemetry.Http.Message
import Telemetry.Json.Reader
import Telemetry.Json.Record
import Telemetry.Json.Skip
import Telemetry.Json.Writer
import Telemetry.Metric.Basic
import Telemetry.Metric.Kind
import Telemetry.Metric.Wire
import Telemetry.Net.Ip
import Telemetry.Net.Socket
import Telemetry.Net.Uri
import Telemetry.Proofs.Agent.Attempts
import Telemetry.Proofs.Agent.Http
import Telemetry.Proofs.Agent.Path
import Telemetry.Proofs.Agent.Pool
import Telemetry.Proofs.Agent.Reports
import Telemetry.Proofs.Agent.Rpc
import Telemetry.Proofs.Agent.Session
import Telemetry.Proofs.Agent.Timeline
import Telemetry.Proofs.Agent.Workers
import Telemetry.Proofs.Arrival
import Telemetry.Proofs.Bytes
import Telemetry.Proofs.Decimal.Nearest
import Telemetry.Proofs.Decimal.Shortest
import Telemetry.Proofs.Decimal.Text
import Telemetry.Proofs.Digest.Mac
import Telemetry.Proofs.Envelope
import Telemetry.Proofs.Files
import Telemetry.Proofs.Gzip.Limit
import Telemetry.Proofs.Gzip.Pack
import Telemetry.Proofs.Http.Message
import Telemetry.Proofs.Json.Converted
import Telemetry.Proofs.Json.Number
import Telemetry.Proofs.Json.Record
import Telemetry.Proofs.Json.Scalar
import Telemetry.Proofs.Json.Text
import Telemetry.Proofs.Json.Values
import Telemetry.Proofs.Metric.Document
import Telemetry.Proofs.Metric.Sealed
import Telemetry.Proofs.Metric.Text
import Telemetry.Proofs.Metric.Wire
import Telemetry.Proofs.Net.Uri
import Telemetry.Proofs.Result
import Telemetry.Proofs.Retry
import Telemetry.Proofs.Rpc.Message
import Telemetry.Proofs.Rsa.Cipher
import Telemetry.Proofs.Server.Effects
import Telemetry.Proofs.Server.Limits
import Telemetry.Proofs.Server.Page
import Telemetry.Proofs.Server.Path
import Telemetry.Proofs.Server.Reached
import Telemetry.Proofs.Server.Redaction
import Telemetry.Proofs.Server.Responses
import Telemetry.Proofs.Server.Signed
import Telemetry.Proofs.Server.Tags
import Telemetry.Proofs.Server.Updates
import Telemetry.Proofs.Server.Ways
import Telemetry.Proofs.Snapshot.Closing
import Telemetry.Proofs.Snapshot.Loaded
import Telemetry.Proofs.Snapshot.Periodic
import Telemetry.Proofs.Snapshot.Restored
import Telemetry.Proofs.Snapshot.Saved
import Telemetry.Proofs.Snapshot.Savers
import Telemetry.Proofs.Snapshot.Steps
import Telemetry.Proofs.Snapshot.Through
import Telemetry.Proofs.Snapshot.Writers
import Telemetry.Proofs.Span
import Telemetry.Proofs.Store.Agreement
import Telemetry.Proofs.Store.Clients
import Telemetry.Proofs.Store.Connected
import Telemetry.Proofs.Store.Contents
import Telemetry.Proofs.Store.Doubled
import Telemetry.Proofs.Store.Guard
import Telemetry.Proofs.Store.History
import Telemetry.Proofs.Store.Keeping
import Telemetry.Proofs.Store.Linked
import Telemetry.Proofs.Store.Migrated
import Telemetry.Proofs.Store.Overflow
import Telemetry.Proofs.Store.Relational
import Telemetry.Proofs.Store.Retried
import Telemetry.Proofs.Store.Run
import Telemetry.Proofs.Store.Sessions
import Telemetry.Proofs.Table
import Telemetry.Proofs.Url.Base
import Telemetry.Proofs.Url.Segment
import Telemetry.Retry
import Telemetry.Rpc.Call
import Telemetry.Rpc.Message
import Telemetry.Rsa.Cipher
import Telemetry.Rsa.Der
import Telemetry.Rsa.Key
import Telemetry.Server.Api
import Telemetry.Server.App
import Telemetry.Server.Options
import Telemetry.Server.Page
import Telemetry.Server.Route
import Telemetry.Server.Rpc
import Telemetry.Snapshot.Basic
import Telemetry.Snapshot.Saver
import Telemetry.Store.Database
import Telemetry.Store.Dsn
import Telemetry.Store.Guard
import Telemetry.Store.Memory
import Telemetry.Store.Migration
import Telemetry.Store.Storage
import Telemetry.Table
import Telemetry.Text.Base64
import Telemetry.Text.Blank
import Telemetry.Text.Cut
import Telemetry.Text.Hex
import Telemetry.Text.Pem
import Telemetry.Text.Percent
import Telemetry.Toml.Document
import Telemetry.Toml.Scalar
import Telemetry.Toml.Text
import Telemetry.Toml.Tree
import Telemetry.Url.Basic
import Telemetry.Url.Host
import Telemetry.Url.Parse
import Telemetry.Url.Punycode
