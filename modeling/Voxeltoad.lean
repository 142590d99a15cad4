import Voxeltoad.Lib.Loop
import Voxeltoad.Lib.Run
import Voxeltoad.Lib.Table
import Voxeltoad.Lib.Assoc
import Voxeltoad.Lib.Rank
import Voxeltoad.Lib.Page
import Voxeltoad.Lib.Base64
import Voxeltoad.Lib.Sql
import Voxeltoad.Store.UsageReports
import Voxeltoad.Admin.Reads
import Voxeltoad.Lib.Unmarshal
import Voxeltoad.Lib.WallClock
import Voxeltoad.Lib.Agree
import Voxeltoad.Lib.Record
import Voxeltoad.Lib.Redaction
import Voxeltoad.Lib.Regex
import Voxeltoad.Lib.Jsonb
import Voxeltoad.Lib.Transaction
import Voxeltoad.Adapter.Message
import Voxeltoad.Billing.Scope
import Voxeltoad.Billing.Exact
import Voxeltoad.Billing.Period
import Voxeltoad.Billing.Calendar
import Voxeltoad.Store.Alerts
import Voxeltoad.Store.ExactlyOnce
import Voxeltoad.Store.Reserve
import Voxeltoad.Proxy.Breaker
import Voxeltoad.Proxy.Affinity
import Voxeltoad.Proxy.Selection
import Voxeltoad.Proxy.SessionKey
import Voxeltoad.Proxy.Failover
import Voxeltoad.Proxy.Truncation
import Voxeltoad.Proxy.Trace
import Voxeltoad.Pii.Plugin
import Voxeltoad.Proxy.Accounted
import Voxeltoad.Proxy.Pricing
import Voxeltoad.Auth.Authenticator
import Voxeltoad.Admin.Login
import Voxeltoad.Admin.Operators
import Voxeltoad.Admin.Lockout
import Voxeltoad.Admin.Scope
import Voxeltoad.Config.Document
import Voxeltoad.Config.Repo
import Voxeltoad.Config.Rollback
import Voxeltoad.Config.Snapshot
import Voxeltoad.Config.Restore
import Voxeltoad.Config.Poll
import Voxeltoad.Config.Watcher
import Voxeltoad.Config.Rotation
import Voxeltoad.Admin.Config
import Voxeltoad.Admin.References
import Voxeltoad.Admin.Providers
import Voxeltoad.Admin.History
import Voxeltoad.Admin.Connectivity
import Voxeltoad.Admin.Server
import Voxeltoad.Admin.Secrecy
import Voxeltoad.Adapter.Encode
import Voxeltoad.Adapter.Request
import Voxeltoad.Lib.Json
import Voxeltoad.Ingress.Codec
import Voxeltoad.Ingress.OpenAI
import Voxeltoad.Ingress.Decode
import Voxeltoad.Ingress.Anthropic
import Voxeltoad.Ingress.Translate
import Voxeltoad.Ingress.Content
import Voxeltoad.Ingress.Passthrough
import Voxeltoad.Ratelimit.Limiter
import Voxeltoad.Ratelimit.Calls
import Voxeltoad.Ratelimit.Refinement
import Voxeltoad.Ratelimit.Memory
import Voxeltoad.Ratelimit.RetryAfter
import Voxeltoad.Ratelimit.Plugin
import Voxeltoad.Config.LastGood
import Voxeltoad.Store.ApiKeys
import Voxeltoad.Desktop.File
import Voxeltoad.Lib.Chan
import Voxeltoad.Observability.Async
import Voxeltoad.Store.Cursor
import Voxeltoad.Store.Listing
import Voxeltoad.Store.RequestLog
import Voxeltoad.Store.Sessions
import Voxeltoad.Adapter.Claude
import Voxeltoad.Adapter.OpenAI
import Voxeltoad.Lib.Memory
import Voxeltoad.Adapter.Normalize
import Voxeltoad.Store.SessionPages
import Voxeltoad.Store.UsageReports
import Voxeltoad.Admin.Reads
import Voxeltoad.Admin.Query
import Voxeltoad.Admin.Tenancy
import Voxeltoad.Store.TracePayload
import Voxeltoad.Admin.Isolation
import Voxeltoad.Proxy.Audit
import Voxeltoad.Proxy.Handler
import Voxeltoad.Adapter.ClaudeRequest
import Voxeltoad.Ingress.Relay
import Voxeltoad.Ingress.Answer
import Voxeltoad.Proxy.Course
import Voxeltoad.Proxy.Ledger
import Voxeltoad.Admin.Session
import Voxeltoad.Ratelimit.Fleet
