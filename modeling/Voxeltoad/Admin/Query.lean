import Voxeltoad.Admin.Response
import Voxeltoad.Store.RequestLog

/-!
# Query parameters

How `internal/admin/usage_handlers.go` reads the query of a request: time ranges, attribution,
flags, limits and pages.  A parameter may come more than once; most of them are then read from the
first one, and those of `parseAttributionFilter` are refused.  Parsing a time is `parseTime`.
-/

set_option autoImplicit false

namespace Voxeltoad
namespace Admin

open Response

/-- `c.Request.URL.Query()`: the values of each parameter, in order. -/
abbrev QueryValues := String → List String

namespace QueryValues

variable {β : Type} (q : QueryValues)

/-- `c.Query`: the first value, or the empty text. -/
def get (key : String) : String := (q key).head?.getD ""

/-- `c.DefaultQuery`: what is there, even if it is empty, or else `absent`. -/
def getOr (key absent : String) : String := (q key).head?.getD absent

/-- `parseLimit`. -/
def limit : Int :=
  match parseInt (q.get "limit") with
  | none => 50
  | some n => if n < 1 then 50 else if 500 < n then 500 else n

/-- `parsePage`: 1-based, and at most `maxPage`. -/
def page : Int :=
  match parseInt (q.get "page") with
  | none => 1
  | some n => if n < 1 then 1 else if 500 < n then 500 else n

/-- `parsePageSize`. -/
def pageSize : Int :=
  match parseInt (q.get "page_size") with
  | none => 20
  | some n => if n < 1 then 20 else if 100 < n then 100 else n

/-- `parseBoolQuery`, with the texts of `strconv.ParseBool`. -/
def bool (key : String) : Option Bool :=
  if q.get key ∈ ["1", "t", "T", "TRUE", "true", "True"] then some true
  else if q.get key ∈ ["0", "f", "F", "FALSE", "false", "False"] then some false
  else none

/-- One end of a time range: a parameter that is not there is the zero time. -/
def time (parseTime : String → Option Time) (key : String) : Except (Response β) Time :=
  if q.get key = "" then .ok zeroTime
  else
    match parseTime (q.get key) with
    | none => .error (badRequest ("invalid " ++ key ++ " timestamp (want RFC3339)"))
    | some t => .ok t

/-- `parseTimeRange`. -/
def timeRange (parseTime : String → Option Time) : Except (Response β) (Time × Time) := do
  let fromTime ← q.time parseTime "from"
  let toTime ← q.time parseTime "to"
  .ok (fromTime, toTime)

/-- What `parseAttributionFilter` reads. -/
structure Attribution where
  applicationID : Option Int
  environment : String
  unattributed : Bool
  deriving DecidableEq, Repr

/-- A parameter that may come once, with a value that `accept` takes. -/
def once {α : Type} (key : String) (absent : α) (accept : String → Option α) (msg : String) :
    Except (Response β) α :=
  match q key with
  | [] => .ok absent
  | [value] =>
    match accept value with
    | none => .error (badRequest msg)
    | some a => .ok a
  | _ => .error (badRequest msg)

/-- **`parseAttributionFilter`.** -/
def attribution : Except (Response β) Attribution := do
  let applicationID ← q.once "application_id" none (fun s ↦ ((parseInt s).filter (0 < ·)).map some)
    "application_id must be a positive integer"
  let environment ← q.once "environment" ""
    (fun s ↦ if s = "dev" ∨ s = "staging" ∨ s = "prod" then some s else none)
    "environment must be dev, staging or prod"
  let unattributed ← q.once "unattributed" false
    (fun s ↦ if s = "true" then some true else if s = "false" then some false else none)
    "unattributed must be true or false"
  if applicationID.isSome ∧ unattributed then
    .error (badRequest "application_id and unattributed=true are mutually exclusive")
  else .ok ⟨applicationID, environment, unattributed⟩

/-- `parseUsageFilter`. -/
def usageFilter (parseTime : String → Option Time) :
    Except (Response β) UsageQuery.UsageFilter := do
  let (fromTime, toTime) ← q.timeRange parseTime
  let a ← q.attribution
  .ok ⟨a.applicationID, a.environment, a.unattributed, q.get "provider", q.get "model",
    fromTime, toTime⟩

/-- The filter of `GET /request-logs`. -/
def requestLogFilter (parseTime : String → Option Time) :
    Except (Response β) RequestLogQuery.RequestLogFilter := do
  let (fromTime, toTime) ← q.timeRange parseTime
  let a ← q.attribution
  .ok
    { applicationID := a.applicationID
      environment := a.environment
      unattributed := a.unattributed
      provider := q.get "provider"
      modelRequested := q.get "model_requested"
      errorType := q.get "error_type"
      blockedBy := q.get "blocked_by"
      tenant := q.get "tenant"
      groupName := q.get "group_name"
      apiKeyID := q.get "api_key_id"
      stream := q.bool "stream"
      fallback := q.bool "fallback"
      agentType := q.get "agent_type"
      ingressProtocol := q.get "ingress_protocol"
      providerEndpoint := q.get "provider_endpoint"
      sessionID := q.get "session_id"
      requestID := q.get "request_id"
      clientRequestID := q.get "client_request_id"
      upstreamRequestID := q.get "upstream_request_id"
      fromTime := fromTime
      toTime := toTime }

end QueryValues

end Admin
end Voxeltoad
