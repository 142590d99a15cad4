import Voxeltoad.Admin.Tenancy
import Voxeltoad.Billing.Scope
import Voxeltoad.Store.Sessions
import Voxeltoad.Store.TracePayload
import Voxeltoad.Store.UsageReports

/-!
# What an operator reads

The reads that are open to the operators of a tenant: usage, request logs, traces, quotas and
budgets, and the resources of the tenant itself (`usage_handlers.go`, `requestlog_handlers.go`,
`trace_handlers.go`, `quota_handlers.go`, `budget_handlers.go` and the listings of
`tenant_handlers.go`, all of `internal/admin`; with `attribution_query.go` of `internal/store`).

Whose data a read is about is found out from the operator, not from the request: `usageTenantScope`
for what is kept under the name of a tenant, `budgetAccess` for what is kept under its id.  An
operator that is not bound to a tenant sees all of them, or the one it asks for.

That a payload was read is audited; the audit trail is not among these tables.

`Outside` is what the database and the standard library contribute.  A statement that fails, and a
cursor that is not one, are answered alike, with a text of the outside.
-/

set_option autoImplicit false

namespace Voxeltoad
namespace Admin

open Response
open UsageQuery (SessionUsageRow UsageGroup CurrencyCost SessionCost SessionCostSummary)
open RequestLogQuery (RequestLogRow)
open TracePayloadQuery (TracePayloadDetail TracePayloadSummaryRow)

/-! ## Tables -/

/-- The tables of these reads. -/
structure Plane where
  directory : Directory
  usage : List SessionUsageRow
  requestLogs : List RequestLogRow
  traces : List TracePayloadDetail
  quotas : List QuotaRow
  policies : List BudgetPolicy
  accounts : List BudgetAccountRow
  events : List BudgetEventRow
  reservations : List ReservationRow

/-- What is outside of the server. -/
structure Outside (κ : Type) where
  collate : String → κ
  dateTrunc : String → Time → Time
  parseTime : String → Option Time
  /-- The verb `%q`. -/
  quote : String → String
  errorText : String

/-! ## Requests and answers -/

/-- `AttributionSummary`, without the ratio of its two counts. -/
structure AttributionSummary where
  unboundKeyCount : Int
  requestCount : Int
  unattributedRequestCount : Int
  recordedUnattributedCosts : List CurrencyCost
  fromTime : Option Time
  toTime : Option Time
  deriving DecidableEq, Repr

/-- `billing.BudgetAccount`: a row, with what is left of it. -/
structure BudgetAccount extends BudgetAccountRow where
  available : Int
  deriving DecidableEq, Repr

/-- A read, with its path parameters and its query. -/
inductive Read where
  | usage (q : QueryValues)
  | usageAttribution (q : QueryValues)
  | usageSummary (q : QueryValues)
  | usageTimeseries (q : QueryValues)
  | requestLogSessions (q : QueryValues)
  | requestLogs (q : QueryValues)
  | requestLogSession (sessionID : String) (q : QueryValues)
  | traceSession (sessionID : String) (q : QueryValues)
  | traceRequest (requestID : String) (q : QueryValues)
  | traceRow (id : String) (q : QueryValues)
  | quotas (q : QueryValues)
  | budgets (q : QueryValues)
  | budget (id : String) (q : QueryValues)
  | budgetAccounts (id : String) (q : QueryValues)
  | budgetEvents (q : QueryValues)
  | billingReservations (q : QueryValues)
  | apiKeys (q : QueryValues)
  | groups (q : QueryValues)
  | applications (q : QueryValues)

/-- What a read is answered with. -/
inductive ReadPayload where
  | usage (rows : List UsageQuery.UsageRow) (next : String)
  | usageCSV (rows : List UsageQuery.UsageRow)
  | attribution (summary : AttributionSummary)
  | usageSummary (rows : List (UsageGroup String))
  | usageTimeseries (rows : List (UsageGroup Time))
  | sessions (rows : List (SessionSummary × SessionCost)) (total page pageSize : Int)
  | requestLogs (rows : List RequestLogRow) (total page pageSize : Int)
  | requestLogsCSV (rows : List RequestLogRow)
  | sessionTrace (sessionID : String) (requests : List RequestLogRow) (costs : SessionCostSummary)
  | traceSession (sessionID : String) (requests : List TracePayloadSummaryRow)
  | trace (detail : TracePayloadDetail)
  | quota (scope : String) (balance : Int) (currency : String)
  | budgets (rows : List BudgetPolicy) (next : String)
  | budget (row : BudgetPolicy)
  | budgetAccounts (rows : List BudgetAccount)
  | budgetEvents (rows : List BudgetEventRow) (next : String)
  | reservations (rows : List Reservation) (next : String)
  | apiKeys (rows : List APIKeyInfo) (next : String)
  | groups (rows : List Keys.Resource) (next : String)
  | applications (rows : List Application) (next : String)
  deriving DecidableEq, Repr

/-- The answer of a read, or the error it stopped with. -/
abbrev Reading := Except (Response ReadPayload) ReadPayload

def Reading.response : Reading → Response ReadPayload
  | .ok payload => .ok 200 "" payload
  | .error r => r

section Reads

variable {κ : Type} [LinearOrder κ] (out : Outside κ) (tenants : List TenantRow)
  (op : Operator) (p : Plane)

/-- What a query found, if it was not refused. -/
def found {α β : Type} (x : Option α) : Except (Response β) α :=
  match x with
  | none => .error (internalErr out.errorText)
  | some a => .ok a

/-- The answer to a report that is not given. -/
def reported {α β : Type} (what : String) (x : Except UsageQuery.QueryError α) :
    Except (Response β) α :=
  match x with
  | .error (.unsupported param value) =>
    .error (badRequest ("usage " ++ what ++ ": unsupported " ++ param ++ " " ++ out.quote value))
  | .error .database => .error (badRequest out.errorText)
  | .ok a => .ok a

/-! ## Whose data -/

/-- `TenantName`, which is empty for a tenant that is not there. -/
def tenantName (id : Int) : String :=
  ((Table.find TenantRow.id id tenants).map TenantRow.name).getD ""

/-- **`usageTenantScope`**: empty for all tenants. -/
def usageTenantScope {β : Type} (q : QueryValues) : Except (Response β) String :=
  match op.tenantID with
  | some id =>
      if tenantName tenants id = "" then .error (.error .tenantNotFound "")
      else .ok (tenantName tenants id)
  | none =>
    if q.get "tenant" = "" then .ok ""
    else if tenants.any fun row ↦ row.name = q.get "tenant" then .ok (q.get "tenant")
    else .error (badRequest "unknown tenant")

/-- `budgetAccess`, for reading: the tenant whose budgets they are. -/
def budgetAccess {β : Type} (q : QueryValues) : Except (Response β) Int :=
  if ¬ Permitted op "budget.read" then .error (.error .permissionDenied "")
  else
    match op.tenantID with
    | some id =>
      if op.scopeKind ≠ some .tenant then .error (.error .permissionDenied "")
      else if tenantName tenants id = "" then .error (.error .tenantNotFound "")
      else if q.get "tenant" ≠ "" ∧ q.get "tenant" ≠ tenantName tenants id then
        .error (.error .budgetTenantMismatch "")
      else .ok id
    | none =>
      if op.scopeKind ≠ some .global then .error (.error .permissionDenied "")
      else if q.get "tenant" = "" then .error (.error .budgetTenantRequired "")
      else
        match (Table.find TenantRow.name (q.get "tenant") tenants).filter (·.id ≠ 0) with
        | none => .error (.error .tenantNotFound "")
        | some row => .ok row.id

/-- `tenantFromScope`: the tenant in a quota scope, in bytes. -/
def tenantFromScope (scope : String) : List UInt8 :=
  if "tenant:".isPrefixOf scope then bytesOf (scope.drop 7).toString
  else if "group:".isPrefixOf scope then
    match parseGroupScope scope with
    | .ok (tenant, _) => tenant
    | .error _ => []
  else []

/-! ## Usage -/

/-- `GET /usage`. -/
def readUsage (q : QueryValues) : Reading := do
  let tenant ← usageTenantScope tenants op q
  let f ← q.usageFilter out.parseTime
  let table := p.usage.map SessionUsageRow.toUsageRow
  if q.get "format" = "csv" then
    let (rows, _) ← found out (UsageQuery.list table tenant f "" 2000)
    .ok (.usageCSV rows)
  else
    let (rows, next) ← found out (UsageQuery.list table tenant f (q.get "cursor") q.limit)
    .ok (.usage rows next)

/-- The conditions on a ledger of `AttributionQueryRepo.Summary`. -/
def attributionWhere {ρ : Type} (tenantOf : ρ → String) (createdAt : ρ → Time) (tenant : String)
    (fromTime toTime : Time) : Sql.Where ρ :=
  (Sql.Where.start (.eq fun r ↦ .text (tenantOf r)) [.text tenant])
    |>.addIf (fromTime ≠ zeroTime) (.atLeast fun r ↦ .time (createdAt r)) [.time fromTime]
    |>.addIf (toTime ≠ zeroTime) (.below fun r ↦ .time (createdAt r)) [.time toTime]

/-- `AttributionQueryRepo.Summary`. -/
def attributionSummary (tenant : String) (fromTime toTime : Time) : Option AttributionSummary := do
  let w := attributionWhere RequestLogRow.tenant RequestLogRow.createdAt tenant fromTime toTime
  let (requests, _) ← Sql.rows p.requestLogs w.conds w.args
  let unattributed :=
    (attributionWhere (fun r : SessionUsageRow ↦ r.tenant) (fun r ↦ r.createdAt) tenant fromTime
    toTime).add (.isNull fun r ↦ .nullable .int r.applicationID) []
  let costs ← (UsageQuery.scanned SessionUsageRow.toUsageRow (fun _ ↦ ())
    (fun g ↦ Int64Range g.cost) p.usage unattributed).toOption
  some
    { unboundKeyCount := (p.directory.apiKeys.filter fun k ↦
        (∃ t ∈ tenants, t.id = k.tenantID ∧ t.name = tenant) ∧ k.revoked = false ∧
        k.complete = false).length
      requestCount := requests.length
      unattributedRequestCount := (requests.filter fun r ↦ r.applicationID = none).length
      recordedUnattributedCosts :=
        (Rank.sortBy (UsageQuery.byCurrency out.collate) costs).map UsageGroup.currencyCost
      fromTime := if fromTime = zeroTime then none else some fromTime
      toTime := if toTime = zeroTime then none else some toTime }

/-- `GET /usage/attribution`. -/
def readAttribution (q : QueryValues) : Reading := do
  if ¬ Permitted op "usage.read" then .error (.error .permissionDenied "")
  let tenant ← usageTenantScope tenants op q
  if tenant = "" then .error (badRequest "tenant is required for attribution overview")
  let (fromTime, toTime) ← q.timeRange out.parseTime
  if fromTime ≠ zeroTime ∧ toTime ≠ zeroTime ∧ ¬ fromTime < toTime then
    .error (badRequest "from must be before to")
  let summary ← found out (attributionSummary out tenants p tenant fromTime toTime)
  .ok (.attribution summary)

/-- `GET /usage/summary`. -/
def readUsageSummary (q : QueryValues) : Reading := do
  let tenant ← usageTenantScope tenants op q
  let f ← q.usageFilter out.parseTime
  let rows ← reported out "summary"
    (UsageQuery.summary out.collate (p.usage.map SessionUsageRow.toUsageRow) tenant
    f.fromTime f.toTime (q.getOr "group_by" "model") f)
  .ok (.usageSummary rows)

/-- `GET /usage/timeseries`. -/
def readUsageTimeseries (q : QueryValues) : Reading := do
  let tenant ← usageTenantScope tenants op q
  let f ← q.usageFilter out.parseTime
  let rows ← reported out "timeseries" (UsageQuery.timeseries out.collate out.dateTrunc
    (p.usage.map SessionUsageRow.toUsageRow) tenant f (q.getOr "bucket" "day"))
  .ok (.usageTimeseries rows)

/-! ## Request logs -/

/-- The costs of the sessions of a page, in one query. -/
def sessionCosts (tenant : String) (sessions : List SessionSummary) :
    Except (Response ReadPayload) (List (SessionSummary × SessionCost)) :=
  match UsageQuery.costBySessions out.collate p.usage tenant
      (sessions.map SessionSummary.sessionID) with
  | .error _ => .error (internalErr out.errorText)
  | .ok costs => .ok (sessions.map fun s ↦ (s, UsageQuery.mergeCosts (costs s.sessionID)))

/-- `GET /request-logs/sessions`. -/
def readRequestLogSessions (q : QueryValues) : Reading := do
  let tenant ← usageTenantScope tenants op q
  let (fromTime, toTime) ← q.timeRange out.parseTime
  let (sessions, total) ← found out (RequestLogQuery.listSessions p.requestLogs tenant
    ⟨q.get "agent_type", fromTime, toTime⟩ q.page q.pageSize)
  let rows ← sessionCosts out p tenant sessions
  .ok (.sessions rows total q.page q.pageSize)

/-- `GET /request-logs`. -/
def readRequestLogs (q : QueryValues) : Reading := do
  let tenant ← usageTenantScope tenants op q
  let f ← q.requestLogFilter out.parseTime
  if q.get "format" = "csv" then
    let (rows, _) ← found out (RequestLogQuery.list p.requestLogs tenant f "" 2000)
    .ok (.requestLogsCSV rows)
  else
    let (rows, total) ← found out
      (RequestLogQuery.listPage p.requestLogs tenant f q.page q.pageSize)
    .ok (.requestLogs rows total q.page q.pageSize)

/-- `GET /request-logs/sessions/:session_id`. -/
def readRequestLogSession (sessionID : String) (q : QueryValues) : Reading := do
  let tenant ← usageTenantScope tenants op q
  if sessionID = "" then .error (badRequest "session_id path parameter is required")
  let requests ← found out (RequestLogQuery.listBySession p.requestLogs tenant sessionID q.limit)
  let costs ← found out (UsageQuery.summaryBySession out.collate p.usage tenant sessionID).toOption
  .ok (.sessionTrace sessionID requests costs)

/-! ## Traces -/

/-- `GET /trace/sessions/:session_id`. -/
def readTraceSession (sessionID : String) (q : QueryValues) : Reading := do
  let tenant ← usageTenantScope tenants op q
  if sessionID = "" then .error (badRequest "session_id path parameter is required")
  let requests ← found out (TracePayloadQuery.listBySession p.traces tenant sessionID q.limit)
  .ok (.traceSession sessionID requests)

/-- `GET /trace/requests/:request_id`. -/
def readTraceRequest (requestID : String) (q : QueryValues) : Reading := do
  let tenant ← usageTenantScope tenants op q
  if requestID = "" then .error (badRequest "request_id path parameter is required")
  let detail ← found out (TracePayloadQuery.getByRequestID p.traces tenant requestID)
  match detail with
  | none => .error (.error (.notFound ("trace payload not found for request_id " ++ requestID)) "")
  | some detail => .ok (.trace detail)

/-- `GET /trace/rows/:id`. -/
def readTraceRow (id : String) (q : QueryValues) : Reading := do
  let tenant ← usageTenantScope tenants op q
  match (parseInt id).filter (0 < ·) with
  | none => .error (badRequest "id path parameter must be a positive integer")
  | some rowID =>
    let detail ← found out (TracePayloadQuery.getByRowID p.traces tenant rowID)
    match detail with
    | none => .error (.error (.notFound ("trace payload not found for id " ++ id)) "")
    | some detail => .ok (.trace detail)

/-! ## Quotas and budgets -/

/-- `GET /quotas`: a scope that is not configured has no balance. -/
def readQuota (q : QueryValues) : Reading := do
  let scope := q.get "scope"
  if scope = "" then .error (badRequest "scope query parameter is required")
  if op.tenantID.any fun id ↦
      tenantName tenants id = "" ∨ tenantFromScope scope ≠ bytesOf (tenantName tenants id) then
    .error (.error .scopeOutsideTenant "")
  match Table.find QuotaRow.scope scope p.quotas with
  | none => .ok (.quota scope 0 "")
  | some row => .ok (.quota scope row.balance row.currency)

/-- What `budgetError` makes of a listing that is refused. -/
def budgetFound {α β : Type} (x : Option α) : Except (Response β) α :=
  match x with
  | none => .error (.error .budgetInvalidPolicy "")
  | some a => .ok a

/-- `budgetPolicyID`. -/
def budgetPolicyID {β : Type} (id : String) : Except (Response β) Int :=
  match (parseInt id).filter (1 ≤ ·) with
  | none => .error (.error .budgetInvalidQuery "")
  | some n => .ok n

/-- `BudgetRepo.Get`. -/
def getBudget {β : Type} (tenantID id : Int) : Except (Response β) BudgetPolicy :=
  match p.policies.find? fun row ↦ row.tenantID = tenantID ∧ row.id = id with
  | none => .error (.error .budgetNotFound "")
  | some row => .ok row

/-- `BudgetRepo.Accounts`, after `Get`. -/
def budgetAccountsOf (tenantID id : Int) : List BudgetAccount :=
  (Rank.sortBy (fun a : BudgetAccountRow ↦ OrderDual.toDual a.periodStart)
    (p.accounts.filter fun a ↦
    a.policyID = id ∧ ∃ row ∈ p.policies, row.id = a.policyID ∧ row.tenantID = tenantID)).map
    fun a ↦
      { a with available := a.limitAmount - a.reserved - a.committed }

/-- `GET /budgets`. -/
def readBudgets (q : QueryValues) : Reading := do
  let tenantID ← budgetAccess tenants op q
  let (rows, next) ← budgetFound (BudgetRepo.list p.policies tenantID (q.get "cursor") q.limit)
  .ok (.budgets rows next)

/-- `GET /budgets/:id`. -/
def readBudget (id : String) (q : QueryValues) : Reading := do
  let tenantID ← budgetAccess tenants op q
  let id ← budgetPolicyID id
  let row ← getBudget p tenantID id
  .ok (.budget row)

/-- `GET /budgets/:id/accounts`. -/
def readBudgetAccounts (id : String) (q : QueryValues) : Reading := do
  let tenantID ← budgetAccess tenants op q
  let id ← budgetPolicyID id
  let _ ← getBudget p tenantID id
  .ok (.budgetAccounts (budgetAccountsOf p tenantID id))

/-- `GET /budget-events`. -/
def readBudgetEvents (q : QueryValues) : Reading := do
  let tenantID ← budgetAccess tenants op q
  let (rows, next) ← budgetFound (BudgetRepo.events p.events tenantID (q.get "cursor") q.limit)
  .ok (.budgetEvents rows next)

/-- `GET /billing-reservations`. -/
def readReservations (q : QueryValues) : Reading := do
  let tenantID ← budgetAccess tenants op q
  if ¬ BudgetRepo.ValidStatus (q.get "status") then .error (.error .budgetInvalidQuery "")
  let (rows, next) ← budgetFound
    (BudgetRepo.reservations out.collate p.reservations tenantID (q.get "status")
    (q.get "cursor") q.limit)
  .ok (.reservations rows next)

/-! ## The tenant's resources -/

/-- A read behind the gates of a tenant's resources. -/
def tenantRead (permission : String) (handler : Int → Reading) : Reading :=
  gated op permission .error handler

/-- `NOT ? OR group_id IS NULL OR application_id IS NULL OR environment = ''`. -/
def unboundCond : Sql.Cond Keys.ApiKey :=
  ⟨1, fun args k ↦ args.any fun v ↦ v = .bool false || k.complete = false⟩

/-- The conditions of `ListAPIKeysFiltered`. -/
def apiKeysWhere (tenantID after : Int) (unbound : Bool) : Sql.Where Keys.ApiKey :=
  (BudgetRepo.ofTenant (fun k ↦ k.tenantID) (fun k ↦ k.id) tenantID after)
    |>.add (.eq fun k ↦ .bool k.revoked) [.bool false]
    |>.add unboundCond [.bool unbound]

/-- `ListAPIKeysFiltered`: the cursor is of the id of the row. -/
def listAPIKeys (tenantID : Int) (cursor : String) (limit : Int) (unbound : Bool) :
    Option (List APIKeyInfo × String) :=
  (OperatorRepo.afterID cursor).bind fun after ↦
    (fetchByID Keys.ApiKey.id p.directory.apiKeys (apiKeysWhere tenantID after unbound)
      (defaultLimit limit)).map fun (rows, next) ↦ (rows.map APIKeyInfo.ofKey, next)

/-- `GET /api-keys`. -/
def readAPIKeys (q : QueryValues) : Reading :=
  tenantRead op "api_key.read" fun tenantID ↦ do
    if q "unbound" ≠ [] ∧
      q.bool "unbound" = none then .error (badRequest "unbound must be a boolean")
    let (rows, next) ← found out
      (listAPIKeys p tenantID (q.get "cursor") q.limit ((q.bool "unbound").getD false))
    .ok (.apiKeys rows next)

/-- `ListGroups`. -/
def listGroups (tenantID : Int) (cursor : String) (limit : Int) :
    Option (List Keys.Resource × String) :=
  (OperatorRepo.afterID cursor).bind fun after ↦
    fetchByID Keys.Resource.id p.directory.groups
      (BudgetRepo.ofTenant (fun g ↦ g.tenantID) (fun g ↦ g.id) tenantID after) (defaultLimit limit)

/-- `GET /groups`. -/
def readGroups (q : QueryValues) : Reading :=
  tenantRead op "group.read" fun tenantID ↦ do
    let (rows, next) ← found out (listGroups p tenantID (q.get "cursor") q.limit)
    .ok (.groups rows next)

/-- A row of the join of `applications` and `groups`, with the tenant it is selected by. -/
def joined (d : Directory) : List (Int × Application) :=
  d.applications.filterMap fun a ↦ (d.join a).map fun app ↦ (a.tenantID, app)

/-- `ApplicationRepo.List`. -/
def listApplications (tenantID : Int) (cursor : String) (limit : Int) :
    Option (List Application × String) :=
  (OperatorRepo.afterID cursor).bind fun after ↦
    (fetchByID (fun r ↦ r.2.id) (joined p.directory)
      (BudgetRepo.ofTenant Prod.fst (fun r ↦ r.2.id) tenantID after) (defaultLimit limit)).map
      fun (rows, next) ↦
        (rows.map Prod.snd, next)

/-- `GET /applications`. -/
def readApplications (q : QueryValues) : Reading :=
  tenantRead op "application.read" fun tenantID ↦ do
    let (rows, next) ← found out (listApplications p tenantID (q.get "cursor") q.limit)
    .ok (.applications rows next)

/-- **The handler of a read.** -/
def handleRead : Read → Reading
  | .usage q => readUsage out tenants op p q
  | .usageAttribution q => readAttribution out tenants op p q
  | .usageSummary q => readUsageSummary out tenants op p q
  | .usageTimeseries q => readUsageTimeseries out tenants op p q
  | .requestLogSessions q => readRequestLogSessions out tenants op p q
  | .requestLogs q => readRequestLogs out tenants op p q
  | .requestLogSession sessionID q => readRequestLogSession out tenants op p sessionID q
  | .traceSession sessionID q => readTraceSession out tenants op p sessionID q
  | .traceRequest requestID q => readTraceRequest out tenants op p requestID q
  | .traceRow id q => readTraceRow out tenants op p id q
  | .quotas q => readQuota tenants op p q
  | .budgets q => readBudgets tenants op p q
  | .budget id q => readBudget tenants op p id q
  | .budgetAccounts id q => readBudgetAccounts tenants op p id q
  | .budgetEvents q => readBudgetEvents tenants op p q
  | .billingReservations q => readReservations out tenants op p q
  | .apiKeys q => readAPIKeys out op p q
  | .groups q => readGroups out op p q
  | .applications q => readApplications out op p q

end Reads

/-! ## Requests, one after the other -/

/-- What happens to these tables: a request of an operator, or a row that the gateway records. -/
inductive PlaneEvent where
  | read (op : Operator) (r : Read)
  | write (op : Operator) (w : TenantWrite)
  | usage (row : SessionUsageRow)
  | requestLog (row : RequestLogRow)
  | trace (row : TracePayloadDetail)

/-- What an event is answered with. -/
inductive PlaneAnswer where
  | read (r : Response ReadPayload)
  | write (r : Response TenantReply)
  | recorded
  deriving DecidableEq, Repr

/-- **One event.**  `hash` is the SHA-256 of a new key, and `aliases` are the models that there
are. -/
def Plane.serve {κ : Type} [LinearOrder κ] (out : Outside κ) (tenants : List TenantRow)
    (hash : String → String) (aliases : List String) (p : Plane) : PlaneEvent → PlaneAnswer × Plane
  | .read op r => (.read (handleRead out tenants op p r).response, p)
  | .write op w =>
    let (r, d) := gated op w.permission (fun r ↦ (r, p.directory)) fun tenantID ↦
      handleWrite hash aliases tenantID p.directory w
    (.write r, { p with directory := d })
  | .usage row => (.recorded, { p with usage := p.usage ++ [row] })
  | .requestLog row => (.recorded, { p with requestLogs := p.requestLogs ++ [row] })
  | .trace row => (.recorded, { p with traces := p.traces ++ [row] })

end Admin
end Voxeltoad
