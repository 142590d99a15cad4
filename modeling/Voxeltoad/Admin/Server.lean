import Voxeltoad.Admin.Connectivity
import Voxeltoad.Admin.Login
import Voxeltoad.Admin.Operators

/-!
# The admin server

`internal/admin/server.go` and `rbac.go`, with `me_handlers.go` and `audit_handlers.go`: sessions,
the middleware in front of the handlers, and the audit trail behind them.  Requests are served one
after the other.  `auditMutation` sits on whole groups of endpoints and records the body of every
mutation that succeeds, as it was sent.  It is on the operator, role and configuration endpoints;
logins, an operator's own password, connectivity tests and the configuration history are not
audited.

The remaining endpoints (tenants, groups, API keys, applications, quotas, budgets, usage, request
logs, traces, nodes) are a parameter.  Of the tables here they read the operator of the session, the
tenants and the aliases of the models, and their requests carry none of the secrets of this plane;
`κ` is their requests and `ρ` the tables of their own.  Session tokens are 32 random bytes, and two
of them never collide here.
-/

set_option autoImplicit false

namespace Voxeltoad
namespace Admin

open Response
open Config hiding Op

/-! ## The audit trail -/

/-- The body of an audited request. -/
inductive Payload where
  | createOperator (body : CreateOperator)
  | putOperator (body : PutOperator)
  | createRole (body : CreateRole)
  | patchRole (body : PatchRole)
  | provider (body : ProviderRequest)
  | patchProvider (body : ProviderPatch)
  | credential (body : PatchCredential)
  | model (body : Config.Model)
  | patchModel (body : ModelPatch)
  | route (body : Config.Route)
  | patchRoute (body : RoutePatch)
  | plugin (body : PluginConfig)
  | patchPlugin (body : PluginPatch)
  | settings (body : GatewaySettings)
  /-- The body of one of the remaining endpoints. -/
  | other (body : String)
  deriving DecidableEq, Repr

/-- `actionFor`. -/
inductive Action where
  | create
  | update
  | delete
  deriving DecidableEq, Repr

def Action.text : Action → String
  | .create => "create"
  | .update => "update"
  | .delete => "delete"

/-- What the middleware knows of an audited request before it is handled.  A `DELETE` has no
body. -/
structure AuditEntry where
  action : Action
  resourceType : String
  after : Option Payload
  deriving DecidableEq, Repr

/-- `audit_logs`. -/
structure AuditRow extends AuditEntry where
  id : Nat
  operatorID : Int
  resourceID : String
  tenant : Option String
  createdAt : Int
  deriving DecidableEq, Repr

/-- Which operator and role requests are audited.  Reads never are. -/
def Call.entry : Call → Option AuditEntry
  | .listOperators _ _ | .listRoles => none
  | .postOperator body _ => some ⟨.create, "operator", some (.createOperator body)⟩
  | .putOperator _ body _ => some ⟨.update, "operator", some (.putOperator body)⟩
  | .deleteOperator _ => some ⟨.delete, "operator", none⟩
  | .postRole body => some ⟨.create, "role", some (.createRole body)⟩
  | .patchRole _ body => some ⟨.update, "role", some (.patchRole body)⟩
  | .deleteRole _ => some ⟨.delete, "role", none⟩

/-- Which configuration requests are audited. -/
def ConfigCall.entry : ConfigCall → Option AuditEntry
  | .listProviders | .getPlugin _ _ | .getSettings | .history _ _ | .diff _ _ | .version _
  | .rollback _ | .preview _ => none
  | .postProvider body _ => some ⟨.create, "provider", some (.provider body)⟩
  | .patchProvider _ patch => some ⟨.update, "provider", some (.patchProvider patch)⟩
  | .deleteProvider _ => some ⟨.delete, "provider", none⟩
  | .patchCredential _ body _ => some ⟨.update, "provider", some (.credential body)⟩
  | .postModel m => some ⟨.create, "model", some (.model m)⟩
  | .patchModel _ patch => some ⟨.update, "model", some (.patchModel patch)⟩
  | .deleteModel _ => some ⟨.delete, "model", none⟩
  | .postRoute rt => some ⟨.create, "route", some (.route rt)⟩
  | .patchRoute _ patch => some ⟨.update, "route", some (.patchRoute patch)⟩
  | .deleteRoute _ => some ⟨.delete, "route", none⟩
  | .postPlugin pc => some ⟨.create, "plugin", some (.plugin pc)⟩
  | .patchPlugin _ _ patch => some ⟨.update, "plugin", some (.patchPlugin patch)⟩
  | .deletePlugin _ _ => some ⟨.delete, "plugin", none⟩
  | .putSettings s => some ⟨.update, "gateway_settings", some (.settings s)⟩

/-! ## State -/

/-- `operator.Operator`, as a session loads it. -/
structure Operator where
  id : Int
  email : String
  role : String
  roleID : Int
  scopeKind : Option ScopeKind
  permissions : List String
  tenantID : Option Int
  deriving DecidableEq, Repr

/-- `sessions`. -/
structure Session where
  token : String
  operatorID : Int
  expiresAt : Int
  deriving DecidableEq, Repr

/-- The payloads of the server. -/
inductive Body where
  | empty
  | token (token : String)
  | identity (reply : Reply)
  | config (reply : ConfigReply)
  | me (op : Operator) (tenantName : Option String)
  | conn (result : ConnResult)
  | audit (rows : List AuditRow) (total page pageSize : Nat)
  | auditCSV (rows : List AuditRow)
  | other (body : String)
  deriving DecidableEq, Repr

/-- The tables, the failed logins of `rbac`, and what has been answered so far. -/
structure Server (ρ : Type) where
  db : Db
  tables : Tables
  sessions : List Session
  failures : String → Option Login.FailCounter
  audit : List AuditRow
  rest : ρ
  /-- The answers, the first one first.  The server does not keep them. -/
  responses : List (Response Body)

/-! ## Requests -/

/-- The query of `GET /audit`.  What is not given is empty or `some none`; a time that does not
parse is `none`, and so is a page that is not an integer. -/
structure AuditQuery where
  tenant : String
  fromTime : Option (Option Int)
  toTime : Option (Option Int)
  resourceType : String
  resourceID : String
  action : String
  operatorID : Option Int
  csv : Bool
  page : Option Int
  pageSize : Option Int
  deriving DecidableEq, Repr

/-- A request under `/api/v1`.  `salt` and `upstream` are what chance and the upstream add to it. -/
inductive ApiCall (κ : Type) where
  | identity (call : Call)
  | config (call : ConfigCall)
  | me
  | mePassword (password salt : String)
  | testProvider (name : String) (upstream : Upstream)
  | testConn (req : ConnRequest) (upstream : Upstream)
  | audit (query : AuditQuery)
  | other (call : κ)

/-- What happens to the server, and when. -/
inductive Event (κ : Type) where
  | login (now : Int) (email password token : String)
  /-- A request with its bearer token, if it has one. -/
  | api (now : Int) (bearer : Option String) (call : ApiCall κ)
  /-- The goroutine of an earlier mutation saves a snapshot. -/
  | save

/-- What one of the remaining endpoints does. -/
structure Outcome (ρ : Type) where
  response : Response String
  tenants : List TenantRow
  rest : ρ
  /-- The tenant the audit row is attributed to. -/
  tenant : Option String

/-- `Options`: what the server is built with, and what is outside of it. -/
structure Options (κ ρ : Type) where
  hashPassword : String → String → String
  verifyPassword : String → String → Bool
  env : String → Option String
  service : Service
  decrypt : Credential → Except String String
  other : κ → Int → Operator → List TenantRow → List String → ρ → Outcome ρ
  otherEntry : κ → Option AuditEntry
  /-- Whether one of the remaining endpoints is behind `requireSuperAdmin`. -/
  otherSuperAdmin : κ → Bool

/-! ## Sessions -/

/-- `sessionTTL`: twelve hours. -/
def sessionTTL : Int := 43200 * second

/-- `TenantName`, when it is not empty. -/
def Db.tenantName (db : Db) (id : Int) : Option String :=
  ((Table.find TenantRow.id id db.tenants).map TenantRow.name).filter (· ≠ "")

/-- The operator with what is loaded from its role. -/
def Db.load (db : Db) (op : OperatorRow) : Operator :=
  ⟨op.id, op.email, op.role, op.roleID, (db.roleByID op.roleID).map RoleRow.scopeKind,
    db.permissionsOf op.roleID, op.tenantID⟩

namespace Server

variable {κ ρ : Type}

/-- `SessionRepo.Lookup`. -/
def lookup (s : Server ρ) (now : Int) (token : String) : Option Operator :=
  ((Table.find Session.token token s.sessions).filter fun x ↦ now < x.expiresAt).bind fun x ↦
    (s.db.operatorByID x.operatorID).map s.db.load

/-- `lockedOut`, when there is no other request. -/
def LockedOut (s : Server ρ) (now : Int) (email : String) : Prop :=
  ∃ fc ∈ Login.live now (s.failures email), Login.maxLoginFailures ≤ fc.count

instance (s : Server ρ) (now : Int) (email : String) : Decidable (s.LockedOut now email) :=
  inferInstanceAs (Decidable (∃ fc ∈ Login.live now (s.failures email), _))

def setFailures (s : Server ρ) (email : String) (fc : Option Login.FailCounter) : Server ρ :=
  { s with failures := fun e ↦ if e = email then fc else s.failures e }

/-- The counter that `recordFailure` leaves. -/
def recordFailure (s : Server ρ) (now : Int) (email : String) : Login.FailCounter :=
  match Login.live now (s.failures email) with
  | none => ⟨1, now⟩
  | some fc => ⟨fc.count + 1, fc.first⟩

variable (opts : Options κ ρ)

/-- **`login`.** -/
def login (now : Int) (email password token : String) (s : Server ρ) : Response Body × Server ρ :=
  if s.LockedOut now email then (.error .tooManyLogins "", s)
  else
    match (s.db.operatorByEmail email).filter fun op ↦
        opts.verifyPassword password op.passwordHash with
    | none =>
        (.error .invalidCredentials "", s.setFailures email (some (s.recordFailure now email)))
    | some op =>
      let s := s.setFailures email none
      (.ok 200 "" (.token token),
        { s with sessions := s.sessions ++ [⟨token, op.id, now + sessionTTL⟩] })

/-! ## Handlers -/

/-- **`GET /me`.** -/
def me (op : Operator) (s : Server ρ) : Response Body :=
  if op.roleID = 0 then .error .unknownOperatorRole ""
  else .ok 200 "" (.me op (op.tenantID.bind s.db.tenantName))

/-- **`POST /operators/me/password`.** -/
def mePassword (op : Operator) (password salt : String) (s : Server ρ) :
    Response Body × Server ρ :=
  if password = "" then (badRequest "password is required", s)
  else
    match s.db.updateOperator op.id "" (opts.hashPassword salt password) none none with
    | .error e => (internalErr e.text, s)
    | .ok (false, _) => (.error .operatorNotFound "", s)
    | .ok (true, db) => (.ok 204 "" .empty, { s with db := db })

/-- `usageTenantScope`: an operator of a tenant sees its tenant, and any other one all of them or
the one it asks for. -/
def usageTenantScope (op : Operator) (tenant : String) (s : Server ρ) :
    Except (Response Body) (Option String) :=
  match op.tenantID with
  | some id =>
    match s.db.tenantName id with
    | none => .error (.error .tenantNotFound "")
    | some name => .ok (some name)
  | none =>
    if tenant = "" then .ok none
    else if ∃ row ∈ s.db.tenants, row.name = tenant then .ok (some tenant)
    else .error (badRequest "unknown tenant")

/-- `buildWhere`. -/
def AuditMatches (tenant : Option String) (query : AuditQuery) (fromTime toTime : Option Int)
    (row : AuditRow) : Prop :=
  (∀ name ∈ tenant, row.tenant = some name) ∧
    (query.resourceType ≠ "" → row.resourceType = query.resourceType) ∧
    (query.resourceID ≠ "" → row.resourceID = query.resourceID) ∧
    (query.action ≠ "" → row.action.text = query.action) ∧
    (∀ id ∈ query.operatorID, row.operatorID = id) ∧
    (∀ t ∈ fromTime, t ≤ row.createdAt) ∧ ∀ t ∈ toTime, row.createdAt < t

instance (tenant : Option String) (query : AuditQuery) (fromTime toTime : Option Int)
    (row : AuditRow) : Decidable (AuditMatches tenant query fromTime toTime row) :=
  inferInstanceAs (Decidable ((∀ name ∈ tenant, _) ∧ _ ∧ _ ∧ _ ∧ (∀ id ∈ query.operatorID, _) ∧
    (∀ t ∈ fromTime, _) ∧ ∀ t ∈ toTime, _))

/-- A query parameter clamped to `[1, max]`. -/
def clampQuery (value : Option Int) (absent max : Nat) : Nat :=
  match value with
  | none => absent
  | some n => if n < 1 then absent else min n.toNat max

/-- **`GET /audit`.** -/
def auditList (op : Operator) (query : AuditQuery) (s : Server ρ) : Response Body :=
  match s.usageTenantScope op query.tenant with
  | .error r => r
  | .ok tenant =>
    match query.fromTime, query.toTime with
    | none, _ => badRequest "invalid from timestamp (want RFC3339)"
    | some _, none => badRequest "invalid to timestamp (want RFC3339)"
    | some fromTime, some toTime =>
      let rows :=
        (s.audit.filter fun row ↦ AuditMatches tenant query fromTime toTime row).insertionSort
        fun a b ↦ b.createdAt < a.createdAt ∨ (b.createdAt = a.createdAt ∧ b.id ≤ a.id)
      if query.csv then .ok 200 "" (.auditCSV (rows.take 2000))
      else
        let page := clampQuery query.page 1 500
        let pageSize := clampQuery query.pageSize 20 100
        .ok 200 "" (.audit ((rows.drop ((page - 1) * pageSize)).take pageSize) rows.length page
          pageSize)

/-- `affectedTenant`, on the audited endpoints of this plane: an operator's own tenant. -/
def affectedTenant (resourceType resourceID : String) (s : Server ρ) : Option String :=
  if resourceType = "operator" then
    ((s.db.operatorByEmail resourceID).bind OperatorRow.tenantID).bind s.db.tenantName
  else none

/-- Operator `DELETE` revokes the sessions of the operator. -/
def revoked (call : Call) (r : Response Reply) (sessions : List Session) : List Session :=
  match call with
  | .deleteOperator (some id) =>
    if r.Success then sessions.filter fun x ↦ x.operatorID ≠ id else sessions
  | _ => sessions

/-- The handler of a request, without the tenant that it is attributed to. -/
def handle (now : Int) (op : Operator) : ApiCall κ → Server ρ → Response Body × Server ρ
  | .identity call, s =>
    let (r, db) := Admin.handle opts.hashPassword call s.db
    (r.map .identity, { s with db := db, sessions := revoked call r s.sessions })
  | .config call, s =>
    let (r, t) := handleConfig opts.service call s.tables
    (r.map .config, { s with tables := t })
  | .me, s => (s.me op, s)
  | .mePassword password salt, s => s.mePassword opts op password salt
  | .testProvider name upstream, s =>
    ((testProvider opts.env opts.service opts.decrypt name upstream s.tables).map .conn, s)
  | .testConn req upstream, s =>
    ((testConn opts.env opts.service opts.decrypt req upstream s.tables).map .conn, s)
  | .audit query, s => (s.auditList op query, s)
  | .other call, s =>
    let out :=
      opts.other call now op s.db.tenants (s.tables.models.map Config.Model.modelAlias) s.rest
    (out.response.map .other,
      { s with db := { s.db with tenants := out.tenants }, rest := out.rest })

/-- The tenant that an audited request is attributed to, in the state `s'` that it leaves. -/
def auditTenant (now : Int) (op : Operator) (call : ApiCall κ) (entry : AuditEntry)
    (resourceID : String) (s s' : Server ρ) : Option String :=
  match call with
  | .other call =>
    (opts.other call now op s.db.tenants (s.tables.models.map Config.Model.modelAlias)
      s.rest).tenant
  | _ => s'.affectedTenant entry.resourceType resourceID

/-- Which requests are audited. -/
def entry : ApiCall κ → Option AuditEntry
  | .identity call => call.entry
  | .config call => call.entry
  | .other call => opts.otherEntry call
  | .me | .mePassword _ _ | .testProvider _ _ | .testConn _ _ | .audit _ => none

/-- **`auditMutation`**, after the handler: a mutation that succeeded is recorded with its body. -/
def auditMutation (now : Int) (op : Operator) (call : ApiCall κ) (r : Response Body)
    (s s' : Server ρ) : Server ρ :=
  match entry opts call with
  | none => s'
  | some e =>
    if r.Success then
      { s' with
        audit := s'.audit ++ [
          { e with
            id := s'.audit.length + 1
            operatorID := op.id
            resourceID := r.resourceID
            tenant := auditTenant opts now op call e r.resourceID s s'
            createdAt := now }] }
    else s'

/-- The groups behind `requireSuperAdmin`. -/
def superAdminOnly : ApiCall κ → Bool
  | .identity _ | .config _ | .testProvider _ _ | .testConn _ _ => true
  | .me | .mePassword _ _ | .audit _ => false
  | .other call => opts.otherSuperAdmin call

/-- **A request under `/api/v1`**: `authnMiddleware`, `requireSuperAdmin`, the handler, and the
audit trail. -/
def api (now : Int) (bearer : Option String) (call : ApiCall κ) (s : Server ρ) :
    Response Body × Server ρ :=
  match bearer with
  | none => (.error .missingBearerToken "", s)
  | some token =>
    match s.lookup now token with
    | none => (.error .invalidSession "", s)
    | some op =>
      if superAdminOnly opts call ∧
        wildcard ∉ op.permissions then (.error .superAdminRequired "", s)
      else
        let (r, s') := handle opts now op call s
        (r, auditMutation opts now op call r s s')

/-- What an event is answered with, and the state it leaves. -/
def serve (s : Server ρ) : Event κ → Option (Response Body) × Server ρ
  | .login now email password token =>
    let (r, s') := s.login opts now email password token
    (some r, s')
  | .api now bearer call =>
    let (r, s') := s.api opts now bearer call
    (some r, s')
  | .save =>
    (none, { s with
      tables := s.tables.saveSnapshot s.tables.generation
        (s.tables.toContents.dynamic s.tables.generation) })

/-- One event. -/
def step (s : Server ρ) (e : Event κ) : Server ρ :=
  let (r, s') := s.serve opts e
  { s' with responses := s'.responses ++ r.toList }

end Server

end Admin
end Voxeltoad
