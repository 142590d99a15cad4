import Mathlib.Data.String.Basic
import Voxeltoad.Billing.Scope
import Voxeltoad.Store.Schema

/-!
# The accounting repository

`AccountingRepo` of `internal/store/accounting.go`, the single synchronous writer for legacy
balances and recurring budgets.  Each function below is one database transaction, written as a
function `Db → Except AccountingError Db`: an error means that the transaction was rolled back.

A request is *reserved* before it is dispatched (`reserve`), *marked dispatched* before each
upstream call, and *finished* once its outcome is known.  Finishing takes two transactions.  The
first (`finishFirst`) makes the result durable; the second (`applyPending`) moves the money and
marks the result as applied.  Between the two the process may crash, in which case the recovery
loop (`retryPending`) runs the second one later.  A request whose charge cannot be established ends
`unknown`, and so does one that no process finishes (`markStale`): its money stays held until an
operator resolves it.

The sign `CHECK`s of the counters are not repeated here.  They could only refuse a write, and
`Store/Conservation.lean` shows that no write they would refuse is ever attempted
(`charged_nonneg`, `money_conservation`).
-/

set_option autoImplicit false

namespace Voxeltoad

variable (zones : Zones)

/-! ## Reserving -/

/-- The `identity` column: the request as `json.Marshal` encodes it, with `{}` for an absent price
snapshot. -/
def identityOf (req : ReservationRequest) : Except AccountingError ReservationRequest :=
  match req.priceSnapshot with
  | .absent => .ok { req with priceSnapshot := .value "{}" }
  | .malformed => .error (.invalidPolicy "price snapshot")
  | .value _ => .ok req

namespace Db

/-- `SELECT id FROM tenants WHERE name = ?`, scanned into a variable that starts at zero. -/
def tenantIDByName (name : String) (db : Db) : Int :=
  ((db.tenants.find? fun t ↦ t.name = name).map TenantRow.id).getD 0

/-- `SELECT id FROM groups WHERE tenant_id = ? AND name = ?`. -/
def groupIDByName (tenantID : Int) (name : String) (db : Db) : Int :=
  ((db.groups.find? fun g ↦ g.tenantID = tenantID ∧ g.name = name).map GroupRow.id).getD 0

end Db

/-- The group of the request, which has to belong to the tenant. -/
def resolveGroup (tenantID : Int) (group : String) (db : Db) : Except AccountingError Int :=
  if group = "" then .ok 0
  else if db.groupIDByName tenantID group = 0 then
    .error (.invalidPolicy "group not owned by tenant")
  else .ok (db.groupIDByName tenantID group)

/-- The application of the request has to belong to the tenant. -/
def checkApplication (tenantID : Int) (applicationID : Option Int) (db : Db) :
    Except AccountingError Unit :=
  match applicationID with
  | none => .ok ()
  | some id =>
    if db.applications.any fun a ↦ a.tenantID = tenantID ∧ a.id = id then .ok ()
    else .error (.invalidPolicy "application not owned by tenant")

/-- The key of the request has to belong to the tenant. -/
def checkKey (tenantID : Int) (apiKeyID : String) (db : Db) : Except AccountingError Unit :=
  if apiKeyID = "" then .ok ()
  else if db.apiKeys.any fun k ↦ k.tenantID = tenantID ∧ k.keyID = apiKeyID then .ok ()
  else .error (.invalidPolicy "key not owned by tenant")

/-- Legacy unqualified groups have no trustworthy tenant ownership. -/
def checkLegacyGroup (group : String) (db : Db) : Except AccountingError Unit :=
  if group ≠ "" ∧ (db.quota (legacyGroupScope group)).isSome then
    .error (.invalidPolicy "legacy group quota needs explicit tenant migration")
  else .ok ()

/-- The quota scopes a request is charged to, in the order they are locked. -/
def quotaScopes (req : ReservationRequest) : List String :=
  (tenantScope req.tenant ::
    ((if req.group = "" then [] else [groupScope req.tenant req.group]) ++
      (if req.apiKeyID = "" then [] else [keyScope req.apiKeyID]))).insertionSort (· ≤ ·)

/-- One iteration of the quota loop: a configured scope is debited by the estimate if its balance
is positive and covers it; a scope without a row is skipped. -/
def holdQuota (req : ReservationRequest) (db : Db) (scope : String) : Except AccountingError Db :=
  match db.quota scope with
  | none => .ok db
  | some quota =>
    if equalFold quota.currency req.currency = false then
      .error (.currencyMismatch ("quota " ++ scope))
    else if 0 < quota.balance ∧ req.estimate ≤ quota.balance then
      .ok ((db.modifyQuota scope fun q ↦ { q with balance := q.balance - req.estimate }).insertItem
        req.id (.quota scope) req.estimate)
    else .error (.insufficient ("quota " ++ scope))

/-- The `WHERE` clause that selects the policies that apply to a request. -/
def policyApplies (tenantID groupID appID : Int) (req : ReservationRequest)
    (p : BudgetPolicyRow) : Bool :=
  p.tenantID = tenantID && p.enabled &&
    match p.scopeKind with
    | .tenant => true
    | .group => p.scopeRef = toString groupID
    | .application => p.scopeRef = toString appID
    | .applicationEnv => p.scopeRef = toString appID && p.environment = req.environment
    | .key => p.scopeRef = req.apiKeyID && req.apiKeyID ≠ ""

/-- The policies that apply to a request, in the order their accounts are locked. -/
def applicablePolicies (tenantID groupID : Int) (req : ReservationRequest) (db : Db) :
    List BudgetPolicyRow :=
  (db.policies.filter (policyApplies tenantID groupID (req.applicationID.getD 0) req)).insertionSort
    fun p q ↦ p.id ≤ q.id

/-- Insert the account of a policy for a period, unless it exists. -/
def openAccount (policy : BudgetPolicyRow) (start stop : Time) (currency : String) (db : Db) :
    Except AccountingError Db :=
  if stop ≤ start then .error .checkViolation
  else match db.accountFor policy.id start with
    | some _ => .ok db
    | none => .ok (db.insertAccount
        ⟨db.accountSeq, policy.id, start, stop, currency, policy.limitAmount, 0, 0, 0⟩)

/-- What an account can still hold. -/
def BudgetAccountRow.available (a : BudgetAccountRow) : Int :=
  a.limitAmount - a.committed - a.reserved

/-- The guarded `UPDATE` of the budget loop: a soft policy always reserves, an enforcing one only
what is available. -/
def reserveAccount (policy : BudgetPolicyRow) (req : ReservationRequest) (start : Time) (db : Db) :
    Except AccountingError Db :=
  match db.accountFor policy.id start with
  | none => .error (.insufficient ("budget " ++ toString policy.id))
  | some account =>
    if policy.mode = .soft ∨ (0 < account.available ∧ req.estimate ≤ account.available) then
      if Bigint.Fits (account.reserved + req.estimate) then
        .ok ((db.modifyAccount account.id fun a ↦
          { a with reserved := a.reserved + req.estimate }).insertItem
            req.id (.account account.id) req.estimate)
      else .error .outOfRange
    else .error (.insufficient ("budget " ++ toString policy.id))

/-- One iteration of the budget loop.  A policy owns exactly one account for the request's
instant. -/
def holdBudget (now : Time) (req : ReservationRequest) (db : Db) (policy : BudgetPolicyRow) :
    Except AccountingError Db :=
  if policy.currency ≠ req.currency then
    .error (.currencyMismatch ("budget " ++ toString policy.id))
  else do
    let (start, stop) ← periodBounds zones now policy.period policy.timezone
    let db ← openAccount policy start stop req.currency db
    reserveAccount policy req start db

/-- The row a fresh reservation starts with. -/
def newReservation (now : Time) (tenantID : Int) (req : ReservationRequest) : ReservationRow :=
  ⟨req.id, tenantID, req.requestID, req, .reserved, none, "", 1, none, false, now, now⟩

/-- The reservation of a request whose id is new. -/
def reserveFresh (now : Time) (tenantID : Int) (req : ReservationRequest) (db : Db) :
    Except AccountingError Db := do
  let db := db.insertReservation (newReservation now tenantID req)
  let groupID ← resolveGroup tenantID req.group db
  checkApplication tenantID req.applicationID db
  checkKey tenantID req.apiKeyID db
  checkLegacyGroup req.group db
  let db ← (quotaScopes req).foldlM (holdQuota req) db
  (applicablePolicies tenantID groupID req db).foldlM (holdBudget zones now req) db

/-- What `Reserve` checks and normalises before it opens the transaction. -/
def validateRequest (req : ReservationRequest) : Except AccountingError ReservationRequest :=
  let req := { req with currency := toLower req.currency }
  if req.id = "" ∨ req.tenant = "" ∨ req.estimate < 0 ∨ validCurrency req.currency = false then
    .error (.invalidPolicy "invalid reservation identity, estimate or currency")
  else identityOf req

/-- **`Reserve`.**  A replay of a reservation that exists is compared with it and changes
nothing. -/
def reserve (now : Time) (req : ReservationRequest) (db : Db) : Except AccountingError Db := do
  let req ← validateRequest req
  let tenantID := db.tenantIDByName req.tenant
  if tenantID = 0 then .error (.notFound "tenant")
  else match db.reservation req.id with
    | some row =>
      if row.tenantID = tenantID ∧ row.identity = req then .ok db
      else .error .reservationConflict
    | none => reserveFresh zones now tenantID req db

/-! ## Dispatching -/

/-- A reservation that may still be dispatched. -/
def ReservationRow.Live (row : ReservationRow) : Prop :=
  (row.status = .reserved ∨ row.status = .dispatched) ∧ row.result = none

instance (row : ReservationRow) : Decidable row.Live := inferInstanceAs (Decidable (_ ∧ _))

/-- Whether the `UPDATE` of `MarkDispatched` finds its row. -/
def markDispatchedHits (id : String) (db : Db) : Bool :=
  (db.reservation id).any fun row ↦ row.status = .reserved ∧ row.result = none

/-- The `UPDATE` of `MarkDispatched`. -/
def markDispatchedUpdate (now : Time) (id : String) (db : Db) : Db :=
  if markDispatchedHits id db then
    db.modifyReservation id fun r ↦
      { r with status := .dispatched, version := r.version + 1, updatedAt := now }
  else db

/-- The `SELECT` of `MarkDispatched`, for when the `UPDATE` hit no row. -/
def markDispatchedSelect (id : String) (db : Db) : Except AccountingError Unit :=
  match db.reservation id with
  | none => .error (.notFound "")
  | some row =>
    if row.status = .dispatched ∧ row.result = none then .ok () else .error .reservationConflict

/-! ## Settling -/

/-- `validateSettlement`. -/
def validateSettlement (s : Settlement) : Except AccountingError Unit :=
  if s.reservationID = "" ∨ s.actual < 0 ∨
      (s.outcome ≠ .known ∧ s.outcome ≠ .released ∧ s.outcome ≠ .unknown) ∨
      (s.outcome ≠ .known ∧ (s.actual ≠ 0 ∨ s.usage ≠ none)) then
    .error (.invalidPolicy "settlement")
  else .ok ()

/-- `shareAccountingTenant`. -/
def shareAccountingTenant (tenantID : Int) (db : Db) : Except AccountingError Unit :=
  if tenantID ≠ 0 ∧ db.tenants.any fun t ↦ t.id = tenantID then .ok () else .error (.notFound "")

/-- `markReservationUnknown`. -/
def markReservationUnknown (now : Time) (row : ReservationRow) (reason : String) (db : Db) : Db :=
  (db.modifyReservation row.id fun r ↦
    { r with status := .unknown, reason := reason, version := r.version + 1, updatedAt := now }
  ).insertEventOnce ⟨0, row.tenantID, none, some row.id, .unknown, 0, 0, none, reason, ""⟩

/-- `markUnknown`: the whole of `Finish` for a settlement whose outcome is unknown. -/
def markUnknown (now : Time) (id reason : String) (db : Db) : Except AccountingError Db := do
  shareAccountingTenant (((db.reservation id).map ReservationRow.tenantID).getD 0) db
  match db.reservation id with
  | none => .error (.notFound "")
  | some row =>
    if row.status = .unknown ∨ row.status = .releasedUnknown then .ok db
    else if (row.status ≠ .reserved ∧ row.status ≠ .dispatched) ∨ row.result ≠ none then
      .error .reservationConflict
    else .ok (markReservationUnknown now row reason db)

/-- The first transaction of `Finish` for a known or released settlement: record the result. -/
def recordResult (now : Time) (s : Settlement) (db : Db) : Except AccountingError Db :=
  match db.reservation s.reservationID with
  | none => .error (.notFound "")
  | some row =>
    match row.result with
    | some result => if result = s then .ok db else .error .reservationConflict
    | none =>
      if row.status = .settled ∨ row.status = .released ∨
          (row.status = .releasedUnknown ∧ s.outcome ≠ .known) then
        .error .reservationConflict
      else .ok (db.modifyReservation s.reservationID fun r ↦
        { r with result := some s, resultApplied := false, version := r.version + 1,
                 updatedAt := now })

/-! ### Alerts -/

/-- The threshold alerts an account is due. -/
def thresholdEvents (tenantID : Int) (reservationID : Option String) (a : BudgetAccountRow)
    (p : BudgetPolicyRow) : List BudgetEvent :=
  (p.thresholds.filter fun t ↦ 0 < a.committed ∧ a.limitAmount * t ≤ a.committed * 100).map fun t ↦
    ⟨0, tenantID, some a.id, reservationID, .threshold, t, a.committed, none, "", ""⟩

/-- The overspend alert an account is due. -/
def overspendEvents (tenantID : Int) (reservationID : Option String) (a : BudgetAccountRow) :
    List BudgetEvent :=
  if a.limitAmount < a.committed then
    [⟨0, tenantID, some a.id, reservationID, .overspend, 0, a.committed - a.limitAmount, none, "",
      ""⟩]
  else []

/-- The alerts of `emitBudgetThresholds`.  The first statement joins the account with its policy. -/
def dueEvents (tenantID accountID : Int) (reservationID : Option String) (db : Db) :
    List BudgetEvent :=
  match db.account accountID with
  | none => []
  | some a =>
    ((db.policy a.policyID).map (thresholdEvents tenantID reservationID a)).getD [] ++
      overspendEvents tenantID reservationID a

/-- `emitBudgetThresholds`: insert the alerts that are due and have not been inserted before. -/
def emitBudgetThresholds (tenantID accountID : Int) (reservationID : Option String) (db : Db) :
    Db :=
  (dueEvents tenantID accountID reservationID db).foldl (fun db e ↦ db.insertEventOnce e) db

/-! ### Applying a settlement -/

/-- What an item gives back when `actual` is charged to it. -/
def ReservationItem.refund (item : ReservationItem) (actual : Int) : Int :=
  max (item.held + item.committed - actual) 0

/-- Return what an item held on a quota, less what it is charged. -/
def settleQuota (row : ReservationRow) (item : ReservationItem) (actual : Int) (scope : String)
    (db : Db) : Except AccountingError Db :=
  match db.quota scope with
  | none => .error (.currencyMismatch "missing or changed reserved quota")
  | some quota =>
    if lower quota.currency ≠ row.identity.currency then
      .error (.currencyMismatch "missing or changed reserved quota")
    else if Bigint.Fits (quota.balance + item.held + item.committed - actual) then
      .ok (db.modifyQuota scope fun q ↦
        { q with balance := q.balance + item.held + item.committed - actual })
    else .error .outOfRange

/-- Move what an item held on a budget account to its committed amount, and raise the alerts that
follow from it. -/
def settleAccount (row : ReservationRow) (item : ReservationItem) (actual accountID : Int)
    (db : Db) : Except AccountingError Db :=
  match db.account accountID with
  | none => .error (.notFound "")
  | some account =>
    if Bigint.Fits (account.committed + actual - item.committed) ∧
        Bigint.Fits (account.released + item.refund actual) then
      .ok (emitBudgetThresholds row.tenantID accountID (some row.id)
        (db.modifyAccount accountID fun a ↦
          { a with reserved := a.reserved - item.held
                   committed := a.committed + actual - item.committed
                   released := a.released + item.refund actual }))
    else .error .outOfRange

/-- The `UPDATE` of an item that `actual` is charged to.  `read` is the row as it was selected. -/
def settleItem (read : ReservationItem) (actual : Int) (db : Db) : Except AccountingError Db :=
  match Table.find ReservationItem.id read.id db.items with
  | none => .ok db
  | some item =>
    if Bigint.Fits (item.released + read.refund actual) then
      .ok (db.modifyItem read.id fun i ↦
        { i with held := 0, committed := actual, released := i.released + read.refund actual })
    else .error .outOfRange

/-- One iteration of the loop of `applyReservation`. -/
def applyItem (row : ReservationRow) (s : Settlement) (db : Db) (item : ReservationItem) :
    Except AccountingError Db := do
  let db ← match item.target with
    | .quota scope => settleQuota row item s.actual scope db
    | .account accountID => settleAccount row item s.actual accountID db
  settleItem item s.actual db

/-- The policy and period of the account an item is on: the left join of the item query. -/
def accountOrder (accountID : Int) (db : Db) : Option (Int × Time) :=
  (db.account accountID).map fun a ↦ (a.policyID, a.periodStart)

/-- `ORDER BY quota_scope NULLS LAST, policy_id, period_start`. -/
def itemBefore (db : Db) (i j : ReservationItem) : Bool :=
  match i.target, j.target with
  | .quota s, .quota s' => s ≤ s'
  | .quota _, .account _ => true
  | .account _, .quota _ => false
  | .account a, .account b =>
    match accountOrder a db, accountOrder b db with
    | some (p, t), some (p', t') => p < p' || (p = p' && t ≤ t')
    | some _, none => true
    | none, some _ => false
    | none, none => true

/-- The items of a reservation, in the order their targets are locked. -/
def orderedItems (id : String) (db : Db) : List ReservationItem :=
  (db.itemsOf id).insertionSort fun i j ↦ itemBefore db i j = true

/-- `insertUsageRecord`: the token counts are `INTEGER` columns. -/
def insertUsageRecord (reservationID : String) (rec : UsageRecord) (db : Db) :
    Except AccountingError Db :=
  if Integer.Fits rec.promptTokens ∧ Integer.Fits rec.completionTokens ∧
      Integer.Fits rec.cachedPromptTokens then .ok (db.insertUsage ⟨reservationID, rec⟩)
  else .error .outOfRange

/-- The usage row of a known settlement is written in the transaction that applies it. -/
def recordUsage (row : ReservationRow) (s : Settlement) (db : Db) : Except AccountingError Db :=
  match s.usage with
  | some rec => if s.outcome = .known then insertUsageRecord row.id rec db else .ok db
  | none => .ok db

/-- The event of a settlement whose request had an earlier attempt that may have been charged. -/
def recordAttemptRisk (row : ReservationRow) (s : Settlement) (db : Db) : Db :=
  if s.attemptRisk then
    db.insertEvent ⟨0, row.tenantID, none, some row.id, .attemptRisk, 0, 0, none,
      "an earlier retryable upstream attempt may have consumed unreported tokens", ""⟩
  else db

/-- The last `UPDATE` of `applyReservation`.  A release at risk is not a result: it leaves the
reservation open for a later charge. -/
def closeReservation (now : Time) (s : Settlement) (status : Status) (r : ReservationRow) :
    ReservationRow :=
  if status = .releasedUnknown then
    { r with status := status, actual := none, reason := s.reason, version := r.version + 1,
             updatedAt := now }
  else
    { r with status := status, actual := some s.actual, reason := s.reason, result := some s,
             resultApplied := true, version := r.version + 1, updatedAt := now }

/-- **`applyReservation`.**  Items record cumulative debits and refunds, so a later known charge
after a release at risk debits only the newly established cost. -/
def applyReservation (now : Time) (row : ReservationRow) (s : Settlement) (status : Status)
    (db : Db) : Except AccountingError Db := do
  let db ← (orderedItems row.id db).foldlM (applyItem row s) db
  let db ← recordUsage row s db
  .ok ((recordAttemptRisk row s db).modifyReservation row.id (closeReservation now s status))

/-- The status a recorded settlement leads to. -/
def Settlement.status (s : Settlement) : Status :=
  if s.outcome = .released then .released else .settled

/-- **`applyPending`**: the second transaction of `Finish`, and what the recovery loop runs. -/
def applyPending (now : Time) (id : String) (db : Db) : Except AccountingError Db := do
  shareAccountingTenant (((db.reservation id).map ReservationRow.tenantID).getD 0) db
  match db.reservation id with
  | none => .error (.notFound "")
  | some row =>
    if row.resultApplied then .ok db
    else match row.result with
      | none => .error .reservationConflict
      | some s => applyReservation now row s s.status db

/-- The first transaction of `Finish`. -/
def finishFirst (now : Time) (s : Settlement) (db : Db) : Except AccountingError Db := do
  validateSettlement s
  if s.outcome = .unknown then markUnknown now s.reservationID s.reason db
  else recordResult now s db

/-- **`Finish`**, run without interruption.  What the first transaction recorded stays recorded
when the second one fails. -/
def finish (now : Time) (s : Settlement) (db : Db) : Db × Except AccountingError Unit :=
  match finishFirst now s db with
  | .error e => (db, .error e)
  | .ok db₁ =>
    if s.outcome = .unknown then (db₁, .ok ())
    else match applyPending now s.reservationID db₁ with
      | .error e => (db₁, .error e)
      | .ok db₂ => (db₂, .ok ())

/-! ## Sweeping and recovering -/

/-- The rows `MarkStale` considers: old, still open, and without a result. -/
def ReservationRow.Stale (before : Time) (row : ReservationRow) : Prop :=
  row.Live ∧ row.updatedAt < before

instance (before : Time) (row : ReservationRow) : Decidable (row.Stale before) :=
  inferInstanceAs (Decidable (_ ∧ _))

/-- The rows one run of `MarkStale` sweeps; `locked` are the ones another transaction holds, which
`SKIP LOCKED` passes over. -/
def staleCandidates (before : Time) (db : Db) : List ReservationRow :=
  ((db.reservations.filter fun r ↦ r.Stale before).insertionSort fun r r' ↦ r.id ≤ r'.id).take 500

/-- **`MarkStale`** never refunds: a crashed process might have dispatched immediately before
persisting its dispatch marker. -/
def markStale (now before : Time) (locked : List String) (db : Db) : Except AccountingError Db := do
  let candidates := staleCandidates before db
  candidates.forM fun row ↦ shareAccountingTenant row.tenantID db
  .ok ((candidates.filter fun row ↦ row.id ∉ locked).foldl
    (fun db row ↦ markReservationUnknown now row "stale reservation: charge unknown" db) db)

/-- The reservations `RetryPending` takes up: a result is recorded and not applied. -/
def pendingIDs (limit : Int) (db : Db) : List String :=
  let limit := if limit ≤ 0 then 100 else if limit > 1000 then 1000 else limit
  (((db.reservations.filter fun r ↦ r.result ≠ none ∧ r.resultApplied = false).insertionSort
    fun r r' ↦ r.updatedAt < r'.updatedAt ∨ (r.updatedAt = r'.updatedAt ∧ r.id ≤ r'.id)).take
      limit.toNat).map ReservationRow.id

/-- **`RetryPending`**, run without interruption: one `applyPending` transaction per reservation,
whose errors are collected. -/
def retryPending (now : Time) (limit : Int) (db : Db) : Db × List (String × AccountingError) :=
  (pendingIDs limit db).foldl (fun (db, errs) id ↦
    match applyPending now id db with
    | .ok db' => (db', errs)
    | .error e => (db, errs ++ [(id, e)])) (db, [])

end Voxeltoad
