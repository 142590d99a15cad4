import Mathlib.Data.List.Sort
import Mathlib.Tactic.Simps.Basic
import Voxeltoad.Billing.Period
import Voxeltoad.Lib.Table

/-!
# The accounting tables

The rows of the tables that accounting reads and writes (migrations `00001`, `00029` and `00031`),
and `Db`, the database they make up.  A database here is a value: a statement is a function of it,
and a transaction that fails simply has no new value to return.

Only the columns that some statement of the model reads or writes are here.  Two `CHECK`
constraints are built into the types: an enumerated column is an inductive type, and an item's
`quota_scope` and `account_id`, exactly one of which is set, are the two constructors of `Target`.
Identity columns draw their values from a sequence per table.

The second half of the file is the statements: one function per `INSERT` and `UPDATE` that the
repositories issue, so that the operations read as they do in the source.
-/

set_option autoImplicit false

namespace Voxeltoad

/-! ## Who is billed -/

structure TenantRow where
  id : Int
  name : String
  deriving DecidableEq, Repr

structure GroupRow where
  id : Int
  tenantID : Int
  name : String
  deriving DecidableEq, Repr

structure ApplicationRow where
  id : Int
  tenantID : Int
  deriving DecidableEq, Repr

structure APIKeyRow where
  keyID : String
  tenantID : Int
  deriving DecidableEq, Repr

/-! ## Balances and budgets -/

/-- `quotas`: a spendable balance.  A scope without a row is not limited. -/
structure QuotaRow where
  scope : String
  balance : Int
  currency : String
  deriving DecidableEq, Repr

/-- `budget_policies`. -/
structure BudgetPolicyRow where
  id : Int
  tenantID : Int
  name : String
  scopeKind : ScopeKind
  scopeRef : String
  environment : String
  period : Period
  timezone : String
  currency : String
  limitAmount : Int
  mode : Mode
  thresholds : List Int
  enabled : Bool
  version : Int
  deriving DecidableEq, Repr

/-- `budget_accounts`: what a policy has reserved and spent in one of its periods. -/
structure BudgetAccountRow where
  id : Int
  policyID : Int
  periodStart : Time
  periodEnd : Time
  currency : String
  limitAmount : Int
  reserved : Int
  committed : Int
  released : Int
  deriving DecidableEq, Repr

/-! ## Reservations -/

/-- The life-cycle state of a reservation. -/
inductive Status where
  | reserved
  | dispatched
  | unknown
  | settled
  | released
  | releasedUnknown
  deriving DecidableEq, Repr

/-- `billing_reservations`.  `result` is the durable result of the request: the settlement that
`Finish` recorded, kept as the value the JSON column encodes. -/
structure ReservationRow where
  id : String
  tenantID : Int
  requestID : String
  identity : ReservationRequest
  status : Status
  actual : Option Int
  reason : String
  version : Int
  result : Option Settlement
  resultApplied : Bool
  createdAt : Time
  updatedAt : Time
  deriving DecidableEq, Repr

/-- What an item of a reservation was taken from. -/
inductive Target where
  | quota (scope : String)
  | account (id : Int)
  deriving DecidableEq, Repr

/-- `billing_reservation_items`: the part of a reservation held on one quota or one account. -/
structure ReservationItem where
  id : Int
  reservationID : String
  target : Target
  reserved : Int
  held : Int
  committed : Int
  released : Int
  deriving DecidableEq, Repr

/-! ## Events and usage -/

/-- The kinds of `budget_events` the repositories write. -/
inductive EventKind where
  | threshold
  | overspend
  | unknown
  | attemptRisk
  | resolution (action : Action)
  deriving DecidableEq, Repr

/-- `budget_events`. -/
structure BudgetEvent where
  id : Int
  tenantID : Int
  accountID : Option Int
  reservationID : Option String
  kind : EventKind
  threshold : Int
  amount : Int
  operatorID : Option Int
  reason : String
  evidence : String
  deriving DecidableEq, Repr

/-- A row of `usage_records` that a settlement wrote.  The table has no reservation column; the
one here remembers which reservation's settlement inserted the row. -/
structure UsageRow where
  reservationID : String
  record : UsageRecord
  deriving DecidableEq, Repr

/-! ## The database -/

/-- The accounting database. -/
structure Db where
  tenants : List TenantRow
  groups : List GroupRow
  applications : List ApplicationRow
  apiKeys : List APIKeyRow
  quotas : List QuotaRow
  policies : List BudgetPolicyRow
  accounts : List BudgetAccountRow
  reservations : List ReservationRow
  items : List ReservationItem
  events : List BudgetEvent
  usageRecords : List UsageRow
  /-- The next values of the identity sequences. -/
  policySeq : Int
  accountSeq : Int
  itemSeq : Int
  eventSeq : Int
  deriving DecidableEq, Repr

namespace Db

/-! ## Reads -/

def quota (scope : String) (db : Db) : Option QuotaRow := Table.find QuotaRow.scope scope db.quotas

def policy (id : Int) (db : Db) : Option BudgetPolicyRow :=
  Table.find BudgetPolicyRow.id id db.policies

def account (id : Int) (db : Db) : Option BudgetAccountRow :=
  Table.find BudgetAccountRow.id id db.accounts

/-- The account of a policy for the period that begins at `start`. -/
def accountFor (policyID : Int) (start : Time) (db : Db) : Option BudgetAccountRow :=
  db.accounts.find? fun a ↦ a.policyID = policyID ∧ a.periodStart = start

def reservation (id : String) (db : Db) : Option ReservationRow :=
  Table.find ReservationRow.id id db.reservations

/-- The items of a reservation. -/
def itemsOf (id : String) (db : Db) : List ReservationItem :=
  db.items.filter fun i ↦ i.reservationID = id

/-! ## Writes -/

@[simps] def insertReservation (row : ReservationRow) (db : Db) : Db :=
  { db with reservations := db.reservations ++ [row] }

@[simps] def modifyReservation (id : String) (f : ReservationRow → ReservationRow) (db : Db) : Db :=
  { db with reservations := Table.modify ReservationRow.id id f db.reservations }

@[simps] def modifyQuota (scope : String) (f : QuotaRow → QuotaRow) (db : Db) : Db :=
  { db with quotas := Table.modify QuotaRow.scope scope f db.quotas }

@[simps] def insertQuota (row : QuotaRow) (db : Db) : Db := { db with quotas := db.quotas ++ [row] }

@[simps] def insertPolicy (row : BudgetPolicyRow) (db : Db) : Db :=
  { db with policies := db.policies ++ [row], policySeq := db.policySeq + 1 }

@[simps] def modifyPolicy (id : Int) (f : BudgetPolicyRow → BudgetPolicyRow) (db : Db) : Db :=
  { db with policies := Table.modify BudgetPolicyRow.id id f db.policies }

@[simps] def insertAccount (row : BudgetAccountRow) (db : Db) : Db :=
  { db with accounts := db.accounts ++ [row], accountSeq := db.accountSeq + 1 }

@[simps] def modifyAccount (id : Int) (f : BudgetAccountRow → BudgetAccountRow) (db : Db) : Db :=
  { db with accounts := Table.modify BudgetAccountRow.id id f db.accounts }

/-- Insert an item that holds the whole of what it reserves. -/
@[simps] def insertItem (reservationID : String) (target : Target) (estimate : Int) (db : Db) :
    Db :=
  { db with
    items := db.items ++ [⟨db.itemSeq, reservationID, target, estimate, estimate, 0, 0⟩]
    itemSeq := db.itemSeq + 1 }

@[simps] def modifyItem (id : Int) (f : ReservationItem → ReservationItem) (db : Db) : Db :=
  { db with items := Table.modify ReservationItem.id id f db.items }

/-- Insert an event; the identity column is filled in here. -/
@[simps] def insertEvent (e : BudgetEvent) (db : Db) : Db :=
  { db with events := db.events ++ [{ e with id := db.eventSeq }], eventSeq := db.eventSeq + 1 }

/-- The unique indexes of `budget_events`: one per account, kind and threshold among the alerts,
and one `unknown` per reservation. -/
def eventConflicts (e e' : BudgetEvent) : Bool :=
  (e.accountID.isSome && e.accountID = e'.accountID && e.kind = e'.kind &&
    e.threshold = e'.threshold && (e.kind = .threshold || e.kind = .overspend)) ||
  (e.kind = .unknown && e'.kind = .unknown && e.reservationID.isSome &&
    e.reservationID = e'.reservationID)

/-- `INSERT ... ON CONFLICT DO NOTHING`. -/
def insertEventOnce (e : BudgetEvent) (db : Db) : Db :=
  if db.events.any (eventConflicts e) then db else db.insertEvent e

@[simps] def insertUsage (row : UsageRow) (db : Db) : Db :=
  { db with usageRecords := db.usageRecords ++ [row] }

end Db

end Voxeltoad
