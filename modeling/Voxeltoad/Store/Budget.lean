import Voxeltoad.Store.Accounting

/-!
# Budgets, resolutions and top-ups

The admin plane's side of accounting: `BudgetRepo` of `internal/store/budget.go`, which creates and
patches budget policies and lets an operator resolve a reservation whose charge is unknown, and
`TopUp` of `internal/store/quota.go`.  As in `Store/Accounting.lean`, each function is one database
transaction.
-/

set_option autoImplicit false

namespace Voxeltoad

variable (zones : Zones)

/-- `unicode.IsSpace`. -/
def isSpace (c : Char) : Bool :=
  [0x09, 0x0A, 0x0B, 0x0C, 0x0D, 0x20, 0x85, 0xA0, 0x1680, 0x2028, 0x2029, 0x202F, 0x205F,
    0x3000].contains c.toNat || (0x2000 ≤ c.toNat && c.toNat ≤ 0x200A)

/-- `strings.TrimSpace(s) == ""`. -/
def blank (s : String) : Bool := s.toList.all isSpace

/-! ## Policies -/

/-- The calendar of a policy has to be one `PeriodBounds` understands. -/
def validatePeriod (now : Time) (timezone : String) (period : Option Period) :
    Except AccountingError Period := do
  let _ ← periodBounds zones now (period.getD .daily) timezone
  match period with
  | none => .error (.invalidPolicy "period")
  | some period => .ok period

/-- Only `application_env` policies name an environment. -/
def validateEnvironment (spec : BudgetSpec) : Except AccountingError Unit :=
  if spec.scopeKind = some .applicationEnv then
    if spec.environment ≠ "dev" ∧ spec.environment ≠ "staging" ∧ spec.environment ≠ "prod" then
      .error (.invalidPolicy "environment")
    else .ok ()
  else if spec.environment ≠ "" then
    .error (.invalidPolicy "environment requires application_env")
  else if spec.scopeKind = some .tenant ∧ spec.scopeRef ≠ "" then
    .error (.invalidPolicy "tenant scope_ref must be empty")
  else .ok ()

/-- Thresholds are distinct integer percentages, kept in ascending order. -/
def validateThresholds (thresholds : List Int) : Except AccountingError (List Int) :=
  let sorted := thresholds.insertionSort (· ≤ ·)
  if (∀ t ∈ sorted, 1 ≤ t ∧ t ≤ 100) ∧ sorted.IsChain (· ≠ ·) then .ok sorted
  else .error (.invalidPolicy "thresholds must be distinct integer percentages")

/-- `strconv.ParseInt` of a reference, which has to be the canonical text of a positive id. -/
def parseEntityID (ref : String) : Except AccountingError Int :=
  match ref.toInt? with
  | none => .error (.invalidPolicy "scope_ref must be a canonical entity ID")
  | some id =>
    if id ≤ 0 ∨ ¬ Bigint.Fits id ∨ toString id ≠ ref then
      .error (.invalidPolicy "scope_ref must be a canonical entity ID")
    else .ok id

/-- `validateBudgetOwner`. -/
def validateBudgetOwner (tenantID : Int) (kind : Option ScopeKind) (ref : String) (db : Db) :
    Except AccountingError ScopeKind :=
  let owned (kind : ScopeKind) (exists_ : Bool) : Except AccountingError ScopeKind :=
    if exists_ then .ok kind else .error (.invalidPolicy "scope not owned by tenant")
  match kind with
  | none => .error (.invalidPolicy "scope_kind")
  | some .tenant => .ok .tenant
  | some .group => do
    let id ← parseEntityID ref
    owned .group (db.groups.any fun g ↦ g.tenantID = tenantID ∧ g.id = id)
  | some .application => do
    let id ← parseEntityID ref
    owned .application (db.applications.any fun a ↦ a.tenantID = tenantID ∧ a.id = id)
  | some .applicationEnv => do
    let id ← parseEntityID ref
    owned .applicationEnv (db.applications.any fun a ↦ a.tenantID = tenantID ∧ a.id = id)
  | some .key => owned .key (db.apiKeys.any fun k ↦ k.tenantID = tenantID ∧ k.keyID = ref)

/-- **`BudgetRepo.Create`.** -/
def createPolicy (tenantID : Int) (now : Time) (spec : BudgetSpec) (db : Db) :
    Except AccountingError Db := do
  let timezone := if spec.timezone = "" then "UTC" else spec.timezone
  let currency := toLower spec.currency
  if blank spec.name ∨ 200 < spec.name.utf8ByteSize ∨ spec.limit < 0 ∨
      validCurrency currency = false then
    .error (.invalidPolicy "name, currency, limit or mode")
  else match spec.mode with
  | none => .error (.invalidPolicy "name, currency, limit or mode")
  | some mode =>
    let period ← validatePeriod zones now timezone spec.period
    validateEnvironment spec
    let thresholds ← validateThresholds spec.thresholds
    shareAccountingTenant tenantID db
    let kind ← validateBudgetOwner tenantID spec.scopeKind spec.scopeRef db
    .ok (db.insertPolicy ⟨db.policySeq, tenantID, spec.name, kind, spec.scopeRef,
      spec.environment, period, timezone, currency, spec.limit, mode, thresholds, true, 1⟩)

/-- The policy `Patch` locks. -/
def ownedPolicy (tenantID id : Int) (db : Db) : Option BudgetPolicyRow :=
  db.policies.find? fun p ↦ p.tenantID = tenantID ∧ p.id = id

/-- Change the limit of an account and raise the alerts that follow from it. -/
def limitAccount (tenantID : Int) (limit : Int) (account : BudgetAccountRow) (db : Db) : Db :=
  emitBudgetThresholds tenantID account.id none
    (db.modifyAccount account.id fun a ↦ { a with limitAmount := limit })

/-- **`BudgetRepo.Patch`.**  Only this calendar period changes; historical accounts stay frozen. -/
def patch (tenantID : Int) (now : Time) (id : Int) (p : BudgetPatch) (db : Db) :
    Except AccountingError Db := do
  if p.version ≤ 0 ∨ p.limit.any (· < 0) then .error (.invalidPolicy "")
  else
    shareAccountingTenant tenantID db
    match ownedPolicy tenantID id db with
    | none => .error (.notFound "")
    | some row =>
      if row.version ≠ p.version then .error .reservationConflict
      else
        let limit := p.limit.getD row.limitAmount
        let db := db.modifyPolicy id fun r ↦
          { r with limitAmount := limit, enabled := p.enabled.getD row.enabled,
                   version := r.version + 1 }
        let (start, _) ← periodBounds zones now row.period row.timezone
        match db.accountFor id start with
        | none => .ok db
        | some account => .ok (limitAccount tenantID limit account db)

/-! ## Resolutions -/

/-- What `Resolve` checks before it opens the transaction. -/
def validateResolution (res : Resolution) : Except AccountingError Unit :=
  if res.version ≤ 0 ∨ res.operatorID ≤ 0 ∨ blank res.reason ∨ blank res.evidence then
    .error (.invalidPolicy "")
  else if res.action ≠ .settle ∧ res.action ≠ .release ∧ res.action ≠ .releaseUnknown then
    .error (.invalidPolicy "")
  else if (res.action = .settle ∧ ¬ res.actual.any (0 ≤ ·)) ∨
      (res.action ≠ .settle ∧ res.actual ≠ none) then .error (.invalidPolicy "")
  else .ok ()

/-- The settlement a resolution stands for. -/
def Resolution.settlement (id : String) (res : Resolution) : Settlement :=
  if res.action = .settle then ⟨id, .known, res.actual.getD 0, res.reason, false, none⟩
  else ⟨id, .released, 0, res.reason, false, none⟩

/-- The status a resolution leads to. -/
def Resolution.status (res : Resolution) : Status :=
  if res.action = .settle then .settled
  else if res.action = .releaseUnknown then .releasedUnknown
  else .released

/-- The reservation `Resolve` locks. -/
def ownedReservation (tenantID : Int) (id : String) (db : Db) : Option ReservationRow :=
  db.reservations.find? fun r ↦ r.tenantID = tenantID ∧ r.id = id

/-- Whether a resolution may be applied to a reservation. -/
def Resolution.Applies (res : Resolution) (row : ReservationRow) : Prop :=
  row.version = res.version ∧ row.result = none ∧
    (row.status = .unknown ∨ (row.status = .releasedUnknown ∧ res.action = .settle))

instance (res : Resolution) (row : ReservationRow) : Decidable (res.Applies row) :=
  inferInstanceAs (Decidable (_ ∧ _))

/-- **`BudgetRepo.Resolve`.** -/
def resolve (tenantID : Int) (now : Time) (id : String) (res : Resolution) (db : Db) :
    Except AccountingError Db := do
  validateResolution res
  shareAccountingTenant tenantID db
  match ownedReservation tenantID id db with
  | none => .error (.notFound "")
  | some row =>
    if res.Applies row then
      let s := res.settlement id
      let db ← applyReservation now row s res.status db
      .ok (db.insertEvent ⟨0, tenantID, none, some id, .resolution res.action, 0, s.actual,
        some res.operatorID, res.reason, res.evidence⟩)
    else .error .reservationConflict

/-! ## Top-ups -/

/-- A scope that looks like a group scope has to be a canonical one. -/
def checkGroupScope (scope : String) : Except AccountingError Unit :=
  if "group:".toList.isPrefixOf scope.toList then (parseGroupScope scope).map fun _ ↦ ()
  else .ok ()

/-- **`TopUp`** adds to the balance of a scope, creating its row when absent. -/
def topUp (scope : String) (delta : Int) (currency : String) (db : Db) :
    Except AccountingError Db := do
  checkGroupScope scope
  let currency := toLower currency
  if validCurrency currency = false then .error (.invalidPolicy "invalid quota currency")
  else match db.quota scope with
    | none => .ok (db.insertQuota ⟨scope, delta, currency⟩)
    | some quota =>
      if lower quota.currency ≠ currency then .error (.currencyMismatch ("quota " ++ scope))
      else if Bigint.Fits (quota.balance + delta) then
        .ok (db.modifyQuota scope fun q ↦ { q with balance := q.balance + delta })
      else .error .outOfRange

end Voxeltoad
