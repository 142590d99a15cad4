import Voxeltoad.Store.Apply
import Voxeltoad.Store.Hold

/-!
# What each transaction writes

One inversion lemma per transaction: from the fact that it succeeded, what it checked and what it
wrote.  `tx_effect` puts them together.  Whatever an operation of the machine is, its effect is one
of six:

* it rewrites rows of `billing_reservations` and leaves everything that counts money alone;
* it applies a settlement to a reservation (`Db.SettledBy`);
* it writes a new reservation and holds (`Db.Holds`);
* it creates a policy, changes a limit, or credits a quota.

Every invariant of the store is proved by going through these six cases.
-/

set_option autoImplicit false

namespace Voxeltoad

/-! ## Rows -/

/-- The alerts that have been raised. -/
def Db.alerts (db : Db) : List BudgetEvent := db.events.filter BudgetEvent.isAlert

/-- Two databases that differ in rows of `billing_reservations`, and in events that are neither
alerts nor attempt-risk events. -/
structure Db.SameBooks (db db' : Db) : Prop where
  shape : db'.shape = db.shape
  quotas : db'.quotas = db.quotas
  policies : db'.policies = db.policies
  accounts : db'.accounts = db.accounts
  items : db'.items = db.items
  usageRecords : db'.usageRecords = db.usageRecords
  alerts : db'.alerts = db.alerts
  risks : ∀ id, db'.risks id = db.risks id

namespace Db.SameBooks

variable {db db' db'' : Db}

theorem refl (db : Db) : SameBooks db db := ⟨rfl, rfl, rfl, rfl, rfl, rfl, rfl, fun _ ↦ rfl⟩

theorem trans (h : SameBooks db db') (h' : SameBooks db' db'') : SameBooks db db'' :=
  ⟨h'.shape.trans h.shape, h'.quotas.trans h.quotas, h'.policies.trans h.policies,
    h'.accounts.trans h.accounts, h'.items.trans h.items, h'.usageRecords.trans h.usageRecords,
    h'.alerts.trans h.alerts, fun id ↦ (h'.risks id).trans (h.risks id)⟩

theorem modifyReservation {id : String} {f : ReservationRow → ReservationRow}
    (hf : ∀ r, (f r).shape = r.shape) (db : Db) : SameBooks db (db.modifyReservation id f) :=
  ⟨Db.shape_modifyReservation hf, rfl, rfl, rfl, rfl, rfl, rfl, fun _ ↦ rfl⟩

theorem insertEvent {e : BudgetEvent} (halert : e.isAlert = false) (hrisk : e.kind ≠ .attemptRisk)
    (db : Db) : SameBooks db (db.insertEvent e) := by
  refine ⟨rfl, rfl, rfl, rfl, rfl, rfl, ?_, fun id ↦ ?_⟩
  · have halert' : BudgetEvent.isAlert { e with id := db.eventSeq } = false := halert
    rw [Db.alerts, insertEvent_events, List.filter_append, List.filter_singleton, halert']
    simp [Db.alerts]
  · rw [Db.risks, insertEvent_events, List.countP_append, List.countP_singleton]
    simp [Db.risks, hrisk]

theorem insertEventOnce {e : BudgetEvent} (halert : e.isAlert = false)
    (hrisk : e.kind ≠ .attemptRisk) (db : Db) : SameBooks db (db.insertEventOnce e) := by
  rw [Db.insertEventOnce]
  split
  · exact .refl db
  · exact .insertEvent halert hrisk db

end Db.SameBooks

theorem markReservationUnknown_sameBooks (now : Time) (row : ReservationRow) (reason : String)
    (db : Db) : Db.SameBooks db (markReservationUnknown now row reason db) :=
  (Db.SameBooks.modifyReservation (by intro; rfl) db).trans
    (.insertEventOnce rfl (by simp) _)

theorem insertEventOnce_reservations (e : BudgetEvent) (db : Db) :
    (db.insertEventOnce e).reservations = db.reservations := by
  rw [Db.insertEventOnce]
  split <;> rfl

theorem markReservationUnknown_reservations (now : Time) (row : ReservationRow) (reason : String)
    (db : Db) :
    (markReservationUnknown now row reason db).reservations =
      Table.modify ReservationRow.id row.id (fun r ↦
        { r with status := .unknown, reason := reason, version := r.version + 1,
                 updatedAt := now }) db.reservations :=
  insertEventOnce_reservations ..

theorem markDispatchedUpdate_sameBooks (now : Time) (id : String) (db : Db) :
    Db.SameBooks db (markDispatchedUpdate now id db) := by
  rw [markDispatchedUpdate]
  split
  · exact .modifyReservation (by intro; rfl) db
  · exact .refl db

theorem markStale_ok {now before : Time} {locked : List String} {db db' : Db}
    (h : markStale now before locked db = .ok db') :
    db' = ((staleCandidates before db).filter fun row ↦ row.id ∉ locked).foldl
      (fun db row ↦ markReservationUnknown now row "stale reservation: charge unknown" db) db := by
  obtain ⟨-, -, h⟩ := Loop.bind_eq_ok.mp h
  cases h
  rfl

theorem markStale_sameBooks {now before : Time} {locked : List String} {db db' : Db}
    (h : markStale now before locked db = .ok db') : Db.SameBooks db db' := by
  rw [markStale_ok h]
  generalize (staleCandidates before db).filter (fun row ↦ row.id ∉ locked) = rows
  clear h
  induction rows generalizing db with
  | nil => exact .refl db
  | cons row rows ih => exact (markReservationUnknown_sameBooks now row _ db).trans ih

/-! ## Results -/

theorem validateSettlement_ok {s : Settlement} (h : validateSettlement s = .ok ()) :
    s.reservationID ≠ "" ∧ 0 ≤ s.actual ∧
      (s.outcome = .known ∨ s.outcome = .released ∨ s.outcome = .unknown) ∧
      (s.outcome ≠ .known → s.actual = 0 ∧ s.usage = none) := by
  rw [validateSettlement] at h
  split at h
  · cases h
  · rename_i hok
    simp only [not_or, not_lt, not_and, not_not] at hok
    obtain ⟨hid, hactual, hout, hzero⟩ := hok
    refine ⟨hid, hactual, ?_, fun hk ↦ ⟨(hzero hk).1, (hzero hk).2⟩⟩
    by_cases hk : s.outcome = .known
    · exact .inl hk
    · by_cases hr : s.outcome = .released
      · exact .inr (.inl hr)
      · exact .inr (.inr (hout hk hr))

/-- Whether the result of a request may still be recorded. -/
def ReservationRow.Accepts (row : ReservationRow) (s : Settlement) : Prop :=
  row.result = none ∧ row.status ≠ .settled ∧ row.status ≠ .released ∧
    (row.status = .releasedUnknown → s.outcome = .known)

theorem recordResult_ok {now : Time} {s : Settlement} {db db' : Db}
    (h : recordResult now s db = .ok db') :
    ∃ row, db.reservation s.reservationID = some row ∧
      (row.result = some s ∧ db' = db ∨
        row.Accepts s ∧ db' = db.modifyReservation s.reservationID fun r ↦
          { r with result := some s, resultApplied := false, version := r.version + 1,
                   updatedAt := now }) := by
  rw [recordResult] at h
  split at h
  · cases h
  · rename_i row hrow
    refine ⟨row, hrow, ?_⟩
    split at h
    · rename_i result hresult
      split at h
      · rename_i heq
        cases h
        exact .inl ⟨by rw [hresult, heq], rfl⟩
      · cases h
    · rename_i hnone
      split at h
      · cases h
      · rename_i hguard
        simp only [not_or, not_and, not_not] at hguard
        cases h
        exact .inr ⟨⟨hnone, hguard.1, hguard.2.1, hguard.2.2⟩, rfl⟩

theorem markUnknown_ok {now : Time} {id reason : String} {db db' : Db}
    (h : markUnknown now id reason db = .ok db') :
    ∃ row, db.reservation id = some row ∧
      ((row.status = .unknown ∨ row.status = .releasedUnknown) ∧ db' = db ∨
        row.Live ∧ db' = markReservationUnknown now row reason db) := by
  obtain ⟨-, -, h⟩ := Loop.bind_eq_ok.mp h
  split at h
  · cases h
  · rename_i row hrow
    refine ⟨row, hrow, ?_⟩
    split at h
    · rename_i hst
      cases h
      exact .inl ⟨hst, rfl⟩
    · split at h
      · cases h
      · rename_i hlive
        cases h
        refine .inr ⟨?_, rfl⟩
        simp only [not_or, not_and, not_not] at hlive
        refine ⟨?_, hlive.2⟩
        by_cases hr : row.status = .reserved
        · exact .inl hr
        · exact .inr (hlive.1 hr)

/-- **What the first transaction of `Finish` does.** -/
theorem finishFirst_ok {now : Time} {s : Settlement} {db db' : Db}
    (h : finishFirst now s db = .ok db') :
    validateSettlement s = .ok () ∧ ∃ row, db.reservation s.reservationID = some row ∧
      (db' = db ∨
        s.outcome = .unknown ∧ row.Live ∧ db' = markReservationUnknown now row s.reason db ∨
        s.outcome ≠ .unknown ∧ row.Accepts s ∧ db' = db.modifyReservation s.reservationID fun r ↦
          { r with result := some s, resultApplied := false, version := r.version + 1,
                   updatedAt := now }) := by
  obtain ⟨⟨⟩, hvalid, h⟩ := Loop.bind_eq_ok.mp h
  refine ⟨hvalid, ?_⟩
  split at h
  · rename_i hu
    obtain ⟨row, hrow, ⟨-, rfl⟩ | ⟨hlive, rfl⟩⟩ := markUnknown_ok h
    · exact ⟨row, hrow, .inl rfl⟩
    · exact ⟨row, hrow, .inr (.inl ⟨hu, hlive, rfl⟩)⟩
  · rename_i hu
    obtain ⟨row, hrow, ⟨-, rfl⟩ | ⟨hacc, rfl⟩⟩ := recordResult_ok h
    · exact ⟨row, hrow, .inl rfl⟩
    · exact ⟨row, hrow, .inr (.inr ⟨hu, hacc, rfl⟩)⟩

theorem finishFirst_sameBooks {now : Time} {s : Settlement} {db db' : Db}
    (h : finishFirst now s db = .ok db') : Db.SameBooks db db' := by
  obtain ⟨-, row, -, rfl | ⟨-, -, rfl⟩ | ⟨-, -, rfl⟩⟩ := finishFirst_ok h
  · exact .refl _
  · exact markReservationUnknown_sameBooks now row _ db
  · exact .modifyReservation (by intro; rfl) db

/-! ## Settlements -/

/-- The settlements that may be applied to a row, with the status they lead to: the result that
was recorded, or what an operator decided. -/
inductive ReservationRow.Due (row : ReservationRow) : Settlement → Status → Prop
  | pending (s : Settlement) (happlied : row.resultApplied = false)
      (hresult : row.result = some s) :
      Due row s s.status
  | resolved (res : Resolution) (hvalid : validateResolution res = .ok ())
      (happlies : res.Applies row) : Due row (res.settlement row.id) res.status

theorem applyPending_ok {now : Time} {id : String} {db db' : Db}
    (h : applyPending now id db = .ok db') :
    ∃ row, db.reservation id = some row ∧
      (row.resultApplied = true ∧ db' = db ∨
        ∃ s, row.resultApplied = false ∧ row.result = some s ∧
          applyReservation now row s s.status db = .ok db') := by
  obtain ⟨-, -, h⟩ := Loop.bind_eq_ok.mp h
  split at h
  · cases h
  · rename_i row hrow
    refine ⟨row, hrow, ?_⟩
    split at h
    · rename_i happlied
      cases h
      exact .inl ⟨happlied, rfl⟩
    · rename_i happlied
      split at h
      · cases h
      · rename_i s hs
        exact .inr ⟨s, by simpa using happlied, hs, h⟩

theorem mem_of_ownedReservation {tenantID : Int} {id : String} {db : Db} {row : ReservationRow}
    (h : ownedReservation tenantID id db = some row) :
    row ∈ db.reservations ∧ row.tenantID = tenantID ∧ row.id = id :=
  ⟨List.mem_of_find?_eq_some h, by simpa using List.find?_some h⟩

theorem resolve_ok {tenantID : Int} {now : Time} {id : String} {res : Resolution} {db db' : Db}
    (h : resolve tenantID now id res db = .ok db') :
    validateResolution res = .ok () ∧ ∃ row, ownedReservation tenantID id db = some row ∧
      res.Applies row ∧ ∃ db₁,
        applyReservation now row (res.settlement id) res.status db = .ok db₁ ∧
        db' = db₁.insertEvent ⟨0, tenantID, none, some id, .resolution res.action, 0,
          (res.settlement id).actual, some res.operatorID, res.reason, res.evidence⟩ := by
  obtain ⟨⟨⟩, hvalid, h⟩ := Loop.bind_eq_ok.mp h
  refine ⟨hvalid, ?_⟩
  obtain ⟨-, -, h⟩ := Loop.bind_eq_ok.mp h
  split at h
  · cases h
  · rename_i row hrow
    split at h
    · rename_i happlies
      obtain ⟨db₁, h₁, h⟩ := Loop.bind_eq_ok.mp h
      cases h
      exact ⟨row, hrow, happlies, db₁, h₁, rfl⟩
    · cases h

/-! ## Policies and quotas -/

/-- A policy on a group or on an application refers to it by the text of a positive id. -/
def BudgetPolicyRow.RefersByID (p : BudgetPolicyRow) : Prop :=
  p.scopeKind = .group ∨ p.scopeKind = .application ∨ p.scopeKind = .applicationEnv →
    ∃ id : Int, 0 < id ∧ p.scopeRef = toString id

theorem parseEntityID_ok {ref : String} {id : Int} (h : parseEntityID ref = .ok id) :
    0 < id ∧ ref = toString id := by
  rw [parseEntityID] at h
  split at h
  · cases h
  · split at h
    · cases h
    · rename_i hguard
      simp only [not_or, not_le, not_not] at hguard
      cases h
      exact ⟨hguard.1, hguard.2.2.symm⟩

theorem validateBudgetOwner_ok {tenantID : Int} {kind : Option ScopeKind} {ref : String}
    {db : Db} {kind' : ScopeKind} (h : validateBudgetOwner tenantID kind ref db = .ok kind') :
    kind' = .group ∨ kind' = .application ∨ kind' = .applicationEnv →
      ∃ id : Int, 0 < id ∧ ref = toString id := by
  cases kind with
  | none => cases h
  | some kind =>
    cases kind with
    | tenant =>
      cases h
      simp
    | key =>
      rw [validateBudgetOwner] at h
      dsimp only at h
      split at h <;> cases h
      simp
    | group | application | applicationEnv =>
      obtain ⟨id, hid, -⟩ := Loop.bind_eq_ok.mp h
      exact fun _ ↦ ⟨id, parseEntityID_ok hid⟩

theorem createPolicy_ok {zones : Zones} {tenantID : Int} {now : Time} {spec : BudgetSpec}
    {db db' : Db} (h : createPolicy zones tenantID now spec db = .ok db') :
    ∃ row : BudgetPolicyRow, row.id = db.policySeq ∧ 0 ≤ row.limitAmount ∧ row.RefersByID ∧
      db' = db.insertPolicy row := by
  rw [createPolicy] at h
  split at h
  · cases h
  · rename_i hguard
    simp only [not_or, not_lt] at hguard
    split at h
    · cases h
    · obtain ⟨_, -, h⟩ := Loop.bind_eq_ok.mp h
      obtain ⟨-, -, h⟩ := Loop.bind_eq_ok.mp h
      obtain ⟨_, -, h⟩ := Loop.bind_eq_ok.mp h
      obtain ⟨-, -, h⟩ := Loop.bind_eq_ok.mp h
      obtain ⟨_, howner, h⟩ := Loop.bind_eq_ok.mp h
      cases h
      exact ⟨_, rfl, hguard.2.2.1, validateBudgetOwner_ok howner, rfl⟩

theorem topUp_ok {scope : String} {delta : Int} {currency : String} {db db' : Db}
    (h : topUp scope delta currency db = .ok db') :
    db.quota scope = none ∧ validCurrency (toLower currency) = true ∧
        db' = db.insertQuota ⟨scope, delta, toLower currency⟩ ∨
    ∃ q, db.quota scope = some q ∧
      db' = db.modifyQuota scope fun q ↦ { q with balance := q.balance + delta } := by
  obtain ⟨-, -, h⟩ := Loop.bind_eq_ok.mp h
  dsimp only at h
  split at h
  · cases h
  · rename_i hcur
    split at h
    · rename_i hnone
      cases h
      exact .inl ⟨hnone, by simpa using hcur, rfl⟩
    · rename_i q hq
      split at h
      · cases h
      · split at h
        · cases h
          exact .inr ⟨q, hq, rfl⟩
        · cases h

/-- The database after `Patch` has changed a limit, given the account of the current period. -/
def patched (tenantID id limit : Int) (enabled : Bool) (account : Option BudgetAccountRow)
    (db : Db) : Db :=
  let db := db.modifyPolicy id fun r ↦
    { r with limitAmount := limit, enabled := enabled, version := r.version + 1 }
  match account with
  | none => db
  | some account => limitAccount tenantID limit account db

/-- The rows `Patch` rewrites, before the alerts. -/
def patchedRows (id limit : Int) (enabled : Bool) (account : Option BudgetAccountRow) (db : Db) :
    Db :=
  let db := db.modifyPolicy id fun r ↦
    { r with limitAmount := limit, enabled := enabled, version := r.version + 1 }
  match account with
  | none => db
  | some account => db.modifyAccount account.id fun a ↦ { a with limitAmount := limit }

theorem patched_sameButAlerts (tenantID id limit : Int) (enabled : Bool)
    (account : Option BudgetAccountRow) (db : Db) :
    Db.SameButAlerts (patchedRows id limit enabled account db)
      (patched tenantID id limit enabled account db) := by
  cases account with
  | none => exact ⟨rfl, rfl, rfl, rfl, rfl, rfl, rfl, [], by simp [patched, patchedRows]⟩
  | some account => exact emitBudgetThresholds_sameButAlerts ..

/-- Changing a limit changes nothing else about an account. -/
theorem mem_patched_accounts {tenantID id limit : Int} {enabled : Bool}
    {account : Option BudgetAccountRow} {db : Db} {a : BudgetAccountRow}
    (h : a ∈ (patched tenantID id limit enabled account db).accounts) :
    ∃ a₀ ∈ db.accounts, a = { a₀ with limitAmount := a.limitAmount } := by
  rw [(patched_sameButAlerts ..).accounts] at h
  cases account with
  | none => exact ⟨a, h, rfl⟩
  | some account =>
    obtain ⟨a₀, ha₀, rfl⟩ := Table.mem_modify.mp h
    refine ⟨a₀, ha₀, ?_⟩
    split <;> rfl

theorem patch_ok {zones : Zones} {tenantID : Int} {now : Time} {id : Int} {p : BudgetPatch}
    {db db' : Db} (h : patch zones tenantID now id p db = .ok db') :
    ∃ row start stop, ownedPolicy tenantID id db = some row ∧
      periodBounds zones now row.period row.timezone = .ok (start, stop) ∧
      (∀ l, p.limit = some l → 0 ≤ l) ∧
      db' = patched tenantID id (p.limit.getD row.limitAmount) (p.enabled.getD row.enabled)
        (db.accountFor id start) db := by
  rw [patch] at h
  split at h
  · cases h
  · rename_i hguard
    obtain ⟨-, -, h⟩ := Loop.bind_eq_ok.mp h
    split at h
    · cases h
    · rename_i row hrow
      split at h
      · cases h
      · obtain ⟨⟨start, stop⟩, hbounds, h⟩ := Loop.bind_eq_ok.mp h
        refine ⟨row, start, stop, hrow, hbounds, ?_, ?_⟩
        · intro l hl
          simp only [not_or, hl, Option.any_some, decide_eq_true_eq, not_lt] at hguard
          exact hguard.2
        · dsimp only at h
          have hfor : ∀ f, (db.modifyPolicy id f).accountFor id start = db.accountFor id start :=
            fun _ ↦ rfl
          rw [hfor] at h
          split at h
          · rename_i hnone
            cases h
            rw [hnone]
            rfl
          · rename_i account hsome
            cases h
            rw [hsome]
            rfl

/-! ## The six effects -/

/-- What an operation that succeeds can do. -/
inductive Effect (op : Op) (db db' : Db) : Prop
  /-- Rows of `billing_reservations` are rewritten. -/
  | rows (hsame : db.SameBooks db') (hcredits : op.credits = []) (happlied : op.applied db = [])
  /-- A settlement is applied; an operator's decision leaves an event of its own. -/
  | settle (now : Time) (row : ReservationRow) (s : Settlement) (status : Status) (db₁ : Db)
      (hrow : db.reservation row.id = some row) (hdue : row.Due s status)
      (hok : applyReservation now row s status db = .ok db₁) (hsame : db₁.SameBooks db')
      (hres : db'.reservations = db₁.reservations) (hcredits : op.credits = [])
      (happlied : op.applied db = [⟨row.id, s, status, db.itemsOf row.id⟩])
  /-- A reservation is written, and holds. -/
  | hold (now : Time) (req : ReservationRequest) (tenantID : Int)
      (hnew : db.reservation req.id = none) (hest : 0 ≤ req.estimate)
      (hholds : Db.Holds req (db.insertReservation (newReservation now tenantID req)) db')
      (hcredits : op.credits = []) (happlied : op.applied db = [])
  /-- A policy is created. -/
  | policy (row : BudgetPolicyRow) (hid : row.id = db.policySeq) (hlimit : 0 ≤ row.limitAmount)
      (heq : db' = db.insertPolicy row) (hcredits : op.credits = [])
      (happlied : op.applied db = []) (href : row.RefersByID)
  /-- A policy gets a new limit, and so does its account of the current period. -/
  | limit (tenantID : Int) (row : BudgetPolicyRow) (limit : Int) (enabled : Bool) (start : Time)
      (hrow : row ∈ db.policies) (hlimit : limit = row.limitAmount ∨ 0 ≤ limit)
      (heq : db' = patched tenantID row.id limit enabled (db.accountFor row.id start) db)
      (hcredits : op.credits = []) (happlied : op.applied db = [])
  /-- A quota is credited. -/
  | credit (scope : String) (delta : Int)
      (heq : (db.quota scope = none ∧ ∃ currency, validCurrency currency = true ∧
          db' = db.insertQuota ⟨scope, delta, currency⟩) ∨
        (db.quota scope).isSome ∧
          db' = db.modifyQuota scope fun q ↦ { q with balance := q.balance + delta })
      (hcredits : op.credits = [(scope, delta)]) (happlied : op.applied db = [])

section TxEffect

variable {zones : Zones} {db db' : Db}

theorem applyPending_effect {now : Time} {id : String}
    (h : applyPending now id db = .ok db') : Effect (.applyPending now id) db db' := by
  obtain ⟨row, hrow, ⟨happlied, rfl⟩ | ⟨s, happlied, hresult, hok⟩⟩ := applyPending_ok h
  · exact .rows (.refl db') rfl (by simp [Op.applied, hrow, happlied])
  · obtain ⟨-, rfl⟩ := Table.mem_of_find hrow
    exact .settle now row s s.status db' hrow (.pending s happlied hresult) hok (.refl db') rfl rfl
      (by simp [Op.applied, hrow, happlied, hresult])

theorem resolve_effect {tenantID : Int} {now : Time} {id : String} {res : Resolution}
    (hwf : db.WF) (h : resolve tenantID now id res db = .ok db') :
    Effect (.resolve tenantID now id res) db db' := by
  obtain ⟨hvalid, row, hrow, happlies, db₁, hok, rfl⟩ := resolve_ok h
  obtain ⟨hmem, -, rfl⟩ := mem_of_ownedReservation hrow
  exact .settle now row _ _ db₁ (hwf.reservations.find_of_mem hmem)
    (.resolved res hvalid happlies) hok (.insertEvent rfl (by simp) db₁) rfl rfl rfl

theorem patch_effect {tenantID : Int} {now : Time} {id : Int} {p : BudgetPatch}
    (h : patch zones tenantID now id p db = .ok db') :
    Effect (.patch tenantID now id p) db db' := by
  obtain ⟨row, start, -, hrow, -, hlimit, rfl⟩ := patch_ok h
  have hid : row.id = id := by
    have := List.find?_some hrow
    simp only [decide_eq_true_eq] at this
    exact this.2
  subst hid
  refine .limit tenantID row _ _ start (List.mem_of_find?_eq_some hrow) ?_ rfl rfl rfl
  cases hl : p.limit with
  | none => exact .inl rfl
  | some l => exact .inr (hlimit l hl)

/-- **What an operation does when it succeeds.** -/
theorem tx_effect {op : Op} (hwf : db.WF) (h : op.tx zones db = .ok db') : Effect op db db' := by
  cases op with
  | reserve now req =>
    rcases reserve_ok hwf h with rfl | ⟨req', tenantID, hvalid, hnew, hholds⟩
    · exact .rows (.refl db') rfl rfl
    · exact .hold now req' tenantID hnew (validateRequest_ok hvalid).2.1 hholds rfl rfl
  | markDispatched now id =>
    cases h
    exact .rows (markDispatchedUpdate_sameBooks now id db) rfl rfl
  | finishFirst now s => exact .rows (finishFirst_sameBooks h) rfl rfl
  | applyPending now id => exact applyPending_effect h
  | markStale now before locked => exact .rows (markStale_sameBooks h) rfl rfl
  | resolve tenantID now id res => exact resolve_effect hwf h
  | createPolicy tenantID now spec =>
    obtain ⟨row, hid, hlimit, href, heq⟩ := createPolicy_ok h
    exact .policy row hid hlimit heq rfl rfl href
  | patch tenantID now id p => exact patch_effect h
  | topUp scope delta currency =>
    rcases topUp_ok h with ⟨hnone, hcur, heq⟩ | ⟨q, hq, heq⟩
    · exact .credit scope delta (.inl ⟨hnone, _, hcur, heq⟩) rfl rfl
    · exact .credit scope delta (.inr ⟨by rw [hq]; rfl, heq⟩) rfl rfl

end TxEffect

/-! ## The constraints of the schema hold throughout -/

theorem Db.SettledBy.of_sameBooks {now : Time} {row : ReservationRow} {s : Settlement}
    {status : Status} {db db₁ db' : Db} (h : Db.SettledBy now row s status db db₁)
    (hsame : db₁.SameBooks db') (hres : db'.reservations = db₁.reservations) :
    Db.SettledBy now row s status db db' where
  shape := hsame.shape.trans h.shape
  quotas := hsame.quotas.trans h.quotas
  accounts := hsame.accounts.trans h.accounts
  items := hsame.items.trans h.items
  policies := hsame.policies.trans h.policies
  reservations := hres.trans h.reservations
  usageRecords := hsame.usageRecords.trans h.usageRecords
  risks id := (hsame.risks id).trans (h.risks id)

theorem shape_patchedRows (id limit : Int) (enabled : Bool) (account : Option BudgetAccountRow)
    (db : Db) : (patchedRows id limit enabled account db).shape = db.shape := by
  have hpolicy : (db.modifyPolicy id fun r ↦
      { r with limitAmount := limit, enabled := enabled, version := r.version + 1 }).shape =
        db.shape := Db.shape_modifyPolicy (by intro; rfl)
  cases account with
  | none => exact hpolicy
  | some account => exact (Db.shape_modifyAccount (by intro; rfl)).trans hpolicy

theorem shape_patched (tenantID id limit : Int) (enabled : Bool)
    (account : Option BudgetAccountRow) (db : Db) :
    (patched tenantID id limit enabled account db).shape = db.shape :=
  (patched_sameButAlerts ..).shape.trans (shape_patchedRows ..)

theorem Effect.wf {op : Op} {db db' : Db} (hwf : db.WF) (h : Effect op db db') : db'.WF := by
  cases h with
  | rows hsame => exact hwf.of_shape hsame.shape
  | settle now row s status db₁ hrow hdue hok hsame hres =>
    have hset := (applyReservation_ok hwf.items hok).of_sameBooks hsame hres
    exact hwf.of_shape hset.shape
  | hold now req tenantID hnew hest hholds => exact hholds.wf
  | policy row hid hlimit heq =>
    subst heq
    exact hwf.insertPolicy hid
  | limit tenantID row limit enabled start hrow hlimit heq =>
    subst heq
    exact hwf.of_shape (shape_patched ..)
  | credit scope delta heq =>
    rcases heq with ⟨hnone, currency, hcur, rfl⟩ | ⟨-, rfl⟩
    · exact hwf.insertQuota hnone (ascii_of_validCurrency hcur)
    · exact hwf.of_shape (Db.shape_modifyQuota (by intro; rfl))

theorem Db.Initial.wf {db : Db} (h : db.Initial) : db.WF := by
  rw [Db.wF_iff]
  simp only [h.policies, h.accounts, h.reservations, h.items, Table.Keyed]
  simpa using ⟨h.tenantID, h.quotas, h.quotaLabel⟩

/-- **One step**: nothing happened, or the effect of the operation did. -/
theorem step_effect (zones : Zones) (op : Op) {st : State} (hwf : st.db.WF) :
    step zones st op = st ∨
      Effect op st.db (step zones st op).db ∧
        (step zones st op).history.credits = st.history.credits ++ op.credits ∧
        (step zones st op).history.applied = st.history.applied ++ op.applied st.db := by
  cases htx : op.tx zones st.db with
  | error e => exact .inl (step_of_error htx)
  | ok db' =>
    rw [step_of_ok htx]
    exact .inr ⟨tx_effect hwf htx, rfl, rfl⟩

theorem wf_step {zones : Zones} {st : State} (op : Op) (hwf : st.db.WF) :
    (step zones st op).db.WF := by
  rcases step_effect zones op hwf with h | ⟨h, -⟩
  · rw [h]
    exact hwf
  · exact h.wf hwf

/-- **Every reachable database satisfies the constraints of the schema.** -/
theorem wf_runOps {zones : Zones} {db : Db} (h : db.Initial) (ops : List Op) :
    (runOps zones db ops).db.WF :=
  Run.invariant (I := fun st : State ↦ st.db.WF) (fun _ op ↦ wf_step op) ops h.wf

end Voxeltoad
