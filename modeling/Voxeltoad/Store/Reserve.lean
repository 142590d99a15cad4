import Voxeltoad.Store.Effects

/-!
# Reserving is all or nothing

`Store/Hold.lean` says what kind of steps `Reserve` takes.  This file says exactly when it succeeds
and exactly what it leaves behind, in terms of the request and the tables and without reference to
the order in which the source visits them: which quota scopes and which policies a request falls
under (`ReservationRequest.Covers`, `BudgetPolicyRow.AppliesTo`), what each of them has to offer
(`Db.Reservable`), and what the database looks like afterwards (`Db.Reserved`).

The two loops fail at the first limit that refuses.  They visit distinct scopes and distinct
policies, so what an earlier iteration writes is not what a later one checks, and the outcome is
decided by the state the transaction starts in (`Loop.foldlM_ok_iff`).
-/

set_option autoImplicit false

namespace Voxeltoad

/-! ## What a request falls under -/

/-- The quota scopes of a request: its tenant, its group and its key, if it has them. -/
def ReservationRequest.Covers (req : ReservationRequest) (scope : String) : Prop :=
  scope = tenantScope req.tenant ∨
    (req.group ≠ "" ∧ scope = groupScope req.tenant req.group) ∨
    (req.apiKeyID ≠ "" ∧ scope = keyScope req.apiKeyID)

instance (req : ReservationRequest) (scope : String) : Decidable (req.Covers scope) :=
  inferInstanceAs (Decidable (_ ∨ _))

/-- Whether a policy is enabled and its scope is the tenant of the request, its group, its
application, its application in its environment, or its key. -/
def BudgetPolicyRow.AppliesTo (p : BudgetPolicyRow) (t : TenantRow) (req : ReservationRequest)
    (db : Db) : Prop :=
  p.tenantID = t.id ∧ p.enabled = true ∧
    match p.scopeKind with
    | .tenant => True
    | .group => req.group ≠ "" ∧
        ∃ g ∈ db.groups, g.tenantID = t.id ∧ g.name = req.group ∧ p.scopeRef = toString g.id
    | .application => ∃ id, req.applicationID = some id ∧ p.scopeRef = toString id
    | .applicationEnv => p.environment = req.environment ∧
        ∃ id, req.applicationID = some id ∧ p.scopeRef = toString id
    | .key => req.apiKeyID ≠ "" ∧ p.scopeRef = req.apiKeyID

namespace Db

/-- What the rest of the schema promises: the names of tenants, and those of the groups of a
tenant, are unique, and identity columns start at one. -/
structure Directory (db : Db) : Prop where
  tenantNames : Table.Keyed TenantRow.name db.tenants
  groupNames : Table.Keyed (fun g : GroupRow ↦ (g.tenantID, g.name)) db.groups
  groupID : ∀ g ∈ db.groups, g.id ≠ 0
  /-- `validateBudgetOwner` sees to it. -/
  scopeRef : ∀ p ∈ db.policies, p.RefersByID

/-- What the account of a policy for a period can still hold.  An account that is not there yet
would start with the limit of the policy. -/
def availableAt (p : BudgetPolicyRow) (start : Time) (db : Db) : Int :=
  ((db.accountFor p.id start).map BudgetAccountRow.available).getD p.limitAmount

/-- What is reserved on the account of a policy for a period. -/
def reservedAt (p : BudgetPolicyRow) (start : Time) (db : Db) : Int :=
  ((db.accountFor p.id start).map BudgetAccountRow.reserved).getD 0

/-- For the policies that apply to a request, the calendar resolves to a period that ends after it
begins, and the estimate does not take the account out of the range of its column. -/
def NoFault (zones : Zones) (now : Time) (req : ReservationRequest) (db : Db) : Prop :=
  ∀ t ∈ db.tenants, t.name = req.tenant → ∀ p ∈ db.policies, p.AppliesTo t req db →
    ∃ start stop, periodBounds zones now p.period p.timezone = .ok (start, stop) ∧ start < stop ∧
      Bigint.Fits (db.reservedAt p start + req.estimate)

/-- **When a request can be reserved.** -/
structure Reservable (zones : Zones) (now : Time) (t : TenantRow) (req : ReservationRequest)
    (db : Db) : Prop where
  tenant : t ∈ db.tenants ∧ t.name = req.tenant
  group : req.group ≠ "" → ∃ g ∈ db.groups, g.tenantID = t.id ∧ g.name = req.group
  application : ∀ id, req.applicationID = some id →
    ∃ a ∈ db.applications, a.tenantID = t.id ∧ a.id = id
  key : req.apiKeyID ≠ "" → ∃ k ∈ db.apiKeys, k.tenantID = t.id ∧ k.keyID = req.apiKeyID
  /-- No quota is left over from when group quotas did not name their tenant. -/
  legacy : req.group ≠ "" → ∀ q ∈ db.quotas, q.scope ≠ legacyGroupScope req.group
  /-- A scope without a row is not limited. -/
  quotas : ∀ q ∈ db.quotas, req.Covers q.scope →
    equalFold q.currency req.currency = true ∧ 0 < q.balance ∧ req.estimate ≤ q.balance
  /-- A soft policy has to have the right currency, and never blocks. -/
  budgets : ∀ p ∈ db.policies, p.AppliesTo t req db →
    p.currency = req.currency ∧ (p.mode = .enforce →
      ∀ start stop, periodBounds zones now p.period p.timezone = .ok (start, stop) →
        0 < db.availableAt p start ∧ req.estimate ≤ db.availableAt p start)

/-- The account of a policy for a period: the one that is there, or a new one with a new id. -/
def OpenedAs (p : BudgetPolicyRow) (start stop : Time) (currency : String) (db : Db)
    (a : BudgetAccountRow) : Prop :=
  db.accountFor p.id start = some a ∨
    (db.accountFor p.id start = none ∧ db.accountSeq ≤ a.id ∧
      a = ⟨a.id, p.id, start, stop, currency, p.limitAmount, 0, 0, 0⟩)

/-- **What a successful reservation leaves behind.** -/
structure Reserved (zones : Zones) (now : Time) (t : TenantRow) (req : ReservationRequest)
    (db db' : Db) : Prop where
  reservations : db'.reservations = db.reservations ++ [newReservation now t.id req]
  /-- Every configured scope of the request is debited by the estimate, and no other one. -/
  quotas : db'.quotas = db.quotas.map fun q ↦
    if req.Covers q.scope then { q with balance := q.balance - req.estimate } else q
  /-- On the current account of every policy that applies the estimate is reserved. -/
  accounts : ∀ p ∈ db.policies, p.AppliesTo t req db → ∃ start stop a,
    periodBounds zones now p.period p.timezone = .ok (start, stop) ∧
    OpenedAs p start stop req.currency db a ∧
    db'.accountFor p.id start = some { a with reserved := a.reserved + req.estimate }
  /-- No other account is touched. -/
  otherAccounts : ∀ a : BudgetAccountRow,
    (∀ p ∈ db.policies, p.AppliesTo t req db → ∀ start stop,
      periodBounds zones now p.period p.timezone = .ok (start, stop) →
        (a.policyID, a.periodStart) ≠ (p.id, start)) →
    (a ∈ db'.accounts ↔ a ∈ db.accounts)
  /-- There is exactly one item of the estimate for each configured scope and for the current
  account of each policy that applies. -/
  items : ∃ new, db'.items = db.items ++ new ∧
    (∀ i ∈ new, i.reservationID = req.id ∧ i.reserved = req.estimate ∧ i.held = req.estimate ∧
      i.committed = 0 ∧ i.released = 0) ∧
    (new.map ReservationItem.target).Nodup ∧
    (∀ scope, .quota scope ∈ new.map ReservationItem.target ↔
      req.Covers scope ∧ ∃ q ∈ db.quotas, q.scope = scope) ∧
    (∀ id, .account id ∈ new.map ReservationItem.target ↔
      ∃ p ∈ db.policies, p.AppliesTo t req db ∧ ∃ start stop a,
        periodBounds zones now p.period p.timezone = .ok (start, stop) ∧
        db'.accountFor p.id start = some a ∧ a.id = id)
  rest : db'.tenants = db.tenants ∧ db'.groups = db.groups ∧ db'.applications = db.applications ∧
    db'.apiKeys = db.apiKeys ∧ db'.policies = db.policies ∧ db'.events = db.events ∧
    db'.usageRecords = db.usageRecords

end Db

/-! ## The declarative reading of the queries -/

section Queries

variable {req : ReservationRequest} {db : Db} {t : TenantRow}

theorem mem_quotaScopes {scope : String} : scope ∈ quotaScopes req ↔ req.Covers scope := by
  rw [quotaScopes, (List.perm_insertionSort ..).mem_iff, ReservationRequest.Covers]
  by_cases hg : req.group = "" <;> by_cases hk : req.apiKeyID = "" <;> simp [hg, hk]

theorem tenantIDByName_eq (hdir : db.Directory) (ht : t ∈ db.tenants) :
    db.tenantIDByName t.name = t.id := by
  have hfind : db.tenants.find? (fun t' ↦ t'.name = t.name) = some t :=
    hdir.tenantNames.find_of_mem ht
  rw [Db.tenantIDByName, hfind]
  rfl

theorem groupIDByName_eq (hdir : db.Directory) {g : GroupRow} (hg : g ∈ db.groups) :
    db.groupIDByName g.tenantID g.name = g.id := by
  have hfind : db.groups.find? (fun g' ↦ g'.tenantID = g.tenantID ∧ g'.name = g.name) = some g := by
    have := hdir.groupNames.find_of_mem hg
    simpa only [Table.find, Prod.mk.injEq] using this
  rw [Db.groupIDByName, hfind]
  rfl

theorem groupIDByName_ne_zero {tenantID : Int} {name : String}
    (h : db.groupIDByName tenantID name ≠ 0) :
    ∃ g ∈ db.groups, g.tenantID = tenantID ∧ g.name = name := by
  rw [Db.groupIDByName] at h
  cases hf : db.groups.find? fun g ↦ g.tenantID = tenantID ∧ g.name = name with
  | none =>
    rw [hf] at h
    exact absurd rfl h
  | some g => exact ⟨g, List.mem_of_find?_eq_some hf, by simpa using List.find?_some hf⟩

theorem resolveGroup_ok (hdir : db.Directory) {tenantID groupID : Int} :
    resolveGroup tenantID req.group db = .ok groupID ↔
      (req.group = "" ∧ groupID = 0) ∨
      (req.group ≠ "" ∧ ∃ g ∈ db.groups, g.tenantID = tenantID ∧ g.name = req.group ∧
        groupID = g.id) := by
  rw [resolveGroup]
  split
  · rename_i hg
    constructor
    · intro h
      cases h
      exact .inl ⟨hg, rfl⟩
    · rintro (⟨-, rfl⟩ | ⟨h, -⟩)
      · rfl
      · exact absurd hg h
  · rename_i hg
    split
    · rename_i hzero
      constructor
      · intro h
        cases h
      · rintro (⟨h, -⟩ | ⟨-, g, hgm, rfl, hname, -⟩)
        · exact absurd h hg
        · rw [← hname, groupIDByName_eq hdir hgm] at hzero
          exact absurd hzero (hdir.groupID g hgm)
    · rename_i hne
      constructor
      · intro h
        cases h
        obtain ⟨g, hgm, rfl, hname⟩ := groupIDByName_ne_zero hne
        rw [← hname, groupIDByName_eq hdir hgm, hname]
        exact .inr ⟨hg, g, hgm, rfl, hname, rfl⟩
      · rintro (⟨h, -⟩ | ⟨-, g, hgm, rfl, hname, rfl⟩)
        · exact absurd h hg
        · rw [← hname, groupIDByName_eq hdir hgm]

theorem checkApplication_ok {tenantID : Int} :
    checkApplication tenantID req.applicationID db = .ok () ↔
      ∀ id, req.applicationID = some id →
        ∃ a ∈ db.applications, a.tenantID = tenantID ∧ a.id = id := by
  cases req.applicationID with
  | none => simp [checkApplication]
  | some id => simp [checkApplication]

theorem checkKey_ok {tenantID : Int} :
    checkKey tenantID req.apiKeyID db = .ok () ↔
      (req.apiKeyID ≠ "" → ∃ k ∈ db.apiKeys, k.tenantID = tenantID ∧ k.keyID = req.apiKeyID) := by
  rw [checkKey]
  by_cases hk : req.apiKeyID = ""
  · simp [hk]
  · simp [hk]

theorem checkLegacyGroup_ok :
    checkLegacyGroup req.group db = .ok () ↔
      (req.group ≠ "" → ∀ q ∈ db.quotas, q.scope ≠ legacyGroupScope req.group) := by
  by_cases hg : req.group = ""
  · simp [checkLegacyGroup, hg]
  · simp [checkLegacyGroup, hg, Db.quota, Table.find_eq_none_iff]

/-- No policy refers to the zero that stands for an absent group or application. -/
theorem BudgetPolicyRow.RefersByID.ne_zero {p : BudgetPolicyRow} (h : p.RefersByID)
    (hkind : p.scopeKind = .group ∨ p.scopeKind = .application ∨ p.scopeKind = .applicationEnv) :
    p.scopeRef ≠ toString (0 : Int) := by
  obtain ⟨id, hpos, href⟩ := h hkind
  obtain ⟨n, rfl⟩ := Int.eq_ofNat_of_zero_le hpos.le
  intro hzero
  have hrepr : Nat.repr n = Nat.repr 0 := href.symm.trans hzero
  rw [Nat.repr_eq_ofList_toDigits, Nat.repr_eq_ofList_toDigits, String.ofList_inj] at hrepr
  have hn := congrArg (Nat.ofDigitChars 10 · 0) hrepr
  simp only [Nat.ofDigitChars_toDigits (b := 10) (by decide) (by decide)] at hn
  omega

theorem applicationRef_iff (req : ReservationRequest) {p : BudgetPolicyRow}
    (hzero : p.scopeRef ≠ toString (0 : Int)) :
    p.scopeRef = toString (req.applicationID.getD 0) ↔
      ∃ id, req.applicationID = some id ∧ p.scopeRef = toString id := by
  cases req.applicationID with
  | none => simpa using hzero
  | some id => simp

theorem groupRef_iff (hdir : db.Directory) {p : BudgetPolicyRow} {groupID : Int}
    (hgroup : resolveGroup t.id req.group db = .ok groupID)
    (hzero : p.scopeRef ≠ toString (0 : Int)) :
    p.scopeRef = toString groupID ↔ req.group ≠ "" ∧
      ∃ g ∈ db.groups, g.tenantID = t.id ∧ g.name = req.group ∧ p.scopeRef = toString g.id := by
  rcases (resolveGroup_ok hdir).mp hgroup with ⟨hg, rfl⟩ | ⟨hg, g, hgm, hten, hname, rfl⟩
  · constructor
    · exact fun h ↦ absurd h hzero
    · exact fun h ↦ absurd hg h.1
  · refine ⟨fun h ↦ ⟨hg, g, hgm, hten, hname, h⟩, ?_⟩
    rintro ⟨-, g', hgm', hten', hname', h⟩
    rwa [hdir.groupNames.eq_of_key hgm hgm' (by rw [hten, hten', hname, hname'])]

/-- **The policies the query selects are the ones that apply.** -/
theorem mem_applicablePolicies (hdir : db.Directory) {groupID : Int}
    (hgroup : resolveGroup t.id req.group db = .ok groupID) {p : BudgetPolicyRow} :
    p ∈ applicablePolicies t.id groupID req db ↔ p ∈ db.policies ∧ p.AppliesTo t req db := by
  rw [(applicablePolicies_perm ..).mem_iff, List.mem_filter]
  refine and_congr_right fun hp ↦ ?_
  have hzero := (hdir.scopeRef p hp).ne_zero
  rw [policyApplies, BudgetPolicyRow.AppliesTo, Bool.and_eq_true, Bool.and_eq_true,
    decide_eq_true_eq, and_assoc]
  refine and_congr_right fun _ ↦ and_congr_right fun _ ↦ ?_
  cases hk : p.scopeKind with
  | tenant => simp
  | group => simpa using groupRef_iff hdir hgroup (hzero (.inl hk))
  | application => simpa using applicationRef_iff req (hzero (.inr (.inl hk)))
  | applicationEnv =>
    have := applicationRef_iff req (hzero (.inr (.inr hk)))
    simp only [Bool.and_eq_true, decide_eq_true_eq, this]
    exact and_comm
  | key =>
    simp only [Bool.and_eq_true, decide_eq_true_eq, ne_eq]
    exact and_comm

end Queries

/-! ## The quota loop -/

section Quotas

variable {req : ReservationRequest} {db db' : Db}

/-- What an iteration of the quota loop asks for. -/
def QuotaOk (req : ReservationRequest) (scope : String) (db : Db) : Prop :=
  ∀ q, db.quota scope = some q →
    equalFold q.currency req.currency = true ∧ 0 < q.balance ∧ req.estimate ≤ q.balance

theorem holdQuota_ok_iff {scope : String} :
    (∃ db', holdQuota req db scope = .ok db') ↔ QuotaOk req scope db := by
  constructor
  · rintro ⟨db', h⟩ q hq
    rcases holdQuota_ok h with ⟨hnone, -⟩ | ⟨q', hq', hcur, hpos, hle, -⟩
    · rw [hnone] at hq
      cases hq
    · rw [hq', Option.some.injEq] at hq
      subst hq
      exact ⟨hcur, hpos, hle⟩
  · intro h
    rw [holdQuota]
    cases hq : db.quota scope with
    | none => exact ⟨db, rfl⟩
    | some q =>
      obtain ⟨hcur, hbal⟩ := h q hq
      simp [hcur, hbal]

/-- What an iteration of the quota loop does to the quotas.  A scope that has no row has none to
debit. -/
theorem holdQuota_quotas {scope : String} (h : holdQuota req db scope = .ok db') :
    db'.quotas = Table.modify QuotaRow.scope scope
      (fun q ↦ { q with balance := q.balance - req.estimate }) db.quotas := by
  rcases holdQuota_ok h with ⟨hnone, rfl⟩ | ⟨q, -, -, -, -, rfl⟩
  · exact (Table.modify_of_absent (Table.find_eq_none_iff.mp hnone)).symm
  · rfl

/-- An iteration does not touch what the iteration of another scope looks at. -/
theorem holdQuota_quotaOk {scope scope' : String} (hne : scope ≠ scope')
    (h : holdQuota req db scope = .ok db') : QuotaOk req scope' db' ↔ QuotaOk req scope' db := by
  have hsame : db'.quota scope' = db.quota scope' := by
    rw [Db.quota, holdQuota_quotas h, Table.find_modify_of_ne (by intro; rfl) (Ne.symm hne),
      Db.quota]
  rw [QuotaOk, hsame, QuotaOk]

/-- **The quota loop succeeds iff every scope does at the start.** -/
theorem holdQuotas_ok_iff {scopes : List String} (hnodup : scopes.Nodup) :
    (∃ db', scopes.foldlM (holdQuota req) db = .ok db') ↔
      ∀ scope ∈ scopes, QuotaOk req scope db :=
  Loop.foldlM_ok_iff (I := fun _ ↦ True) (fun _ _ _ _ ↦ holdQuota_ok_iff)
    (fun _ _ _ _ _ _ ↦ trivial) (hnodup.imp fun hne _ _ _ ↦ holdQuota_quotaOk hne) trivial

/-- The items a loop adds: each holds the estimate, and `targets` is what they are on. -/
def Db.NewItems (req : ReservationRequest) (db db' : Db) (targets : Target → Prop) : Prop :=
  ∃ new, db'.items = db.items ++ new ∧
    (∀ i ∈ new, i.reservationID = req.id ∧ i.reserved = req.estimate ∧ i.held = req.estimate ∧
      i.committed = 0 ∧ i.released = 0) ∧
    ∀ target, target ∈ new.map ReservationItem.target ↔ targets target

theorem Db.NewItems.none (h : db'.items = db.items) : Db.NewItems req db db' fun _ ↦ False :=
  ⟨[], by simp [h], by simp, by simp⟩

theorem Db.NewItems.one (id : Int) {target : Target}
    (h : db'.items = db.items ++ [⟨id, req.id, target, req.estimate, req.estimate, 0, 0⟩]) :
    Db.NewItems req db db' fun target' ↦ target' = target :=
  ⟨_, h, by simp, by simp⟩

theorem Db.NewItems.trans {db'' : Db} {targets targets' : Target → Prop}
    (h : Db.NewItems req db db' targets) (h' : Db.NewItems req db' db'' targets') :
    Db.NewItems req db db'' fun target ↦ targets target ∨ targets' target := by
  obtain ⟨new, heq, hnew, htargets⟩ := h
  obtain ⟨new', heq', hnew', htargets'⟩ := h'
  refine ⟨new ++ new', ?_, fun i hi ↦ ?_, fun target ↦ ?_⟩
  · rw [heq', heq, List.append_assoc]
  · rcases List.mem_append.mp hi with hi | hi
    · exact hnew i hi
    · exact hnew' i hi
  · rw [List.map_append, List.mem_append, htargets, htargets']

theorem Db.NewItems.congr {targets targets' : Target → Prop} (h : Db.NewItems req db db' targets)
    (hiff : ∀ target, targets target ↔ targets' target) : Db.NewItems req db db' targets' := by
  obtain ⟨new, heq, hnew, htargets⟩ := h
  exact ⟨new, heq, hnew, fun target ↦ (htargets target).trans (hiff target)⟩

/-- What the quota loop leaves behind. -/
structure QuotasDebited (req : ReservationRequest) (scopes : List String) (db db' : Db) :
    Prop where
  quotas : db'.quotas = db.quotas.map fun q ↦
    if q.scope ∈ scopes then { q with balance := q.balance - req.estimate } else q
  items : Db.NewItems req db db' fun target ↦
    ∃ scope ∈ scopes, (db.quota scope).isSome ∧ target = .quota scope
  rest : db' = { db with quotas := db'.quotas, items := db'.items, itemSeq := db'.itemSeq }

theorem holdQuota_debited {scope : String} (h : holdQuota req db scope = .ok db') :
    Db.NewItems req db db' (fun target ↦ (db.quota scope).isSome ∧ target = .quota scope) ∧
      db' = { db with quotas := db'.quotas, items := db'.items, itemSeq := db'.itemSeq } := by
  rcases holdQuota_ok h with ⟨hnone, rfl⟩ | ⟨q, hq, -, -, -, rfl⟩
  · exact ⟨(Db.NewItems.none rfl).congr (by simp [hnone]), rfl⟩
  · exact ⟨(Db.NewItems.one db.itemSeq (by rfl)).congr (by simp [hq]), rfl⟩

theorem quotasDebited {scopes : List String} (hnodup : scopes.Nodup)
    (h : scopes.foldlM (holdQuota req) db = .ok db') : QuotasDebited req scopes db db' := by
  induction scopes generalizing db with
  | nil =>
    rw [List.foldlM_nil] at h
    cases h
    exact ⟨by simp, (Db.NewItems.none rfl).congr (by simp), rfl⟩
  | cons scope rest ih =>
    rw [List.foldlM_cons] at h
    obtain ⟨db₁, hstep, hloop⟩ := Loop.bind_eq_ok.mp h
    obtain ⟨hscope, hrest⟩ := List.nodup_cons.mp hnodup
    obtain ⟨hquotas, hitems, hsame⟩ := ih hrest hloop
    obtain ⟨hitem, hsame₁⟩ := holdQuota_debited hstep
    have hsome : ∀ scope', (db₁.quota scope').isSome = (db.quota scope').isSome := by
      intro scope'
      rw [Db.quota, holdQuota_quotas hstep, Table.find_modify (by intro; rfl), Option.isSome_map]
      rfl
    refine ⟨?_, ?_, ?_⟩
    · rw [hquotas, holdQuota_quotas hstep, Table.modify, List.map_map]
      refine List.map_congr_left fun q _ ↦ ?_
      by_cases hq : q.scope = scope
      · simp [hq, hscope]
      · simp [hq]
    · refine (hitem.trans hitems).congr fun target ↦ ?_
      simp only [hsome, List.mem_cons]
      constructor
      · rintro (⟨hsome, rfl⟩ | ⟨scope', hmem, hsome, rfl⟩)
        · exact ⟨scope, .inl rfl, hsome, rfl⟩
        · exact ⟨scope', .inr hmem, hsome, rfl⟩
      · rintro ⟨scope', rfl | hmem, hsome, rfl⟩
        · exact .inl ⟨hsome, rfl⟩
        · exact .inr ⟨scope', hmem, hsome, rfl⟩
    · rw [hsame, hsame₁]

end Quotas

/-! ## The budget loop -/

section Budgets

variable {zones : Zones} {now : Time} {req : ReservationRequest} {p : BudgetPolicyRow} {db db' : Db}

/-- What an iteration of the budget loop asks for. -/
def BudgetOk (zones : Zones) (now : Time) (req : ReservationRequest) (p : BudgetPolicyRow)
    (db : Db) : Prop :=
  p.currency = req.currency ∧ ∃ start stop,
    periodBounds zones now p.period p.timezone = .ok (start, stop) ∧ start < stop ∧
    (p.mode = .soft ∨ (0 < db.availableAt p start ∧ req.estimate ≤ db.availableAt p start)) ∧
    Bigint.Fits (db.reservedAt p start + req.estimate)

theorem accountFor_eq_find (policyID : Int) (start : Time) (db : Db) :
    db.accountFor policyID start =
      Table.find (fun a : BudgetAccountRow ↦ (a.policyID, a.periodStart)) (policyID, start)
        db.accounts := by
  simp only [Db.accountFor, Table.find, Prod.mk.injEq]

/-- An account is the one its policy and its period name. -/
theorem Db.WF.mem_accounts_iff (hwf : db.WF) {a : BudgetAccountRow} :
    a ∈ db.accounts ↔ db.accountFor a.policyID a.periodStart = some a := by
  rw [accountFor_eq_find, hwf.accountPeriods.find_eq_some_iff]
  simp

theorem accountFor_insertAccount (row : BudgetAccountRow) (policyID : Int) (start : Time) :
    (db.insertAccount row).accountFor policyID start =
      (db.accountFor policyID start).or
        (if (row.policyID, row.periodStart) = (policyID, start) then some row else none) := by
  rw [accountFor_eq_find, accountFor_eq_find, Db.insertAccount_accounts, Table.find_append]
  congr 1
  simp [Table.find, List.find?_cons]
  split <;> simp_all

/-- Reserving on an account is seen by whoever looks that account up, and by nobody else. -/
theorem accountFor_reserve (ids : Table.Keyed BudgetAccountRow.id db.accounts)
    {a : BudgetAccountRow} (ha : a ∈ db.accounts) (policyID : Int) (start : Time) (amount : Int) :
    (db.modifyAccount a.id fun a ↦ { a with reserved := a.reserved + amount }).accountFor
        policyID start =
      if db.accountFor policyID start = some a then some { a with reserved := a.reserved + amount }
      else db.accountFor policyID start := by
  rw [accountFor_eq_find, Db.modifyAccount_accounts, Table.modify, Table.find_map,
    ← accountFor_eq_find]
  · cases hb : db.accountFor policyID start with
    | none => simp
    | some b =>
      obtain ⟨hbm, -⟩ := Db.mem_of_accountFor hb
      rw [Option.map_some]
      by_cases hid : b.id = a.id
      · obtain rfl := ids.eq_of_key hbm ha hid
        simp
      · have hne : b ≠ a := fun h ↦ hid (congrArg _ h)
        simp [hid, hne]
  · intro b
    split <;> rfl

/-- The identity column of the accounts. -/
structure AccountIDs (db : Db) : Prop where
  keyed : Table.Keyed BudgetAccountRow.id db.accounts
  below : ∀ a ∈ db.accounts, a.id < db.accountSeq

/-- What an iteration of the budget loop leaves behind. -/
structure BudgetReserved (zones : Zones) (now : Time) (req : ReservationRequest)
    (p : BudgetPolicyRow) (start stop : Time) (a : BudgetAccountRow) (db db' : Db) : Prop where
  bounds : periodBounds zones now p.period p.timezone = .ok (start, stop)
  opened : Db.OpenedAs p start stop req.currency db a
  account : db'.accountFor p.id start = some { a with reserved := a.reserved + req.estimate }
  others : ∀ policyID start', (policyID, start') ≠ (p.id, start) →
    db'.accountFor policyID start' = db.accountFor policyID start'
  items : Db.NewItems req db db' fun target ↦ target = .account a.id
  ids : AccountIDs db'
  seq : db.accountSeq ≤ db'.accountSeq
  rest : db' = { db with accounts := db'.accounts, accountSeq := db'.accountSeq,
                         items := db'.items, itemSeq := db'.itemSeq }

theorem AccountIDs.reserve (h : AccountIDs db) (id amount : Int) :
    AccountIDs (db.modifyAccount id fun a ↦ { a with reserved := a.reserved + amount }) := by
  refine ⟨h.keyed.modify (by intro; rfl), fun a ha ↦ ?_⟩
  obtain ⟨a₀, ha₀, rfl⟩ := Table.mem_modify.mp ha
  have := h.below a₀ ha₀
  split <;> exact this

theorem AccountIDs.open (h : AccountIDs db) {row : BudgetAccountRow}
    (hid : row.id = db.accountSeq) :
    AccountIDs (db.insertAccount row) := by
  refine ⟨h.keyed.append fun a ha ↦ ?_, fun a ha ↦ ?_⟩
  · have := h.below a ha
    omega
  · rw [Db.insertAccount_accounts, List.mem_append, List.mem_singleton] at ha
    rw [Db.insertAccount_accountSeq]
    rcases ha with ha | rfl
    · have := h.below a ha
      omega
    · omega

/-- Opening the account of a policy. -/
theorem openAccount_opened {start stop : Time} (hids : AccountIDs db)
    (h : openAccount p start stop req.currency db = .ok db') :
    ∃ a, Db.OpenedAs p start stop req.currency db a ∧ db'.accountFor p.id start = some a ∧
      (∀ policyID start', (policyID, start') ≠ (p.id, start) →
        db'.accountFor policyID start' = db.accountFor policyID start') ∧
      AccountIDs db' ∧ db.accountSeq ≤ db'.accountSeq ∧
      db' = { db with accounts := db'.accounts, accountSeq := db'.accountSeq } := by
  rcases (openAccount_ok h).2 with ⟨⟨a, ha⟩, rfl⟩ | ⟨hnone, rfl⟩
  · exact ⟨a, .inl ha, ha, fun _ _ _ ↦ rfl, hids, le_refl _, rfl⟩
  · refine ⟨⟨db.accountSeq, p.id, start, stop, req.currency, p.limitAmount, 0, 0, 0⟩,
      .inr ⟨hnone, ?_, rfl⟩, ?_, fun policyID start' hne ↦ ?_, hids.open rfl, ?_, rfl⟩
    · exact le_refl _
    · rw [accountFor_insertAccount, hnone, if_pos rfl]
      rfl
    · rw [accountFor_insertAccount, if_neg (Ne.symm hne), Option.or_none]
    · rw [Db.insertAccount_accountSeq]
      omega

/-- **One iteration of the budget loop.** -/
theorem holdBudget_reserved (hids : AccountIDs db)
    (h : holdBudget zones now req db p = .ok db') :
    ∃ start stop a, BudgetReserved zones now req p start stop a db db' := by
  obtain ⟨-, start, stop, db₁, hbounds, hopen, hres⟩ := holdBudget_ok h
  obtain ⟨a, hopened, ha, hothers, hids₁, hseq, hrest⟩ := openAccount_opened hids hopen
  obtain ⟨a', ha', -, -, rfl⟩ := reserveAccount_ok hres
  rw [ha, Option.some.injEq] at ha'
  subst ha'
  obtain ⟨hmem, -⟩ := Db.mem_of_accountFor ha
  obtain ⟨hkeyed, hbelow⟩ := hids₁.reserve a.id req.estimate
  refine ⟨start, stop, a, hbounds, hopened, ?_, fun policyID start' hne ↦ ?_, ?_,
    ⟨hkeyed, hbelow⟩, hseq, ?_⟩
  · exact (accountFor_reserve hids₁.keyed hmem _ _ _).trans (if_pos ha)
  · refine (accountFor_reserve hids₁.keyed hmem _ _ _).trans ?_
    rw [if_neg, hothers policyID start' hne]
    intro ha'
    obtain ⟨-, hpol, hst⟩ := Db.mem_of_accountFor ha
    obtain ⟨-, hpol', hst'⟩ := Db.mem_of_accountFor ha'
    exact hne (by rw [← hpol, ← hst, hpol', hst'])
  · refine Db.NewItems.one db₁.itemSeq ?_
    rw [hrest]
    rfl
  · rw [hrest]
    rfl

theorem Db.OpenedAs.available {start stop : Time} {currency : String} {a : BudgetAccountRow}
    (h : Db.OpenedAs p start stop currency db a) :
    a.available = db.availableAt p start ∧ a.reserved = db.reservedAt p start := by
  rw [Db.availableAt, Db.reservedAt]
  rcases h with ha | ⟨hnone, -, ha⟩
  · rw [ha]
    exact ⟨rfl, rfl⟩
  · rw [hnone, ha]
    exact ⟨by simp [BudgetAccountRow.available], rfl⟩

theorem holdBudget_ok_iff (hids : AccountIDs db) :
    (∃ db', holdBudget zones now req db p = .ok db') ↔ BudgetOk zones now req p db := by
  constructor
  · rintro ⟨db', h⟩
    obtain ⟨hcur, start, stop, db₁, hbounds, hopen, hres⟩ := holdBudget_ok h
    obtain ⟨a, hopened, ha, -⟩ := openAccount_opened hids hopen
    obtain ⟨a', ha', hadmits, hfits, -⟩ := reserveAccount_ok hres
    rw [ha, Option.some.injEq] at ha'
    subst ha'
    obtain ⟨havail, hreserved⟩ := hopened.available
    rw [BudgetPolicyRow.Admits, havail] at hadmits
    rw [hreserved] at hfits
    exact ⟨hcur, start, stop, hbounds, (openAccount_ok hopen).1, hadmits, hfits⟩
  · rintro ⟨hcur, start, stop, hbounds, hlt, hadmits, hfits⟩
    obtain ⟨db₁, hopen⟩ : ∃ db₁, openAccount p start stop req.currency db = .ok db₁ := by
      rw [openAccount, if_neg (not_le.mpr hlt)]
      split <;> exact ⟨_, rfl⟩
    obtain ⟨a, hopened, ha, -⟩ := openAccount_opened hids hopen
    obtain ⟨havail, hreserved⟩ := hopened.available
    rw [← havail] at hadmits
    rw [← hreserved] at hfits
    obtain ⟨db', hres⟩ : ∃ db', reserveAccount p req start db₁ = .ok db' := by
      rw [reserveAccount, ha]
      exact ⟨_, (if_pos hadmits).trans (if_pos hfits)⟩
    refine ⟨db', ?_⟩
    rw [holdBudget, if_neg (not_not.mpr hcur), hbounds]
    exact Loop.bind_eq_ok.mpr ⟨(start, stop), rfl, Loop.bind_eq_ok.mpr ⟨db₁, hopen, hres⟩⟩

/-- An iteration does not touch what the iteration of another policy looks at. -/
theorem holdBudget_budgetOk (hids : AccountIDs db) {p' : BudgetPolicyRow} (hne : p.id ≠ p'.id)
    (h : holdBudget zones now req db p = .ok db') :
    BudgetOk zones now req p' db' ↔ BudgetOk zones now req p' db := by
  obtain ⟨start', stop, a, hres⟩ := holdBudget_reserved hids h
  have hsame : ∀ start, db'.accountFor p'.id start = db.accountFor p'.id start :=
    fun start ↦ hres.others _ _ fun he ↦ hne (congrArg Prod.fst he).symm
  simp only [BudgetOk, Db.availableAt, Db.reservedAt, hsame]

/-- **The budget loop succeeds iff every policy admits the request at the start.** -/
theorem holdBudgets_ok_iff {policies : List BudgetPolicyRow} (hids : AccountIDs db)
    (hnodup : (policies.map BudgetPolicyRow.id).Nodup) :
    (∃ db', policies.foldlM (holdBudget zones now req) db = .ok db') ↔
      ∀ p ∈ policies, BudgetOk zones now req p db := by
  refine Loop.foldlM_ok_iff (I := AccountIDs) (fun _ _ _ ↦ holdBudget_ok_iff) ?_ ?_ hids
  · intro p _ db db' hids h
    obtain ⟨start, stop, a, hres⟩ := holdBudget_reserved hids h
    exact hres.ids
  · rw [List.Nodup, List.pairwise_map] at hnodup
    exact hnodup.imp fun hne db db' hids ↦ holdBudget_budgetOk hids hne

/-- What the budget loop leaves behind. -/
structure BudgetsReserved (zones : Zones) (now : Time) (req : ReservationRequest)
    (policies : List BudgetPolicyRow) (db db' : Db) : Prop where
  accounts : ∀ p ∈ policies, ∃ start stop a,
    periodBounds zones now p.period p.timezone = .ok (start, stop) ∧
    Db.OpenedAs p start stop req.currency db a ∧
    db'.accountFor p.id start = some { a with reserved := a.reserved + req.estimate }
  others : ∀ policyID start', (∀ p ∈ policies, ∀ start stop,
      periodBounds zones now p.period p.timezone = .ok (start, stop) →
        (policyID, start') ≠ (p.id, start)) →
    db'.accountFor policyID start' = db.accountFor policyID start'
  items : Db.NewItems req db db' fun target ↦ ∃ p ∈ policies, ∃ start stop a,
    periodBounds zones now p.period p.timezone = .ok (start, stop) ∧
    db'.accountFor p.id start = some a ∧ target = .account a.id
  rest : db' = { db with accounts := db'.accounts, accountSeq := db'.accountSeq,
                         items := db'.items, itemSeq := db'.itemSeq }

theorem budgetsReserved {policies : List BudgetPolicyRow} (hids : AccountIDs db)
    (hnodup : (policies.map BudgetPolicyRow.id).Nodup)
    (h : policies.foldlM (holdBudget zones now req) db = .ok db') :
    BudgetsReserved zones now req policies db db' := by
  induction policies generalizing db with
  | nil =>
    rw [List.foldlM_nil] at h
    cases h
    exact ⟨by simp, fun _ _ _ ↦ rfl, (Db.NewItems.none rfl).congr (by simp), rfl⟩
  | cons p ps ih =>
    rw [List.foldlM_cons] at h
    obtain ⟨db₁, hstep, hloop⟩ := Loop.bind_eq_ok.mp h
    obtain ⟨hp, hps⟩ := List.nodup_cons.mp hnodup
    obtain ⟨start, stop, a, hres⟩ := holdBudget_reserved hids hstep
    obtain ⟨haccounts, hothers, hitems, hrest⟩ := ih hres.ids hps hloop
    have hne : ∀ p' ∈ ps, p'.id ≠ p.id := fun p' hp' he ↦ hp (List.mem_map.mpr ⟨p', hp', he⟩)
    -- the accounts of `p` are not touched by the rest of the loop
    have hkeep : ∀ start', db'.accountFor p.id start' = db₁.accountFor p.id start' := by
      intro start'
      refine hothers _ _ fun p' hp' _ _ _ he ↦ ?_
      exact hne p' hp' (congrArg Prod.fst he).symm
    refine ⟨?_, ?_, ?_, ?_⟩
    · intro p' hp'
      rcases List.mem_cons.mp hp' with rfl | hp'
      · exact ⟨start, stop, a, hres.bounds, hres.opened, by rw [hkeep, hres.account]⟩
      · obtain ⟨start', stop', a', hbounds, hopened, haccount⟩ := haccounts p' hp'
        have hsame : db₁.accountFor p'.id start' = db.accountFor p'.id start' :=
          hres.others _ _ fun he ↦ hne p' hp' (congrArg Prod.fst he)
        refine ⟨start', stop', a', hbounds, ?_, haccount⟩
        rcases hopened with ha' | ⟨hnone, hseq, ha'⟩
        · exact .inl (hsame ▸ ha')
        · exact .inr ⟨hsame ▸ hnone, hres.seq.trans hseq, ha'⟩
    · intro policyID start' hall
      rw [hothers policyID start' fun p' hp' ↦ hall p' (List.mem_cons_of_mem _ hp')]
      exact hres.others _ _ (hall p (List.mem_cons_self ..) start stop hres.bounds)
    · refine (hres.items.trans hitems).congr fun target ↦ ?_
      constructor
      · rintro (rfl | ⟨p', hp', hrest'⟩)
        · exact ⟨p, List.mem_cons_self .., start, stop, _, hres.bounds,
            (hkeep start).trans hres.account, rfl⟩
        · exact ⟨p', List.mem_cons_of_mem _ hp', hrest'⟩
      · rintro ⟨p', hp', start', stop', a', hbounds, ha', rfl⟩
        rcases List.mem_cons.mp hp' with rfl | hp'
        · left
          rw [hres.bounds] at hbounds
          cases hbounds
          rw [hkeep, hres.account, Option.some.injEq] at ha'
          rw [← ha']
        · exact .inr ⟨p', hp', start', stop', a', hbounds, ha', rfl⟩
    · rw [hrest, hres.rest]

end Budgets

/-! ## The whole transaction -/

section Transaction

variable {zones : Zones} {now : Time} {req : ReservationRequest} {t : TenantRow} {db db' : Db}

theorem quotaOk_iff (hkeyed : Table.Keyed QuotaRow.scope db.quotas) :
    (∀ scope ∈ quotaScopes req, QuotaOk req scope db) ↔
      ∀ q ∈ db.quotas, req.Covers q.scope →
        equalFold q.currency req.currency = true ∧ 0 < q.balance ∧ req.estimate ≤ q.balance := by
  constructor
  · intro h q hq hcovers
    exact h q.scope (mem_quotaScopes.mpr hcovers) q (hkeyed.find_of_mem hq)
  · intro h scope hscope q hq
    obtain ⟨hmem, rfl⟩ := Table.mem_of_find hq
    exact h q hmem (mem_quotaScopes.mp hscope)

theorem budgetOk_iff (hfault : db.NoFault zones now req) (ht : t ∈ db.tenants)
    (hname : t.name = req.tenant) {p : BudgetPolicyRow} (hp : p ∈ db.policies)
    (happlies : p.AppliesTo t req db) :
    BudgetOk zones now req p db ↔
      p.currency = req.currency ∧ (p.mode = .enforce →
        ∀ start stop, periodBounds zones now p.period p.timezone = .ok (start, stop) →
          0 < db.availableAt p start ∧ req.estimate ≤ db.availableAt p start) := by
  obtain ⟨start, stop, hbounds, hlt, hfits⟩ := hfault t ht hname p hp happlies
  refine and_congr_right fun _ ↦ ⟨?_, fun h ↦ ⟨start, stop, hbounds, hlt, ?_, hfits⟩⟩
  · rintro ⟨start', stop', hbounds', -, hadmits, -⟩ hmode start'' stop'' hbounds''
    rw [hbounds'] at hbounds''
    cases hbounds''
    exact hadmits.resolve_left (by simp [hmode])
  · cases hmode : p.mode with
    | soft => exact .inl rfl
    | enforce => exact .inr (h hmode start stop hbounds)

/-- The statements of `reserveFresh`, one by one. -/
theorem reserveFresh_eq_ok {tenantID : Int} :
    reserveFresh zones now tenantID req db = .ok db' ↔
      ∃ groupID db₁, resolveGroup tenantID req.group db = .ok groupID ∧
        checkApplication tenantID req.applicationID db = .ok () ∧
        checkKey tenantID req.apiKeyID db = .ok () ∧ checkLegacyGroup req.group db = .ok () ∧
        (quotaScopes req).foldlM (holdQuota req)
          (db.insertReservation (newReservation now tenantID req)) = .ok db₁ ∧
        (applicablePolicies tenantID groupID req db₁).foldlM (holdBudget zones now req) db₁ =
          .ok db' := by
  constructor
  · intro h
    obtain ⟨groupID, hgroup, h⟩ := Loop.bind_eq_ok.mp h
    obtain ⟨⟨⟩, happ, h⟩ := Loop.bind_eq_ok.mp h
    obtain ⟨⟨⟩, hkey, h⟩ := Loop.bind_eq_ok.mp h
    obtain ⟨⟨⟩, hlegacy, h⟩ := Loop.bind_eq_ok.mp h
    obtain ⟨db₁, hquotas, hbudgets⟩ := Loop.bind_eq_ok.mp h
    exact ⟨groupID, db₁, hgroup, happ, hkey, hlegacy, hquotas, hbudgets⟩
  · rintro ⟨groupID, db₁, hgroup, happ, hkey, hlegacy, hquotas, hbudgets⟩
    refine Loop.bind_eq_ok.mpr ⟨groupID, hgroup, Loop.bind_eq_ok.mpr ⟨(), happ, ?_⟩⟩
    refine Loop.bind_eq_ok.mpr ⟨(), hkey, Loop.bind_eq_ok.mpr ⟨(), hlegacy, ?_⟩⟩
    exact Loop.bind_eq_ok.mpr ⟨db₁, hquotas, hbudgets⟩

/-- The budget loop runs on the policies and the accounts the transaction started with. -/
theorem budgetLoop_ok_iff (hwf : db.WF) (hdir : db.Directory) (hfault : db.NoFault zones now req)
    (ht : t ∈ db.tenants) (hname : t.name = req.tenant) {groupID : Int}
    (hgroup : resolveGroup t.id req.group db = .ok groupID) {db₁ : Db}
    (hquotas : (quotaScopes req).foldlM (holdQuota req)
      (db.insertReservation (newReservation now t.id req)) = .ok db₁) :
    (∃ db', (applicablePolicies t.id groupID req db₁).foldlM (holdBudget zones now req) db₁ =
        .ok db') ↔
      ∀ p ∈ db.policies, p.AppliesTo t req db → p.currency = req.currency ∧ (p.mode = .enforce →
        ∀ start stop, periodBounds zones now p.period p.timezone = .ok (start, stop) →
          0 < db.availableAt p start ∧ req.estimate ≤ db.availableAt p start) := by
  obtain ⟨-, -, hrest⟩ := quotasDebited (quotaScopes_nodup req) hquotas
  have hsel : applicablePolicies t.id groupID req db₁ = applicablePolicies t.id groupID req db := by
    rw [hrest]
    rfl
  have haccounts : db₁.accounts = db.accounts := by
    rw [hrest]
    rfl
  have hids : AccountIDs db₁ := by
    rw [hrest]
    exact ⟨hwf.accounts, hwf.accountSeq⟩
  have hnodup : ((applicablePolicies t.id groupID req db).map BudgetPolicyRow.id).Nodup := by
    rw [((applicablePolicies_perm ..).map _).nodup_iff]
    exact hwf.policies.sublist ((List.filter_sublist ..).map _)
  have hsame : ∀ p, BudgetOk zones now req p db₁ ↔ BudgetOk zones now req p db := by
    intro p
    simp only [BudgetOk, Db.availableAt, Db.reservedAt, Db.accountFor, haccounts]
  rw [hsel, holdBudgets_ok_iff hids hnodup]
  constructor
  · intro h p hp happlies
    exact (budgetOk_iff hfault ht hname hp happlies).mp
      ((hsame p).mp (h p ((mem_applicablePolicies hdir hgroup).mpr ⟨hp, happlies⟩)))
  · intro h p hp
    obtain ⟨hmem, happlies⟩ := (mem_applicablePolicies hdir hgroup).mp hp
    exact (hsame p).mpr ((budgetOk_iff hfault ht hname hmem happlies).mpr (h p hmem happlies))

/-- **A fresh reservation succeeds iff the request is reservable.** -/
theorem reserveFresh_ok_iff (hwf : db.WF) (hdir : db.Directory)
    (hfault : db.NoFault zones now req) (ht : t ∈ db.tenants) (hname : t.name = req.tenant) :
    (∃ db', reserveFresh zones now t.id req db = .ok db') ↔ db.Reservable zones now t req := by
  have hquota : (∃ db₁, (quotaScopes req).foldlM (holdQuota req)
      (db.insertReservation (newReservation now t.id req)) = .ok db₁) ↔ _ :=
    (holdQuotas_ok_iff (quotaScopes_nodup req)).trans (quotaOk_iff hwf.quotas)
  constructor
  · rintro ⟨db', h⟩
    obtain ⟨groupID, db₁, hgroup, happ, hkey, hlegacy, hquotas, hbudgets⟩ := reserveFresh_eq_ok.mp h
    refine ⟨⟨ht, hname⟩, ?_, checkApplication_ok.mp happ, checkKey_ok.mp hkey,
      checkLegacyGroup_ok.mp hlegacy, hquota.mp ⟨db₁, hquotas⟩,
      (budgetLoop_ok_iff hwf hdir hfault ht hname hgroup hquotas).mp ⟨db', hbudgets⟩⟩
    intro hg
    rcases (resolveGroup_ok hdir).mp hgroup with ⟨h, -⟩ | ⟨-, g, hgm, hten, hgname, -⟩
    · exact absurd h hg
    · exact ⟨g, hgm, hten, hgname⟩
  · intro h
    obtain ⟨groupID, hgroup⟩ : ∃ groupID, resolveGroup t.id req.group db = .ok groupID := by
      by_cases hg : req.group = ""
      · exact ⟨0, (resolveGroup_ok hdir).mpr (.inl ⟨hg, rfl⟩)⟩
      · obtain ⟨g, hgm, hten, hgname⟩ := h.group hg
        exact ⟨g.id, (resolveGroup_ok hdir).mpr (.inr ⟨hg, g, hgm, hten, hgname, rfl⟩)⟩
    obtain ⟨db₁, hquotas⟩ := hquota.mpr h.quotas
    obtain ⟨db', hbudgets⟩ :=
      (budgetLoop_ok_iff hwf hdir hfault ht hname hgroup hquotas).mpr h.budgets
    exact ⟨db', reserveFresh_eq_ok.mpr ⟨groupID, db₁, hgroup, checkApplication_ok.mpr h.application,
      checkKey_ok.mpr h.key, checkLegacyGroup_ok.mpr h.legacy, hquotas, hbudgets⟩⟩

/-- The items of a new reservation are on different targets. -/
theorem newItems_nodup (hwf : db'.WF) {new : List ReservationItem} {id : String}
    (heq : db'.items = db.items ++ new) (hnew : ∀ i ∈ new, i.reservationID = id) :
    (new.map ReservationItem.target).Nodup := by
  have hkeyed : Table.Keyed (fun i : ReservationItem ↦ (i.reservationID, i.target)) new :=
    hwf.itemTargets.sublist (heq ▸ (List.sublist_append_right ..).map _)
  rw [List.nodup_map_iff_inj_on hkeyed.of_map]
  intro i hi j hj htarget
  exact hkeyed.eq_of_key hi hj (by rw [hnew i hi, hnew j hj, htarget])

/-- **What a fresh reservation leaves behind.** -/
theorem reserveFresh_reserved (hwf : db.WF) (hdir : db.Directory) (ht : t ∈ db.tenants)
    (hnew : db.reservation req.id = none) (hcur : validCurrency req.currency = true)
    (h : reserveFresh zones now t.id req db = .ok db') : Db.Reserved zones now t req db db' := by
  have hwf' : db'.WF := (reserveFresh_ok hwf hnew ⟨t, ht, rfl⟩ hcur h).wf
  obtain ⟨groupID, db₁, hgroup, -, -, -, hquotas, hbudgets⟩ := reserveFresh_eq_ok.mp h
  obtain ⟨hdebit, hqitems, hqrest⟩ := quotasDebited (quotaScopes_nodup req) hquotas
  have hids : AccountIDs db₁ := by
    rw [hqrest]
    exact ⟨hwf.accounts, hwf.accountSeq⟩
  have hsel : ∀ p, p ∈ applicablePolicies t.id groupID req db₁ ↔
      p ∈ db.policies ∧ p.AppliesTo t req db := by
    intro p
    rw [hqrest]
    exact mem_applicablePolicies hdir hgroup
  have hnodup : ((applicablePolicies t.id groupID req db₁).map BudgetPolicyRow.id).Nodup := by
    rw [((applicablePolicies_perm ..).map _).nodup_iff, hqrest]
    exact hwf.policies.sublist ((List.filter_sublist ..).map _)
  obtain ⟨haccounts, hothers, hbitems, hbrest⟩ := budgetsReserved hids hnodup hbudgets
  have hfor : ∀ policyID start, db₁.accountFor policyID start = db.accountFor policyID start := by
    intro policyID start
    rw [hqrest]
    rfl
  have hopened : ∀ p start stop a, Db.OpenedAs p start stop req.currency db₁ a →
      Db.OpenedAs p start stop req.currency db a := by
    intro p start stop a hopened
    rw [hqrest] at hopened
    exact hopened
  obtain ⟨new, hitems, hall, htargets⟩ := hqitems.trans hbitems
  refine ⟨?_, ?_, ?_, ?_, ⟨new, hitems, hall, ?_, ?_, ?_⟩, ?_⟩
  · rw [hbrest, hqrest]
    rfl
  · have hquotas' : db'.quotas = db₁.quotas := by rw [hbrest]
    rw [hquotas', hdebit]
    refine List.map_congr_left fun q _ ↦ ?_
    simp only [mem_quotaScopes]
  · intro p hp happlies
    obtain ⟨start, stop, a, hbounds, hopen, haccount⟩ := haccounts p ((hsel p).mpr ⟨hp, happlies⟩)
    exact ⟨start, stop, a, hbounds, hopened p start stop a hopen, haccount⟩
  · intro a hne
    rw [hwf'.mem_accounts_iff, hwf.mem_accounts_iff, hothers, hfor]
    intro p hp
    obtain ⟨hmem, happlies⟩ := (hsel p).mp hp
    exact hne p hmem happlies
  · exact newItems_nodup hwf' hitems fun i hi ↦ (hall i hi).1
  · intro scope
    rw [htargets]
    constructor
    · rintro (⟨scope', hscope, hsome, heq⟩ | ⟨p, -, start, stop, a, -, -, heq⟩)
      · cases heq
        exact ⟨mem_quotaScopes.mp hscope, Table.find_isSome_iff.mp hsome⟩
      · cases heq
    · rintro ⟨hcovers, hsome⟩
      exact .inl ⟨scope, mem_quotaScopes.mpr hcovers, Table.find_isSome_iff.mpr hsome, rfl⟩
  · intro id
    rw [htargets]
    constructor
    · rintro (⟨scope', -, -, heq⟩ | ⟨p, hp, start, stop, a, hbounds, ha, heq⟩)
      · cases heq
      · cases heq
        obtain ⟨hmem, happlies⟩ := (hsel p).mp hp
        exact ⟨p, hmem, happlies, start, stop, a, hbounds, ha, rfl⟩
    · rintro ⟨p, hp, happlies, start, stop, a, hbounds, ha, rfl⟩
      exact .inr ⟨p, (hsel p).mpr ⟨hp, happlies⟩, start, stop, a, hbounds, ha, rfl⟩
  · rw [hbrest, hqrest]
    exact ⟨rfl, rfl, rfl, rfl, rfl, rfl, rfl⟩

end Transaction

/-! ## Who is billed stays who is billed -/

section Directory

variable {op : Op} {db db' : Db}

theorem Db.Directory.of_shape (h : db.Directory) (hs : db'.shape = db.shape) : db'.Directory := by
  have htenants : db'.shape.tenants = db.shape.tenants := congrArg Db.tenants hs
  have hgroups : db'.shape.groups = db.shape.groups := congrArg Db.groups hs
  have hpolicies : db'.shape.policies = db.shape.policies := congrArg Db.policies hs
  refine ⟨?_, ?_, ?_, fun p hp ↦ ?_⟩
  · exact (htenants ▸ h.tenantNames : Table.Keyed _ db'.shape.tenants)
  · exact (hgroups ▸ h.groupNames : Table.Keyed _ db'.shape.groups)
  · exact (hgroups ▸ h.groupID : ∀ g ∈ db'.shape.groups, g.id ≠ 0)
  · have hmem : p.shape ∈ db.shape.policies := hpolicies ▸ List.mem_map_of_mem hp
    obtain ⟨p₀, hp₀, hshape⟩ := List.mem_map.mp hmem
    have hkind : p₀.shape.scopeKind = p.shape.scopeKind := congrArg _ hshape
    have href : p₀.shape.scopeRef = p.shape.scopeRef := congrArg _ hshape
    intro hp
    have hkind' : p₀.scopeKind = p.scopeKind := hkind
    obtain ⟨id, hpos, hid⟩ := h.scopeRef p₀ hp₀ (hkind' ▸ hp)
    exact ⟨id, hpos, href.symm.trans hid⟩

theorem Effect.directory (hwf : db.WF) (hdir : db.Directory) (h : Effect op db db') :
    db'.Directory := by
  cases h with
  | rows hsame => exact hdir.of_shape hsame.shape
  | settle now row s status db₁ hrow hdue hok hsame hres =>
    have hset := (applyReservation_ok hwf.items hok).of_sameBooks hsame hres
    exact hdir.of_shape hset.shape
  | hold now req tenantID hnew hest hholds =>
    refine hholds.rec_on (P := Db.Directory) ?_
      ⟨hdir.tenantNames, hdir.groupNames, hdir.groupID, hdir.scopeRef⟩
    intro db₁ db₂ _ _ hhold h₁
    obtain ⟨htenants, hgroups⟩ := hhold.owners
    exact ⟨htenants ▸ h₁.tenantNames, hgroups ▸ h₁.groupNames, hgroups ▸ h₁.groupID,
      hhold.policies ▸ h₁.scopeRef⟩
  | policy row hid hlimit heq hcredits happlied href =>
    subst heq
    refine ⟨hdir.tenantNames, hdir.groupNames, hdir.groupID, fun p hp ↦ ?_⟩
    rw [Db.insertPolicy_policies, List.mem_append, List.mem_singleton] at hp
    rcases hp with hp | rfl
    · exact hdir.scopeRef p hp
    · exact href
  | limit tenantID row limit enabled start hrow hlimit heq =>
    subst heq
    exact hdir.of_shape (shape_patched ..)
  | credit scope delta heq =>
    rcases heq with ⟨-, currency, -, rfl⟩ | ⟨-, rfl⟩
    · exact ⟨hdir.tenantNames, hdir.groupNames, hdir.groupID, hdir.scopeRef⟩
    · exact hdir.of_shape (Db.shape_modifyQuota (by intro; rfl))

/-- **What the schema promises about the directory holds throughout.** -/
theorem directory_runOps {zones : Zones} (hinit : db.Initial) (hdir : db.Directory)
    (ops : List Op) : (runOps zones db ops).db.Directory := by
  refine (Run.invariant (I := fun st : State ↦ st.db.WF ∧ st.db.Directory)
    (fun st op hst ↦ ⟨wf_step op hst.1, ?_⟩) ops ⟨hinit.wf, hdir⟩).2
  rcases step_effect zones op hst.1 with h | ⟨h, -⟩
  · rw [h]
    exact hst.2
  · exact h.directory hst.1 hst.2

end Directory

/-! ## The result -/

section Result

variable {zones : Zones} {now : Time} {req v : ReservationRequest} {db db' : Db}

/-- `Reserve` of a request that is well formed. -/
theorem reserve_eq (hvalid : validateRequest req = .ok v) :
    reserve zones now req db =
      if db.tenantIDByName v.tenant = 0 then .error (.notFound "tenant")
      else match db.reservation v.id with
        | some row =>
          if row.tenantID = db.tenantIDByName v.tenant ∧ row.identity = v then .ok db
          else .error .reservationConflict
        | none => reserveFresh zones now (db.tenantIDByName v.tenant) v db := by
  rw [reserve, hvalid]
  rfl

/-- A request of a tenant that is there. -/
theorem reserve_of_tenant (hwf : db.WF) (hdir : db.Directory)
    (hvalid : validateRequest req = .ok v) {t : TenantRow} (ht : t ∈ db.tenants)
    (hname : t.name = v.tenant) :
    reserve zones now req db = match db.reservation v.id with
      | some row =>
        if row.tenantID = t.id ∧ row.identity = v then .ok db else .error .reservationConflict
      | none => reserveFresh zones now t.id v db := by
  have hid : db.tenantIDByName v.tenant = t.id := hname ▸ tenantIDByName_eq hdir ht
  rw [reserve_eq hvalid, hid, if_neg (hwf.tenantID t ht)]

theorem tenant_of_reserve (hvalid : validateRequest req = .ok v)
    (h : reserve zones now req db = .ok db') : ∃ t ∈ db.tenants, t.name = v.tenant := by
  rw [reserve_eq hvalid] at h
  split at h
  · cases h
  · rename_i hne
    obtain ⟨t, ht, -, hname⟩ := tenantIDByName_ne_zero hne
    exact ⟨t, ht, hname⟩

theorem reserve_fresh_ok_iff (hwf : db.WF) (hdir : db.Directory)
    (hvalid : validateRequest req = .ok v) (hfault : db.NoFault zones now v)
    (hnew : db.reservation v.id = none) :
    (∃ db', reserve zones now req db = .ok db') ↔ ∃ t, db.Reservable zones now t v := by
  constructor
  · rintro ⟨db', h⟩
    obtain ⟨t, ht, hname⟩ := tenant_of_reserve hvalid h
    rw [reserve_of_tenant hwf hdir hvalid ht hname, hnew] at h
    exact ⟨t, (reserveFresh_ok_iff hwf hdir hfault ht hname).mp ⟨db', h⟩⟩
  · rintro ⟨t, hres⟩
    obtain ⟨ht, hname⟩ := hres.tenant
    rw [reserve_of_tenant hwf hdir hvalid ht hname, hnew]
    exact (reserveFresh_ok_iff hwf hdir hfault ht hname).mpr hres

theorem reserve_fresh_reserved (hwf : db.WF) (hdir : db.Directory)
    (hvalid : validateRequest req = .ok v) (hnew : db.reservation v.id = none)
    (h : reserve zones now req db = .ok db') :
    ∃ t ∈ db.tenants, t.name = v.tenant ∧ Db.Reserved zones now t v db db' := by
  obtain ⟨t, ht, hname⟩ := tenant_of_reserve hvalid h
  rw [reserve_of_tenant hwf hdir hvalid ht hname, hnew] at h
  obtain ⟨-, -, hcur, -⟩ := validateRequest_ok hvalid
  exact ⟨t, ht, hname, reserveFresh_reserved hwf hdir ht hnew hcur h⟩

theorem reserve_replay (hwf : db.WF) (hdir : db.Directory) (hvalid : validateRequest req = .ok v)
    {t : TenantRow} (ht : t ∈ db.tenants) (hname : t.name = v.tenant) {row : ReservationRow}
    (hrow : db.reservation v.id = some row) (htenant : row.tenantID = t.id)
    (hident : row.identity = v) : reserve zones now req db = .ok db := by
  rw [reserve_of_tenant hwf hdir hvalid ht hname, hrow]
  exact if_pos ⟨htenant, hident⟩

/-- The tenant of a request outlives the reservation. -/
theorem reserve_again (hwf : db.WF) (hdir : db.Directory) (hvalid : validateRequest req = .ok v)
    (h : reserve zones now req db = .ok db') (now' : Time) :
    reserve zones now' req db' = .ok db' := by
  cases hold : db.reservation v.id with
  | some row =>
    obtain ⟨t, ht, hname⟩ := tenant_of_reserve hvalid h
    rw [reserve_of_tenant hwf hdir hvalid ht hname, hold] at h
    dsimp only at h
    split at h
    · rename_i hsame
      cases h
      exact reserve_replay hwf hdir hvalid ht hname hold hsame.1 hsame.2
    · cases h
  | none =>
    have heff : Effect (.reserve now req) db db' := tx_effect hwf h
    obtain ⟨t, ht, hname, hres⟩ := reserve_fresh_reserved hwf hdir hvalid hold h
    have hrow : db'.reservation v.id = some (newReservation now t.id v) := by
      refine (heff.wf hwf).reservations.find_eq_some_iff.mpr ⟨?_, rfl⟩
      rw [hres.reservations]
      exact List.mem_append_right _ (List.mem_singleton_self _)
    have ht' : t ∈ db'.tenants := by
      rw [hres.rest.1]
      exact ht
    exact reserve_replay (heff.wf hwf) (heff.directory hwf hdir) hvalid ht' hname hrow rfl rfl

/-- **`Reserve` is all or nothing, and covers exactly the limits that apply.**

* A request whose id is new succeeds iff it is reservable: its tenant exists and owns its group,
  its application and its key, no legacy group quota is in the way, every configured quota scope of
  the request has its currency and covers the estimate, and every policy that applies has its
  currency and, unless it is soft, covers the estimate on its current account.
* When it succeeds, the estimate is held once on each of them and on nothing else.
* When it fails, nothing changes.
* A replay of a reservation succeeds and changes nothing, at any later time. -/
theorem reserve_all_or_nothing (zones : Zones) (now : Time) (db : Db) (req v : ReservationRequest)
    (hwf : db.WF) (hdir : db.Directory) (hvalid : validateRequest req = .ok v)
    (hfault : db.NoFault zones now v) :
    (db.reservation v.id = none →
      ((∃ db', reserve zones now req db = .ok db') ↔ ∃ t, db.Reservable zones now t v) ∧
      ∀ db', reserve zones now req db = .ok db' →
        ∃ t ∈ db.tenants, t.name = v.tenant ∧ Db.Reserved zones now t v db db') ∧
    (∀ e, reserve zones now req db = .error e →
      commit (reserve zones now req) db = (db, some e)) ∧
    (∀ t ∈ db.tenants, t.name = v.tenant → ∀ row, db.reservation v.id = some row →
      row.tenantID = t.id → row.identity = v →
        commit (reserve zones now req) db = (db, none)) ∧
    (∀ db' now', reserve zones now req db = .ok db' →
      commit (reserve zones now' req) db' = (db', none)) := by
  refine ⟨fun hnew ↦ ⟨?_, fun db' h ↦ ?_⟩, fun e h ↦ ?_, ?_, fun db' now' h ↦ ?_⟩
  · exact reserve_fresh_ok_iff hwf hdir hvalid hfault hnew
  · exact reserve_fresh_reserved hwf hdir hvalid hnew h
  · rw [commit, h]
  · intro t ht hname row hrow htenant hident
    rw [commit, reserve_replay hwf hdir hvalid ht hname hrow htenant hident]
  · rw [commit, reserve_again hwf hdir hvalid h now']

/-- The database of the sample after its policy has been created. -/
def Db.budgeted : Db := (runOps Zones.utc Db.sample (Op.sample.take 1)).db

theorem Db.sample_directory : Db.sample.Directory := by
  constructor <;> simp [Db.sample, Table.Keyed]

theorem Db.budgeted_noFault :
    Db.budgeted.NoFault Zones.utc 0
      { ReservationRequest.sample "a" 3 with priceSnapshot := .value "\x7b\x7d" } := by
  intro t _ _ p hp _
  have hp' : p ∈ [⟨1, 1, "p", .tenant, "", "", .daily, "UTC", "usd", 5, .enforce, [50], true, 1⟩] :=
    hp
  rw [List.mem_singleton] at hp'
  subst hp'
  exact ⟨0, day, by rfl, by decide, by decide⟩

/-- A request of three against a balance of ten and a budget of five is reserved. -/
theorem reserve_all_or_nothing_sample :
    ∃ t, Db.budgeted.Reservable Zones.utc 0 t
      { ReservationRequest.sample "a" 3 with priceSnapshot := .value "\x7b\x7d" } :=
  ((reserve_all_or_nothing Zones.utc 0 Db.budgeted (.sample "a" 3) _ (wf_runOps Db.sample_initial _)
    (directory_runOps Db.sample_initial Db.sample_directory _) (by rfl)
    Db.budgeted_noFault).1 (by decide)).1.mp ⟨_, by rfl⟩

end Result

end Voxeltoad
