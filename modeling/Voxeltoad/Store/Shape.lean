import Mathlib.Tactic.MkIffOfInductiveProp
import Voxeltoad.Store.Machine

/-!
# The shape of the database

Most transactions rewrite counters, states and results, and never a key, an owner or a reference.
`Db.shape` is the part of the database they do not touch: the same tables with the columns that
settling and patching may write blanked out.  Two things hang on it.

* `Db.WF`, the constraints of the schema: primary keys and unique indexes, foreign keys, and what
  the items of a reservation assume about the rows they were taken from.  It only looks at the
  shape (`shape_wf`), so a transaction that keeps the shape keeps it.
* The items of a reservation and the periods of the accounts are part of the shape.  Once
  `Reserve` has returned, what a reservation is charged to is settled.
-/

set_option autoImplicit false

namespace Voxeltoad

/-! ## Blanking out what changes -/

def QuotaRow.shape (q : QuotaRow) : QuotaRow := { q with balance := 0 }

def BudgetPolicyRow.shape (p : BudgetPolicyRow) : BudgetPolicyRow :=
  { p with limitAmount := 0, enabled := false, version := 0 }

def BudgetAccountRow.shape (a : BudgetAccountRow) : BudgetAccountRow :=
  { a with limitAmount := 0, reserved := 0, committed := 0, released := 0 }

def ReservationRow.shape (r : ReservationRow) : ReservationRow :=
  { r with status := .reserved, actual := none, reason := "", version := 0, result := none,
           resultApplied := false, updatedAt := 0 }

def ReservationItem.shape (i : ReservationItem) : ReservationItem :=
  { i with held := 0, committed := 0, released := 0 }

namespace Db

/-- What a settlement cannot change. -/
def shape (db : Db) : Db :=
  { db with
    quotas := db.quotas.map QuotaRow.shape
    policies := db.policies.map BudgetPolicyRow.shape
    accounts := db.accounts.map BudgetAccountRow.shape
    reservations := db.reservations.map ReservationRow.shape
    items := db.items.map ReservationItem.shape
    events := []
    usageRecords := []
    eventSeq := 0 }

/-! ## The constraints of the schema -/

/-- The constraints of the schema. -/
@[mk_iff]
structure WF (db : Db) : Prop where
  /-- Identity columns start at one. -/
  tenantID : ∀ t ∈ db.tenants, t.id ≠ 0
  /-- `PRIMARY KEY (scope)` -/
  quotas : Table.Keyed QuotaRow.scope db.quotas
  /-- The labels of the balances are ASCII text. -/
  quotaLabel : ∀ q ∈ db.quotas, AsciiLabel q.currency
  /-- `PRIMARY KEY (id)` of `budget_policies` -/
  policies : Table.Keyed BudgetPolicyRow.id db.policies
  policySeq : ∀ p ∈ db.policies, p.id < db.policySeq
  /-- `PRIMARY KEY (id)` of `budget_accounts` -/
  accounts : Table.Keyed BudgetAccountRow.id db.accounts
  accountSeq : ∀ a ∈ db.accounts, a.id < db.accountSeq
  /-- `UNIQUE (policy_id, period_start)` -/
  accountPeriods : Table.Keyed (fun a : BudgetAccountRow ↦ (a.policyID, a.periodStart)) db.accounts
  /-- `REFERENCES budget_policies(id)` -/
  accountPolicy : ∀ a ∈ db.accounts, ∃ p ∈ db.policies, p.id = a.policyID
  /-- `PRIMARY KEY (id)` of `billing_reservations` -/
  reservations : Table.Keyed ReservationRow.id db.reservations
  /-- `REFERENCES tenants(id)` -/
  reservationTenant : ∀ r ∈ db.reservations, ∃ t ∈ db.tenants, t.id = r.tenantID
  /-- `PRIMARY KEY (id)` of `billing_reservation_items` -/
  items : Table.Keyed ReservationItem.id db.items
  itemSeq : ∀ i ∈ db.items, i.id < db.itemSeq
  /-- `UNIQUE (reservation_id, quota_scope)` and `UNIQUE (reservation_id, account_id)` -/
  itemTargets : Table.Keyed (fun i : ReservationItem ↦ (i.reservationID, i.target)) db.items
  /-- `REFERENCES billing_reservations(id)` -/
  itemReservation : ∀ i ∈ db.items, ∃ r ∈ db.reservations, r.id = i.reservationID
  /-- The quota of an item is there, and has the currency of the reservation. -/
  itemQuota : ∀ i ∈ db.items, ∀ scope, i.target = .quota scope →
    ∃ q ∈ db.quotas, q.scope = scope ∧
      ∀ r ∈ db.reservations, r.id = i.reservationID → lower q.currency = r.identity.currency
  /-- `REFERENCES budget_accounts(id)` -/
  itemAccount : ∀ i ∈ db.items, ∀ id, i.target = .account id → ∃ a ∈ db.accounts, a.id = id

theorem keyed_map {α β κ : Type*} {key : β → κ} {f : α → β} {t : List α} :
    Table.Keyed key (t.map f) ↔ Table.Keyed (fun r ↦ key (f r)) t := by
  rw [Table.Keyed, Table.Keyed, List.map_map]
  rfl

/-- **The constraints only look at the shape.** -/
theorem shape_wf {db : Db} : db.shape.WF ↔ db.WF := by
  simp [wF_iff, shape, keyed_map, QuotaRow.shape, BudgetPolicyRow.shape, BudgetAccountRow.shape,
    ReservationRow.shape, ReservationItem.shape]

theorem WF.of_shape {db db' : Db} (h : db.WF) (hs : db'.shape = db.shape) : db'.WF := by
  rw [← shape_wf, hs, shape_wf]
  exact h

/-! ## Writes that keep the shape -/

section Writes

variable {db : Db}

theorem shape_modifyQuota {scope : String} {f : QuotaRow → QuotaRow}
    (hf : ∀ q, (f q).shape = q.shape) : (db.modifyQuota scope f).shape = db.shape := by
  simp only [shape, modifyQuota, Table.map_modify hf]

theorem shape_modifyPolicy {id : Int} {f : BudgetPolicyRow → BudgetPolicyRow}
    (hf : ∀ p, (f p).shape = p.shape) : (db.modifyPolicy id f).shape = db.shape := by
  simp only [shape, modifyPolicy, Table.map_modify hf]

theorem shape_modifyAccount {id : Int} {f : BudgetAccountRow → BudgetAccountRow}
    (hf : ∀ a, (f a).shape = a.shape) : (db.modifyAccount id f).shape = db.shape := by
  simp only [shape, modifyAccount, Table.map_modify hf]

theorem shape_modifyReservation {id : String} {f : ReservationRow → ReservationRow}
    (hf : ∀ r, (f r).shape = r.shape) : (db.modifyReservation id f).shape = db.shape := by
  simp only [shape, modifyReservation, Table.map_modify hf]

theorem shape_modifyItem {id : Int} {f : ReservationItem → ReservationItem}
    (hf : ∀ i, (f i).shape = i.shape) : (db.modifyItem id f).shape = db.shape := by
  simp only [shape, modifyItem, Table.map_modify hf]

end Writes

/-! ## Inserts that keep the constraints -/

section Inserts

variable {db : Db}

theorem WF.insertQuota (h : db.WF) {row : QuotaRow} (hnew : db.quota row.scope = none)
    (hlabel : AsciiLabel row.currency) : (db.insertQuota row).WF :=
  { h with
    quotas := h.quotas.append (Table.find_eq_none_iff.mp hnew)
    quotaLabel := List.forall_mem_append.mpr ⟨h.quotaLabel, List.forall_mem_singleton.mpr hlabel⟩
    itemQuota := by
      intro i hi scope ht
      obtain ⟨q, hq, hrest⟩ := h.itemQuota i hi scope ht
      exact ⟨q, List.mem_append_left _ hq, hrest⟩ }

theorem WF.insertPolicy (h : db.WF) {row : BudgetPolicyRow} (hid : row.id = db.policySeq) :
    (db.insertPolicy row).WF :=
  { h with
    policies := h.policies.append fun p hp ↦ by
      have := h.policySeq p hp
      omega
    policySeq := by
      intro p hp
      rw [insertPolicy_policies, List.mem_append, List.mem_singleton] at hp
      rw [insertPolicy_policySeq]
      rcases hp with hp | rfl
      · have := h.policySeq p hp
        omega
      · omega
    accountPolicy := by
      intro a ha
      obtain ⟨p, hp, he⟩ := h.accountPolicy a ha
      exact ⟨p, List.mem_append_left _ hp, he⟩ }

theorem accountFor_eq_none {policyID : Int} {start : Time} :
    db.accountFor policyID start = none ↔
      ∀ a ∈ db.accounts, (a.policyID, a.periodStart) ≠ (policyID, start) := by
  simp [accountFor]

theorem mem_of_accountFor {policyID : Int} {start : Time} {a : BudgetAccountRow}
    (h : db.accountFor policyID start = some a) :
    a ∈ db.accounts ∧ a.policyID = policyID ∧ a.periodStart = start :=
  ⟨List.mem_of_find?_eq_some h, by simpa using List.find?_some h⟩

theorem WF.insertAccount (h : db.WF) {row : BudgetAccountRow} (hid : row.id = db.accountSeq)
    (hnew : db.accountFor row.policyID row.periodStart = none)
    (hpol : ∃ p ∈ db.policies, p.id = row.policyID) : (db.insertAccount row).WF :=
  { h with
    accounts := h.accounts.append fun a ha ↦ by
      have := h.accountSeq a ha
      omega
    accountSeq := by
      intro a ha
      rw [insertAccount_accounts, List.mem_append, List.mem_singleton] at ha
      rw [insertAccount_accountSeq]
      rcases ha with ha | rfl
      · have := h.accountSeq a ha
        omega
      · omega
    accountPeriods := h.accountPeriods.append (accountFor_eq_none.mp hnew)
    accountPolicy := by
      intro a ha
      rw [insertAccount_accounts, List.mem_append, List.mem_singleton] at ha
      rcases ha with ha | rfl
      · exact h.accountPolicy a ha
      · exact hpol
    itemAccount := by
      intro i hi id ht
      obtain ⟨a, ha, he⟩ := h.itemAccount i hi id ht
      exact ⟨a, List.mem_append_left _ ha, he⟩ }

/-- Before a reservation exists, it has no items. -/
theorem WF.no_items (h : db.WF) {id : String} (hnew : db.reservation id = none)
    {i : ReservationItem} (hi : i ∈ db.items) : i.reservationID ≠ id := by
  intro he
  obtain ⟨r, hr, hid⟩ := h.itemReservation i hi
  exact Table.find_eq_none_iff.mp hnew r hr (hid.trans he)

theorem WF.insertReservation (h : db.WF) {row : ReservationRow}
    (hnew : db.reservation row.id = none) (htenant : ∃ t ∈ db.tenants, t.id = row.tenantID) :
    (db.insertReservation row).WF :=
  { h with
    reservations := h.reservations.append (Table.find_eq_none_iff.mp hnew)
    reservationTenant := by
      intro r hr
      rw [insertReservation_reservations, List.mem_append, List.mem_singleton] at hr
      rcases hr with hr | rfl
      · exact h.reservationTenant r hr
      · exact htenant
    itemReservation := by
      intro i hi
      obtain ⟨r, hr, he⟩ := h.itemReservation i hi
      exact ⟨r, List.mem_append_left _ hr, he⟩
    itemQuota := by
      intro i hi scope ht
      obtain ⟨q, hq, he, hcur⟩ := h.itemQuota i hi scope ht
      refine ⟨q, hq, he, fun r hr hid ↦ ?_⟩
      rw [insertReservation_reservations, List.mem_append, List.mem_singleton] at hr
      rcases hr with hr | rfl
      · exact hcur r hr hid
      · exact absurd hid.symm (h.no_items hnew hi) }

/-- What an item of a reservation may be taken from. -/
def TargetOf (reservationID : String) (target : Target) (db : Db) : Prop :=
  match target with
  | .quota scope => ∃ q ∈ db.quotas, q.scope = scope ∧
      ∀ r ∈ db.reservations, r.id = reservationID → lower q.currency = r.identity.currency
  | .account id => ∃ a ∈ db.accounts, a.id = id

theorem WF.insertItem (h : db.WF) {reservationID : String} {target : Target} {estimate : Int}
    (hres : ∃ r ∈ db.reservations, r.id = reservationID)
    (hnew : ∀ i ∈ db.items, i.reservationID = reservationID → i.target ≠ target)
    (htarget : db.TargetOf reservationID target) :
    (db.insertItem reservationID target estimate).WF := by
  have hmem : ∀ i ∈ (db.insertItem reservationID target estimate).items,
      i ∈ db.items ∨ i = ⟨db.itemSeq, reservationID, target, estimate, estimate, 0, 0⟩ := by
    intro i hi
    rw [insertItem_items, List.mem_append, List.mem_singleton] at hi
    exact hi
  exact { h with
    items := h.items.append fun i hi ↦ by
      have := h.itemSeq i hi
      exact fun he ↦ absurd he (by simpa using ne_of_lt this)
    itemSeq := by
      intro i hi
      rw [insertItem_itemSeq]
      rcases hmem i hi with hi | rfl
      · have := h.itemSeq i hi
        omega
      · show db.itemSeq < db.itemSeq + 1
        omega
    itemTargets := h.itemTargets.append fun i hi he ↦
      hnew i hi (Prod.mk.injEq .. ▸ he).1 (Prod.mk.injEq .. ▸ he).2
    itemReservation := by
      intro i hi
      rcases hmem i hi with hi | rfl
      · exact h.itemReservation i hi
      · exact hres
    itemQuota := by
      intro i hi scope ht
      rcases hmem i hi with hi | rfl
      · exact h.itemQuota i hi scope ht
      · have ht' : target = .quota scope := ht
        subst ht'
        exact htarget
    itemAccount := by
      intro i hi id ht
      rcases hmem i hi with hi | rfl
      · exact h.itemAccount i hi id ht
      · have ht' : target = .account id := ht
        subst ht'
        exact htarget }

end Inserts

end Db

theorem closeReservation_shape (now : Time) (s : Settlement) (status : Status)
    (r : ReservationRow) : (closeReservation now s status r).shape = r.shape := by
  rw [closeReservation]
  split <;> rfl

end Voxeltoad
