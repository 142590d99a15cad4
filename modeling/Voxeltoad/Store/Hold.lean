import Mathlib.Logic.Relation
import Voxeltoad.Lib.Loop
import Voxeltoad.Store.Shape

/-!
# What reserving does

A fresh reservation is one new row followed by a sequence of *holds*: the estimate is taken from a
quota, an account is opened, or the estimate is reserved on an account.  `Db.Hold` is one such step
together with everything the source has checked before taking it, and `reserveFresh_ok` says that
whatever `Reserve` does is a sequence of them.  An invariant of the store is kept by `Reserve` once
it is kept by each kind of hold.

Nothing is held twice for one reservation: the scopes of a request differ by their prefixes, and
the accounts by their policies.  `Db.Hold` carries that fact, which is what the two unique indexes
of the item table ask for.
-/

set_option autoImplicit false

namespace Voxeltoad

/-- No item of the reservation is on the target yet. -/
def Db.NotHeld (reservationID : String) (target : Target) (db : Db) : Prop :=
  ∀ i ∈ db.items, i.reservationID = reservationID → i.target ≠ target

/-- Whether a policy admits a request on one of its accounts. -/
def BudgetPolicyRow.Admits (p : BudgetPolicyRow) (a : BudgetAccountRow) (estimate : Int) : Prop :=
  p.mode = .soft ∨ (0 < a.available ∧ estimate ≤ a.available)

/-- One step of the two loops of `Reserve`. -/
inductive Db.Hold (req : ReservationRequest) : Db → Db → Prop
  | quota {db : Db} (q : QuotaRow) (hq : q ∈ db.quotas)
      (hcur : lower q.currency = req.currency)
      (hpos : 0 < q.balance) (hle : req.estimate ≤ q.balance)
      (hnew : db.NotHeld req.id (.quota q.scope)) :
      Hold req db ((db.modifyQuota q.scope fun q ↦
        { q with balance := q.balance - req.estimate }).insertItem
          req.id (.quota q.scope) req.estimate)
  | openAccount {db : Db} (p : BudgetPolicyRow) (start stop : Time) (hp : p ∈ db.policies)
      (hnew : db.accountFor p.id start = none) :
      Hold req db (db.insertAccount
        ⟨db.accountSeq, p.id, start, stop, req.currency, p.limitAmount, 0, 0, 0⟩)
  | account {db : Db} (p : BudgetPolicyRow) (a : BudgetAccountRow) (hp : p ∈ db.policies)
      (ha : a ∈ db.accounts) (hpol : a.policyID = p.id) (hroom : p.Admits a req.estimate)
      (hnew : db.NotHeld req.id (.account a.id)) :
      Hold req db ((db.modifyAccount a.id fun a ↦
        { a with reserved := a.reserved + req.estimate }).insertItem
          req.id (.account a.id) req.estimate)

namespace Db.Hold

variable {req : ReservationRequest} {db db' : Db}

/-! ## What a hold leaves alone -/

theorem reservations (h : Hold req db db') : db'.reservations = db.reservations := by
  cases h <;> rfl

theorem policies (h : Hold req db db') : db'.policies = db.policies := by
  cases h <;> rfl

theorem owners (h : Hold req db db') : db'.tenants = db.tenants ∧ db'.groups = db.groups := by
  cases h <;> exact ⟨rfl, rfl⟩

theorem events (h : Hold req db db') : db'.events = db.events := by
  cases h <;> rfl

theorem usageRecords (h : Hold req db db') : db'.usageRecords = db.usageRecords := by
  cases h <;> rfl

/-- A hold adds at most one item, which holds all it reserves. -/
theorem items (h : Hold req db db') :
    db'.items = db.items ∨
      ∃ target, db'.items =
        db.items ++ [⟨db.itemSeq, req.id, target, req.estimate, req.estimate, 0, 0⟩] := by
  cases h with
  | quota => exact .inr ⟨_, rfl⟩
  | openAccount => exact .inl rfl
  | account => exact .inr ⟨_, rfl⟩

/-- **A hold keeps the constraints of the schema.** -/
theorem wf (h : Hold req db db') (hwf : db.WF)
    (hres : ∃ r ∈ db.reservations, r.id = req.id ∧ r.identity = req) : db'.WF := by
  obtain ⟨r, hr, hid, hident⟩ := hres
  cases h with
  | quota q hq hcur _ _ hnew =>
    have hwf' : (db.modifyQuota q.scope fun q ↦
        { q with balance := q.balance - req.estimate }).WF :=
      hwf.of_shape (Db.shape_modifyQuota (by intro; rfl))
    refine hwf'.insertItem ⟨r, hr, hid⟩ hnew
      ⟨_, Table.mem_modify_of_eq hq rfl, rfl, fun r' hr' hid' ↦ ?_⟩
    rw [hwf.reservations.eq_of_key hr' hr (hid'.trans hid.symm), hident]
    exact hcur
  | openAccount p start stop hp hnew => exact hwf.insertAccount rfl hnew ⟨p, hp, rfl⟩
  | account p a _ ha _ _ hnew =>
    have hwf' : (db.modifyAccount a.id fun a ↦
        { a with reserved := a.reserved + req.estimate }).WF :=
      hwf.of_shape (Db.shape_modifyAccount (by intro; rfl))
    exact hwf'.insertItem ⟨r, hr, hid⟩ hnew ⟨_, Table.mem_modify_of_eq ha rfl, rfl⟩

end Db.Hold

/-- A sequence of holds that starts in a state where the row of the reservation has just been
written. -/
structure Db.Holds (req : ReservationRequest) (db db' : Db) : Prop where
  start : db.WF ∧ ∃ r ∈ db.reservations, r.id = req.id ∧ r.identity = req
  steps : Relation.ReflTransGen (Db.Hold req) db db'

namespace Db.Holds

variable {req : ReservationRequest} {db db' db'' : Db}

theorem tail (h : Holds req db db') (hstep : Hold req db' db'') : Holds req db db'' :=
  ⟨h.start, h.steps.tail hstep⟩

/-- Every state on the way satisfies the constraints of the schema. -/
theorem frame (h : Holds req db db') :
    db'.WF ∧ db'.policies = db.policies ∧ db'.reservations = db.reservations := by
  obtain ⟨⟨hwf, hres⟩, hsteps⟩ := h
  induction hsteps with
  | refl => exact ⟨hwf, rfl, rfl⟩
  | tail _ hlast ih =>
    obtain ⟨hwf₁, hpol₁, hres₁⟩ := ih
    exact ⟨hlast.wf hwf₁ (by rw [hres₁]; exact hres), hlast.policies.trans hpol₁,
      hlast.reservations.trans hres₁⟩

theorem wf (h : Holds req db db') : db'.WF := h.frame.1

theorem policies (h : Holds req db db') : db'.policies = db.policies := h.frame.2.1

theorem reservations (h : Holds req db db') : db'.reservations = db.reservations := h.frame.2.2

/-- **What every hold keeps, a sequence of them keeps.** -/
theorem rec_on {P : Db → Prop} (h : Holds req db db')
    (hstep : ∀ db₁ db₂, db₁.WF → db₁.policies = db.policies → Hold req db₁ db₂ → P db₁ → P db₂)
    (hP : P db) : P db' := by
  obtain ⟨hstart, hsteps⟩ := h
  induction hsteps with
  | refl => exact hP
  | tail hpart hlast ih =>
    have hfirst : Holds req db _ := ⟨hstart, hpart⟩
    exact hstep _ _ hfirst.wf hfirst.policies hlast ih

end Db.Holds

/-! ## The loops -/

section Loops

variable {zones : Zones} {req : ReservationRequest} {db₀ db db' : Db}

/-- The scopes of a request are distinct. -/
theorem quotaScopes_nodup (req : ReservationRequest) : (quotaScopes req).Nodup := by
  rw [quotaScopes, (List.perm_insertionSort ..).nodup_iff]
  have htg := tenantScope_ne_groupScope req.tenant req.tenant req.group
  have htk := tenantScope_ne_keyScope req.tenant req.apiKeyID
  have hgk := groupScope_ne_keyScope req.tenant req.group req.apiKeyID
  by_cases hg : req.group = ""
  · by_cases hk : req.apiKeyID = ""
    · simp [hg, hk]
    · simp [hg, hk, htk]
  · by_cases hk : req.apiKeyID = ""
    · simp [hg, hk, htg]
    · simp [hg, hk, htg, htk, hgk]

theorem holdQuota_ok {scope : String} (h : holdQuota req db scope = .ok db') :
    (db.quota scope = none ∧ db' = db) ∨
    ∃ q, db.quota scope = some q ∧ equalFold q.currency req.currency = true ∧ 0 < q.balance ∧
      req.estimate ≤ q.balance ∧
      db' = (db.modifyQuota scope fun q ↦
        { q with balance := q.balance - req.estimate }).insertItem
          req.id (.quota scope) req.estimate := by
  rw [holdQuota] at h
  split at h
  · rename_i hnone
    cases h
    exact .inl ⟨hnone, rfl⟩
  · rename_i q hq
    split at h
    · cases h
    · rename_i hcur
      split at h
      · rename_i hbal
        cases h
        exact .inr ⟨q, hq, by simpa using hcur, hbal.1, hbal.2, rfl⟩
      · cases h

/-- The invariant of the quota loop.  What is already held is on a quota whose scope is not left to
do. -/
structure Db.QuotasHeld (req : ReservationRequest) (db₀ : Db) (rest : List String) (db : Db) :
    Prop where
  nodup : rest.Nodup
  holds : Db.Holds req db₀ db
  held : ∀ i ∈ db.items, i.reservationID = req.id → ∃ scope, i.target = .quota scope ∧ scope ∉ rest

namespace Db.QuotasHeld

variable {scope : String} {rest : List String}

theorem skip (h : QuotasHeld req db₀ (scope :: rest) db) : QuotasHeld req db₀ rest db := by
  refine ⟨(List.nodup_cons.mp h.nodup).2, h.holds, fun i hi hid ↦ ?_⟩
  obtain ⟨scope', ht, hnot⟩ := h.held i hi hid
  exact ⟨scope', ht, fun hmem ↦ hnot (List.mem_cons_of_mem _ hmem)⟩

/-- The scope whose turn it is has not been held. -/
theorem notHeld (h : QuotasHeld req db₀ (scope :: rest) db) :
    db.NotHeld req.id (.quota scope) := by
  intro i hi hid ht
  obtain ⟨scope', ht', hnot⟩ := h.held i hi hid
  rw [ht] at ht'
  cases ht'
  exact hnot (List.mem_cons_self ..)

/-- One iteration. -/
theorem step (hcur : validCurrency req.currency = true)
    (h : QuotasHeld req db₀ (scope :: rest) db) (hstep : holdQuota req db scope = .ok db') :
    QuotasHeld req db₀ rest db' := by
  rcases holdQuota_ok hstep with ⟨-, rfl⟩ | ⟨q, hq, hc, hpos, hle, rfl⟩
  · exact h.skip
  · obtain ⟨hqmem, rfl⟩ := Table.mem_of_find hq
    have hc' : lower q.currency = req.currency :=
      lower_of_equalFold (h.holds.wf.quotaLabel q hqmem) hcur hc
    refine ⟨h.skip.nodup, h.holds.tail (.quota q hqmem hc' hpos hle h.notHeld), fun i hi hid ↦ ?_⟩
    rw [Db.insertItem_items, List.mem_append, List.mem_singleton] at hi
    rcases hi with hi | rfl
    · exact h.skip.held i hi hid
    · exact ⟨q.scope, rfl, (List.nodup_cons.mp h.nodup).1⟩

end Db.QuotasHeld

/-- The quota loop is a sequence of holds. -/
theorem holdQuotas_ok
    (hstart : db₀.WF ∧ ∃ r ∈ db₀.reservations, r.id = req.id ∧ r.identity = req)
    (hcur : validCurrency req.currency = true)
    (hno : ∀ i ∈ db₀.items, i.reservationID ≠ req.id)
    (h : (quotaScopes req).foldlM (holdQuota req) db₀ = .ok db) :
    Db.Holds req db₀ db ∧
      ∀ i ∈ db.items, i.reservationID = req.id → ∃ scope, i.target = .quota scope := by
  have hfirst : Db.QuotasHeld req db₀ (quotaScopes req) db₀ :=
    ⟨quotaScopes_nodup req, ⟨hstart, .refl⟩, fun i hi hid ↦ absurd hid (hno i hi)⟩
  have hlast : Db.QuotasHeld req db₀ [] db :=
    Loop.foldlM_rec (Db.QuotasHeld req db₀) (fun _ _ _ _ hP ↦ hP.step hcur) h hfirst
  refine ⟨hlast.holds, fun i hi hid ↦ ?_⟩
  obtain ⟨scope, ht, -⟩ := hlast.held i hi hid
  exact ⟨scope, ht⟩

theorem openAccount_ok {p : BudgetPolicyRow} {start stop : Time} {currency : String}
    (h : openAccount p start stop currency db = .ok db') :
    start < stop ∧
      ((∃ a, db.accountFor p.id start = some a) ∧ db' = db ∨
        db.accountFor p.id start = none ∧
          db' = db.insertAccount
            ⟨db.accountSeq, p.id, start, stop, currency, p.limitAmount, 0, 0, 0⟩) := by
  rw [openAccount] at h
  split at h
  · cases h
  · rename_i hlt
    refine ⟨not_le.mp hlt, ?_⟩
    split at h
    · rename_i a ha
      cases h
      exact .inl ⟨⟨a, ha⟩, rfl⟩
    · rename_i hnone
      cases h
      exact .inr ⟨hnone, rfl⟩

theorem reserveAccount_ok {p : BudgetPolicyRow} {start : Time}
    (h : reserveAccount p req start db = .ok db') :
    ∃ a, db.accountFor p.id start = some a ∧ p.Admits a req.estimate ∧
      Bigint.Fits (a.reserved + req.estimate) ∧
      db' = (db.modifyAccount a.id fun a ↦
        { a with reserved := a.reserved + req.estimate }).insertItem
          req.id (.account a.id) req.estimate := by
  rw [reserveAccount] at h
  split at h
  · cases h
  · rename_i a ha
    split at h
    · rename_i hroom
      split at h
      · rename_i hfits
        cases h
        exact ⟨a, ha, hroom, hfits, rfl⟩
      · cases h
    · cases h

theorem holdBudget_ok {now : Time} {p : BudgetPolicyRow}
    (h : holdBudget zones now req db p = .ok db') :
    p.currency = req.currency ∧ ∃ start stop db₁,
      periodBounds zones now p.period p.timezone = .ok (start, stop) ∧
      openAccount p start stop req.currency db = .ok db₁ ∧
      reserveAccount p req start db₁ = .ok db' := by
  rw [holdBudget] at h
  split at h
  · cases h
  · rename_i hcur
    obtain ⟨⟨start, stop⟩, hbounds, h⟩ := Loop.bind_eq_ok.mp h
    obtain ⟨db₁, hopen, h⟩ := Loop.bind_eq_ok.mp h
    exact ⟨not_not.mp hcur, start, stop, db₁, hbounds, hopen, h⟩

theorem applicablePolicies_perm (tenantID groupID : Int) (req : ReservationRequest) (db : Db) :
    (applicablePolicies tenantID groupID req db).Perm
      (db.policies.filter (policyApplies tenantID groupID (req.applicationID.getD 0) req)) :=
  List.perm_insertionSort ..

/-- The invariant of the budget loop.  What is already held is on a quota, or on an account of a
policy that is not left to do. -/
structure Db.BudgetsHeld (req : ReservationRequest) (db₀ : Db) (rest : List BudgetPolicyRow)
    (db : Db) : Prop where
  nodup : (rest.map BudgetPolicyRow.id).Nodup
  policies : ∀ p ∈ rest, p ∈ db₀.policies
  holds : Db.Holds req db₀ db
  held : ∀ i ∈ db.items, i.reservationID = req.id → (∃ scope, i.target = .quota scope) ∨
    ∃ a ∈ db.accounts, i.target = .account a.id ∧ a.policyID ∉ rest.map BudgetPolicyRow.id

namespace Db.BudgetsHeld

variable {p : BudgetPolicyRow} {rest : List BudgetPolicyRow} {start stop : Time}

/-- The policy whose turn it is is one of the table. -/
theorem policy (h : BudgetsHeld req db₀ (p :: rest) db) : p ∈ db.policies := by
  rw [h.holds.policies]
  exact h.policies p (List.mem_cons_self ..)

/-- Opening the account holds nothing. -/
theorem openAccount (h : BudgetsHeld req db₀ (p :: rest) db)
    (hopen : openAccount p start stop req.currency db = .ok db') :
    BudgetsHeld req db₀ (p :: rest) db' := by
  rcases (openAccount_ok hopen).2 with ⟨-, rfl⟩ | ⟨hnone, rfl⟩
  · exact h
  · refine ⟨h.nodup, h.policies, h.holds.tail (.openAccount p start stop h.policy hnone),
      fun i hi hid ↦ ?_⟩
    rcases h.held i hi hid with hq | ⟨a, ha, ht⟩
    · exact .inl hq
    · exact .inr ⟨a, List.mem_append_left _ ha, ht⟩

/-- The account whose turn it is has not been held. -/
theorem notHeld (h : BudgetsHeld req db₀ (p :: rest) db) {a : BudgetAccountRow}
    (ha : a ∈ db.accounts) (hpolicy : a.policyID = p.id) :
    db.NotHeld req.id (.account a.id) := by
  intro i hi hid ht
  rcases h.held i hi hid with ⟨scope, hq⟩ | ⟨a', ha', ht', hnot⟩
  · rw [ht] at hq
    cases hq
  · rw [ht, Target.account.injEq] at ht'
    rw [← h.holds.wf.accounts.eq_of_key ha ha' ht', hpolicy] at hnot
    exact hnot (List.mem_cons_self ..)

/-- Reserving on the account. -/
theorem reserveAccount (h : BudgetsHeld req db₀ (p :: rest) db)
    (hres : reserveAccount p req start db = .ok db') : BudgetsHeld req db₀ rest db' := by
  obtain ⟨hp, hrest⟩ := List.nodup_cons.mp h.nodup
  obtain ⟨a, ha, hroom, -, rfl⟩ := reserveAccount_ok hres
  obtain ⟨hamem, hpolicy, -⟩ := Db.mem_of_accountFor ha
  refine ⟨hrest, fun q hq ↦ h.policies q (List.mem_cons_of_mem _ hq),
    h.holds.tail (.account p a h.policy hamem hpolicy hroom (h.notHeld hamem hpolicy)),
    fun i hi hid ↦ ?_⟩
  rw [Db.insertItem_items, List.mem_append, List.mem_singleton] at hi
  rcases hi with hi | rfl
  · rcases h.held i hi hid with hq | ⟨a', ha', ht', hnot⟩
    · exact .inl hq
    · refine .inr ⟨_, Table.mem_modify.mpr ⟨a', ha', rfl⟩, ?_, ?_⟩
      · rw [ht']
        split <;> rfl
      · intro hmem
        refine hnot (List.mem_cons_of_mem _ ?_)
        split at hmem <;> exact hmem
  · refine .inr ⟨_, Table.mem_modify_of_eq hamem rfl, rfl, ?_⟩
    show a.policyID ∉ _
    rw [hpolicy]
    exact hp

/-- One iteration. -/
theorem step {now : Time} (h : BudgetsHeld req db₀ (p :: rest) db)
    (hstep : holdBudget zones now req db p = .ok db') : BudgetsHeld req db₀ rest db' := by
  obtain ⟨-, start, stop, dbm, -, hopen, hres⟩ := holdBudget_ok hstep
  exact (h.openAccount hopen).reserveAccount hres

end Db.BudgetsHeld

/-- The budget loop is a sequence of holds. -/
theorem holdBudgets_ok {now : Time} {policies : List BudgetPolicyRow}
    (hholds : Db.Holds req db₀ db) (hsub : ∀ p ∈ policies, p ∈ db₀.policies)
    (hnodup : (policies.map BudgetPolicyRow.id).Nodup)
    (hquota : ∀ i ∈ db.items, i.reservationID = req.id → ∃ scope, i.target = .quota scope)
    (h : policies.foldlM (holdBudget zones now req) db = .ok db') : Db.Holds req db₀ db' := by
  have hfirst : Db.BudgetsHeld req db₀ policies db :=
    ⟨hnodup, hsub, hholds, fun i hi hid ↦ .inl (hquota i hi hid)⟩
  have hlast : Db.BudgetsHeld req db₀ [] db' :=
    Loop.foldlM_rec (Db.BudgetsHeld req db₀) (fun _ _ _ _ hP ↦ hP.step) h hfirst
  exact hlast.holds

end Loops

/-! ## The whole transaction -/

section Reserve

variable {zones : Zones} {now : Time} {req : ReservationRequest} {db db' : Db}

theorem validateRequest_ok {req' : ReservationRequest} (h : validateRequest req = .ok req') :
    req'.id = req.id ∧ 0 ≤ req'.estimate ∧ validCurrency req'.currency = true ∧
      req'.id ≠ "" ∧ req'.tenant ≠ "" := by
  rw [validateRequest] at h
  split at h
  · cases h
  · rename_i hok
    simp only [not_or, not_lt] at hok
    obtain ⟨hid, htenant, hest, hcur⟩ := hok
    have hcur : validCurrency (toLower req.currency) = true := by simpa using hcur
    rw [identityOf] at h
    split at h <;> cases h <;> exact ⟨rfl, hest, hcur, hid, htenant⟩

theorem tenantIDByName_ne_zero {name : String} (h : db.tenantIDByName name ≠ 0) :
    ∃ t ∈ db.tenants, t.id = db.tenantIDByName name ∧ t.name = name := by
  rw [Db.tenantIDByName] at h ⊢
  cases hf : db.tenants.find? fun t ↦ t.name = name with
  | none => simp [hf] at h
  | some t => exact ⟨t, List.mem_of_find?_eq_some hf, rfl, by simpa using List.find?_some hf⟩

/-- **What a fresh `Reserve` does when it succeeds**: it writes the row of the reservation, and
then holds. -/
theorem reserveFresh_ok {tenantID : Int} (hwf : db.WF) (hnew : db.reservation req.id = none)
    (htenant : ∃ t ∈ db.tenants, t.id = tenantID) (hcur : validCurrency req.currency = true)
    (h : reserveFresh zones now tenantID req db = .ok db') :
    Db.Holds req (db.insertReservation (newReservation now tenantID req)) db' := by
  obtain ⟨groupID, -, h⟩ := Loop.bind_eq_ok.mp h
  obtain ⟨-, -, h⟩ := Loop.bind_eq_ok.mp h
  obtain ⟨-, -, h⟩ := Loop.bind_eq_ok.mp h
  obtain ⟨-, -, h⟩ := Loop.bind_eq_ok.mp h
  obtain ⟨db₁, hquotas, hbudgets⟩ := Loop.bind_eq_ok.mp h
  have hwf₀ : (db.insertReservation (newReservation now tenantID req)).WF :=
    hwf.insertReservation hnew htenant
  obtain ⟨hholds, hquota⟩ := holdQuotas_ok
    ⟨hwf₀, _, List.mem_append_right _ (List.mem_singleton_self _), rfl, rfl⟩
    hcur (fun i hi ↦ hwf.no_items hnew hi) hquotas
  have hperm := applicablePolicies_perm tenantID groupID req db₁
  refine holdBudgets_ok hholds (fun p hp ↦ ?_) ?_ hquota hbudgets
  · rw [hperm.mem_iff, List.mem_filter, hholds.policies] at hp
    exact hp.1
  · rw [(hperm.map _).nodup_iff]
    exact hholds.wf.policies.sublist ((List.filter_sublist ..).map _)

/-- **What `Reserve` does when it succeeds.** -/
theorem reserve_ok (hwf : db.WF) (h : reserve zones now req db = .ok db') :
    db' = db ∨ ∃ req' tenantID, validateRequest req = .ok req' ∧
      db.reservation req'.id = none ∧
      Db.Holds req' (db.insertReservation (newReservation now tenantID req')) db' := by
  obtain ⟨req', hvalid, h⟩ := Loop.bind_eq_ok.mp h
  obtain ⟨-, -, hcur, -⟩ := validateRequest_ok hvalid
  dsimp only at h
  split at h
  · cases h
  · rename_i htenant
    obtain ⟨t, ht, hid, -⟩ := tenantIDByName_ne_zero htenant
    split at h
    · split at h
      · cases h
        exact .inl rfl
      · cases h
    · rename_i hnone
      exact .inr ⟨req', _, hvalid, hnone, reserveFresh_ok hwf hnone ⟨t, ht, hid⟩ hcur h⟩

end Reserve

end Voxeltoad
