import Voxeltoad.Store.Conservation

/-!
# How far a limit can be exceeded

A reservation is admitted only if its estimate fits, so reserving alone never exceeds a limit,
however many requests race for it.  What can exceed it is the part of an actual charge that its
estimate did not cover.  `excess` adds that part up over the settlements that were applied;
it is read off the history, since by the time a charge has been made the database no longer tells
how much had been held for it.
-/

set_option autoImplicit false

namespace Voxeltoad

/-! ## The excess -/

/-- What one application charged to a target beyond what was held there. -/
def Applied.excess (target : Target) (e : Applied) : Int :=
  if e.status = .settled then
    Table.sumOver (fun i ↦ i.target = target) (fun i ↦ max 0 (e.settlement.actual - i.held)) e.items
  else 0

/-- What was ever charged to a target beyond what was held there. -/
def excess (target : Target) (applied : List Applied) : Int :=
  (applied.map (Applied.excess target)).sum

theorem Applied.excess_nonneg (target : Target) (e : Applied) : 0 ≤ e.excess target := by
  rw [Applied.excess]
  split
  · exact Table.sumOver_nonneg fun i _ _ ↦ le_max_left ..
  · exact le_refl 0

theorem excess_nonneg (target : Target) (applied : List Applied) : 0 ≤ excess target applied := by
  refine List.sum_nonneg fun x hx ↦ ?_
  obtain ⟨e, -, rfl⟩ := List.mem_map.mp hx
  exact e.excess_nonneg target

theorem excess_append (target : Target) (applied applied' : List Applied) :
    excess target (applied ++ applied') = excess target applied + excess target applied' := by
  simp [excess]

theorem excess_singleton (target : Target) (e : Applied) : excess target [e] = e.excess target := by
  simp [excess]

/-- What a settlement charges to a target beyond what was held there is at most its excess. -/
theorem State.Good.overrun_le {st : State} (h : st.Good) {row : ReservationRow} {s : Settlement}
    {status : Status} (hrow : st.db.reservation row.id = some row) (hdue : row.Due s status)
    (target : Target) :
    Table.sumOver (fun i ↦ i.target = target) (fun i ↦ s.actual - i.held) (st.db.itemsOf row.id) ≤
      Applied.excess target ⟨row.id, s, status, st.db.itemsOf row.id⟩ := by
  rw [Applied.excess]
  split
  · exact Table.sumOver_le fun i _ _ ↦ le_max_right ..
  · -- a release charges nothing
    rename_i hne
    have hzero : s.actual = 0 := by
      obtain ⟨hsound, -, hstatus⟩ := ((h.views row.id).rowInv hrow).due hdue
      rcases hstatus with rfl | ⟨-, hz, -⟩
      · rcases hsound.outcome with hk | ⟨-, hz, -⟩
        · exact absurd (by simp [Settlement.status, hk]) hne
        · exact hz
      · exact hz
    refine Table.sumOver_nonpos fun i hi _ ↦ ?_
    have := (h.item_nonneg (mem_itemsOf.mp hi).1).2.1
    omega

/-! ## Budget accounts -/

namespace Db

/-- The policy of an account blocks. -/
def Enforced (a : BudgetAccountRow) (db : Db) : Prop :=
  ∀ p ∈ db.policies, p.id = a.policyID → p.mode = .enforce

/-- The account `id`, if it is enforced, exceeds its limit by the excess at most. -/
def AccountWithin (id : Int) (applied : List Applied) (db : Db) : Prop :=
  ∀ a ∈ db.accounts, a.id = id → db.Enforced a →
    a.committed + a.reserved ≤ a.limitAmount + excess (.account id) applied

/-- The limit of the account `id` is not lowered. -/
def LimitKept (id : Int) (db db' : Db) : Prop :=
  ∀ a ∈ db.accounts, a.id = id → ∀ a' ∈ db'.accounts, a'.id = id → a.limitAmount ≤ a'.limitAmount

instance (a : BudgetAccountRow) (db : Db) : Decidable (db.Enforced a) :=
  inferInstanceAs (Decidable (∀ p ∈ db.policies, _))

instance (id : Int) (db db' : Db) : Decidable (db.LimitKept id db') :=
  inferInstanceAs (Decidable (∀ a ∈ db.accounts, _))

end Db

/-- A policy stays the policy it was when a limit changes. -/
theorem enforced_of_patched {tenantID id limit : Int} {enabled : Bool}
    {account : Option BudgetAccountRow} {db : Db} {a a₀ : BudgetAccountRow}
    (hpol : a.policyID = a₀.policyID)
    (h : (patched tenantID id limit enabled account db).Enforced a) : db.Enforced a₀ := by
  intro p hp hid
  have hpolicies : (patched tenantID id limit enabled account db).policies =
      Table.modify BudgetPolicyRow.id id (fun r ↦
        { r with limitAmount := limit, enabled := enabled, version := r.version + 1 })
        db.policies := by
    rw [(patched_sameButAlerts tenantID id limit enabled account db).policies]
    cases account <;> rfl
  have hmode := h _ (by rw [hpolicies]; exact Table.mem_modify.mpr ⟨p, hp, rfl⟩)
    (by rw [hpol, ← hid]; split <;> rfl)
  split at hmode <;> exact hmode

theorem Effect.limits_nonneg {op : Op} {db db' : Db} (hwf : db.WF) (h : Effect op db db')
    (hpos : ∀ p ∈ db.policies, 0 ≤ p.limitAmount) : ∀ p ∈ db'.policies, 0 ≤ p.limitAmount := by
  cases h with
  | rows hsame => rwa [hsame.policies]
  | settle now row s status db₁ hrow hdue hok hsame hres =>
    rwa [((applyReservation_ok hwf.items hok).of_sameBooks hsame hres).policies]
  | hold now req tenantID hnew hest hholds => rwa [hholds.policies]
  | policy row hid hlimit heq =>
    subst heq
    intro p hp
    rw [Db.insertPolicy_policies, List.mem_append, List.mem_singleton] at hp
    rcases hp with hp | rfl
    · exact hpos p hp
    · exact hlimit
  | limit tenantID row limit enabled start hrow hlimit heq =>
    subst heq
    rw [(patched_sameButAlerts ..).policies]
    have hnonneg : 0 ≤ limit := by
      rcases hlimit with rfl | hl
      · exact hpos row hrow
      · exact hl
    have hmodify : ∀ p ∈ Table.modify BudgetPolicyRow.id row.id (fun r ↦
        { r with limitAmount := limit, enabled := enabled, version := r.version + 1 })
        db.policies, 0 ≤ p.limitAmount := by
      intro p hp
      obtain ⟨p₀, hp₀, rfl⟩ := Table.mem_modify.mp hp
      split
      · exact hnonneg
      · exact hpos p₀ hp₀
    cases db.accountFor row.id start <;> exact hmodify
  | credit scope delta heq =>
    rcases heq with ⟨-, currency, -, rfl⟩ | ⟨-, rfl⟩ <;> exact hpos

section Account

variable {id : Int} {applied : List Applied} {db db' : Db}

/-- Holding stays within the limit. -/
theorem Db.AccountWithin.hold {req : ReservationRequest} (h : db.AccountWithin id applied)
    (hwf : db.WF) (hpos : ∀ p ∈ db.policies, 0 ≤ p.limitAmount) (hstep : Db.Hold req db db') :
    db'.AccountWithin id applied := by
  have hexcess := excess_nonneg (.account id) applied
  cases hstep with
  | quota q => exact h
  | openAccount p start stop hp hnew =>
    intro a ha hid henf
    rw [Db.insertAccount_accounts, List.mem_append, List.mem_singleton] at ha
    rcases ha with ha | rfl
    · exact h a ha hid henf
    · have := hpos p hp
      show (0 : Int) + 0 ≤ p.limitAmount + _
      omega
  | account p a hp ha hpol hroom hnew =>
    intro a' ha' hid henf
    obtain ⟨a₀, ha₀, rfl⟩ := Table.mem_modify.mp ha'
    split at hid
    · rename_i heq
      -- the guard of the update left room for the estimate
      rw [hwf.accounts.eq_of_key ha₀ ha heq] at henf hid ⊢
      rw [if_pos rfl] at henf ⊢
      rcases hroom with hsoft | ⟨-, hle⟩
      · have := henf p hp hpol.symm
        rw [hsoft] at this
        cases this
      · rw [BudgetAccountRow.available] at hle
        show a.committed + (a.reserved + req.estimate) ≤ a.limitAmount + _
        omega
    · rename_i hne
      rw [if_neg hne] at henf ⊢
      exact h a₀ ha₀ hid henf

/-- A settlement takes the account beyond its limit by its excess at most. -/
theorem accountWithin_settle {st : State} (hgood : st.Good) {now : Time} {row : ReservationRow}
    {s : Settlement} {status : Status} (hrow : st.db.reservation row.id = some row)
    (hdue : row.Due s status) (hset : Db.SettledBy now row s status st.db db')
    (h : st.db.AccountWithin id applied) :
    db'.AccountWithin id (applied ++ [⟨row.id, s, status, st.db.itemsOf row.id⟩]) := by
  intro a ha hid henf
  rw [hset.accounts] at ha
  obtain ⟨a₀, ha₀, rfl⟩ := List.mem_map.mp ha
  have hid : a₀.id = id := hid
  have hbound := h a₀ ha₀ hid fun p hp ↦ henf p (by rw [hset.policies]; exact hp)
  have hover := hgood.overrun_le hrow hdue (.account id)
  have hsplit : Table.sumOver (fun i ↦ i.target = .account id) (fun i ↦ s.actual - i.committed)
      (st.db.itemsOf row.id) =
      Table.sumOver (fun i ↦ i.target = .account id) (fun i ↦ s.actual - i.held)
        (st.db.itemsOf row.id) +
      Table.sumOver (fun i ↦ i.target = .account id) ReservationItem.held
        (st.db.itemsOf row.id) := by
    refine (Table.sumOver_add fun i hi ↦ ?_).symm
    rw [hgood.committed_eq_zero hrow hdue hi]
    split <;> ring
  subst hid
  show a₀.committed + Table.sumOver (fun i ↦ i.target = .account a₀.id)
      (fun i ↦ s.actual - i.committed) (st.db.itemsOf row.id) +
    (a₀.reserved - Table.sumOver (fun i ↦ i.target = .account a₀.id) ReservationItem.held
      (st.db.itemsOf row.id)) ≤ a₀.limitAmount + excess (.account a₀.id) _
  rw [excess_append, excess_singleton, hsplit]
  linarith

/-- **Every step stays within the limit**, as long as the limit is not lowered. -/
theorem accountWithin_step {zones : Zones} {st : State} (hgood : st.Good)
    (hpos : ∀ p ∈ st.db.policies, 0 ≤ p.limitAmount) (op : Op)
    (hkept : st.db.LimitKept id (step zones st op).db)
    (h : st.db.AccountWithin id st.history.applied) :
    (step zones st op).db.AccountWithin id (step zones st op).history.applied := by
  rcases step_effect zones op hgood.wf with hstay | ⟨heff, -, happlied⟩
  · rw [hstay]
    exact h
  · rw [happlied]
    generalize (step zones st op).db = db' at heff hkept
    have hsame : ∀ {db' : Db}, op.applied st.db = [] → db'.accounts = st.db.accounts →
        (∀ p ∈ st.db.policies, p ∈ db'.policies) →
        db'.AccountWithin id (st.history.applied ++ op.applied st.db) := by
      intro db' happ haccounts hpolicies a ha hid henf
      rw [haccounts] at ha
      rw [happ, List.append_nil]
      exact h a ha hid fun p hp ↦ henf p (hpolicies p hp)
    cases heff with
    | rows hrows hcredits happ =>
      exact hsame happ hrows.accounts fun p hp ↦ by rw [hrows.policies]; exact hp
    | settle now row s status db₁ hrow hdue hok hrows hres hcredits happ =>
      rw [happ]
      exact accountWithin_settle hgood hrow hdue
        ((applyReservation_ok hgood.wf.items hok).of_sameBooks hrows hres) h
    | hold now req tenantID hnew hest hholds hcredits happ =>
      rw [happ, List.append_nil]
      refine hholds.rec_on (P := fun db ↦ db.AccountWithin id st.history.applied) ?_ h
      intro db₁ db₂ hwf₁ hpol₁ hstep hb
      exact hb.hold hwf₁ (by rw [hpol₁]; exact hpos) hstep
    | policy row hid hlimit heq hcredits happ =>
      subst heq
      exact hsame happ rfl fun p hp ↦ List.mem_append_left _ hp
    | limit tenantID row limit enabled start hrow hlimit heq hcredits happ =>
      subst heq
      rw [happ, List.append_nil]
      intro a ha hid henf
      obtain ⟨a₀, ha₀, heq⟩ := mem_patched_accounts ha
      have hid₀ : a₀.id = id := by rw [heq] at hid; exact hid
      have hle := hkept a₀ ha₀ hid₀ a ha hid
      have hbound := h a₀ ha₀ hid₀ (enforced_of_patched (by rw [heq]) henf)
      rw [heq]
      show a₀.committed + a₀.reserved ≤ a.limitAmount + _
      linarith
    | credit scope delta heq hcredits happ =>
      rcases heq with ⟨-, currency, -, rfl⟩ | ⟨-, rfl⟩ <;> exact hsame happ rfl fun _ hp ↦ hp

end Account

/-! ## Quotas -/

/-- What was credited to the scope was never negative. -/
def CreditsNonneg (scope : String) (credits : List (String × Int)) : Prop :=
  ∀ c ∈ credits, c.1 = scope → 0 ≤ c.2

/-- The quota `scope` is overdrawn by the excess at most. -/
def Db.QuotaWithin (scope : String) (applied : List Applied) (db : Db) : Prop :=
  ∀ q ∈ db.quotas, q.scope = scope → -excess (.quota scope) applied ≤ q.balance

section Quota

variable {scope : String} {applied : List Applied} {db db' : Db}

theorem Db.QuotaWithin.hold {req : ReservationRequest} (h : db.QuotaWithin scope applied)
    (hwf : db.WF) (hstep : Db.Hold req db db') : db'.QuotaWithin scope applied := by
  have hexcess := excess_nonneg (.quota scope) applied
  cases hstep with
  | quota q hq hcur hpos hle hnew =>
    intro q' hq' hs
    obtain ⟨q₀, hq₀, rfl⟩ := Table.mem_modify.mp hq'
    split at hs
    · rename_i heq
      rw [hwf.quotas.eq_of_key hq₀ hq heq, if_pos rfl]
      show _ ≤ q.balance - req.estimate
      omega
    · rename_i hne
      rw [if_neg hne]
      exact h q₀ hq₀ hs
  | openAccount => exact h
  | account => exact h

/-- A balance that is opened starts with what is credited. -/
theorem Db.QuotaWithin.insertQuota {scope' currency : String} {delta : Int}
    (h : db.QuotaWithin scope applied) (hdelta : scope' = scope → 0 ≤ delta) :
    (db.insertQuota ⟨scope', delta, currency⟩).QuotaWithin scope applied := by
  have hexcess := excess_nonneg (.quota scope) applied
  intro q hq hs
  rw [Db.insertQuota_quotas, List.mem_append, List.mem_singleton] at hq
  rcases hq with hq | rfl
  · exact h q hq hs
  · have := hdelta hs
    show _ ≤ delta
    omega

theorem Db.QuotaWithin.addQuota {scope' : String} {delta : Int}
    (h : db.QuotaWithin scope applied) (hdelta : scope' = scope → 0 ≤ delta) :
    (db.modifyQuota scope' fun q ↦ { q with balance := q.balance + delta }).QuotaWithin
      scope applied := by
  intro q hq hs
  obtain ⟨q₀, hq₀, rfl⟩ := Table.mem_modify.mp hq
  split at hs
  · rename_i heq
    have hs : q₀.scope = scope := hs
    have hbound := h q₀ hq₀ hs
    have := hdelta (heq.symm.trans hs)
    rw [if_pos heq]
    show _ ≤ q₀.balance + delta
    omega
  · rename_i hne
    rw [if_neg hne]
    exact h q₀ hq₀ hs

theorem quotaWithin_settle {st : State} (hgood : st.Good) {now : Time} {row : ReservationRow}
    {s : Settlement} {status : Status} (hrow : st.db.reservation row.id = some row)
    (hdue : row.Due s status) (hset : Db.SettledBy now row s status st.db db')
    (h : st.db.QuotaWithin scope applied) :
    db'.QuotaWithin scope (applied ++ [⟨row.id, s, status, st.db.itemsOf row.id⟩]) := by
  intro q hq hs
  rw [hset.quotas] at hq
  obtain ⟨q₀, hq₀, rfl⟩ := List.mem_map.mp hq
  have hs : q₀.scope = scope := hs
  have hbound := h q₀ hq₀ hs
  have hover := hgood.overrun_le hrow hdue (.quota scope)
  have hneg : Table.sumOver (fun i ↦ i.target = .quota scope)
      (fun i ↦ i.held + i.committed - s.actual) (st.db.itemsOf row.id) =
      -Table.sumOver (fun i ↦ i.target = .quota scope) (fun i ↦ s.actual - i.held)
        (st.db.itemsOf row.id) := by
    rw [← Table.sumOver_neg]
    refine Table.sumOver_congr fun i hi ↦ ?_
    rw [hgood.committed_eq_zero hrow hdue hi]
    split <;> ring
  subst hs
  show _ ≤ q₀.balance + Table.sumOver (fun i ↦ i.target = .quota q₀.scope)
    (fun i ↦ i.held + i.committed - s.actual) (st.db.itemsOf row.id)
  rw [excess_append, excess_singleton, hneg]
  linarith

/-- **Every step keeps a quota from being overdrawn by more than the excess**, as long as nothing
negative is credited to it. -/
theorem quotaWithin_step {zones : Zones} {st : State} (hgood : st.Good) (op : Op)
    (hcredits : CreditsNonneg scope (step zones st op).history.credits)
    (h : st.db.QuotaWithin scope st.history.applied) :
    (step zones st op).db.QuotaWithin scope (step zones st op).history.applied := by
  rcases step_effect zones op hgood.wf with hstay | ⟨heff, hcred, happlied⟩
  · rw [hstay]
    exact h
  · rw [happlied]
    rw [hcred] at hcredits
    generalize (step zones st op).db = db' at heff
    have hsame : ∀ {db' : Db}, op.applied st.db = [] → db'.quotas = st.db.quotas →
        db'.QuotaWithin scope (st.history.applied ++ op.applied st.db) := by
      intro db' happ hquotas
      rw [happ, List.append_nil, Db.QuotaWithin, hquotas]
      exact h
    cases heff with
    | rows hrows _ happ => exact hsame happ hrows.quotas
    | settle now row s status db₁ hrow hdue hok hrows hres _ happ =>
      rw [happ]
      exact quotaWithin_settle hgood hrow hdue
        ((applyReservation_ok hgood.wf.items hok).of_sameBooks hrows hres) h
    | hold now req tenantID hnew hest hholds _ happ =>
      rw [happ, List.append_nil]
      exact hholds.rec_on (P := fun db ↦ db.QuotaWithin scope st.history.applied)
        (fun _ _ hwf₁ _ hstep hb ↦ hb.hold hwf₁ hstep) h
    | policy row hid hlimit heq _ happ =>
      subst heq
      exact hsame happ rfl
    | limit tenantID row limit enabled start hrow hlimit heq _ happ =>
      subst heq
      refine hsame happ ((patched_sameButAlerts ..).quotas.trans ?_)
      cases st.db.accountFor row.id start <;> rfl
    | credit scope' delta heq hcred' happ =>
      rw [happ, List.append_nil]
      rw [hcred'] at hcredits
      have hdelta : scope' = scope → 0 ≤ delta :=
        hcredits (scope', delta) (List.mem_append_right _ (List.mem_singleton_self _))
      rcases heq with ⟨-, currency, -, rfl⟩ | ⟨-, rfl⟩
      · exact h.insertQuota hdelta
      · exact h.addQuota hdelta

end Quota

/-! ## Whole runs -/

section Runs

variable {zones : Zones} {db : Db}

/-- Credits are never taken back. -/
theorem creditsNonneg_of_step {scope : String} {st : State} (hgood : st.Good) {op : Op}
    (h : CreditsNonneg scope (step zones st op).history.credits) :
    CreditsNonneg scope st.history.credits := by
  rcases step_effect zones op hgood.wf with hstay | ⟨-, hcred, -⟩
  · rwa [hstay] at h
  · rw [hcred] at h
    exact fun c hc ↦ h c (List.mem_append_left _ hc)

theorem limits_nonneg_step {st : State} (hgood : st.Good) (op : Op)
    (hpos : ∀ p ∈ st.db.policies, 0 ≤ p.limitAmount) :
    ∀ p ∈ (step zones st op).db.policies, 0 ≤ p.limitAmount := by
  rcases step_effect zones op hgood.wf with hstay | ⟨heff, -, -⟩
  · rwa [hstay]
  · exact heff.limits_nonneg hgood.wf hpos

theorem accountWithin_runOps (hinit : db.Initial) (ops : List Op) {id : Int}
    (hkept : Run.Along (step zones) (fun st op ↦ st.db.LimitKept id (step zones st op).db)
      (State.start db) ops) :
    (runOps zones db ops).db.AccountWithin id (runOps zones db ops).history.applied := by
  refine (Run.invariant_along (I := fun st : State ↦ st.Good ∧
    (∀ p ∈ st.db.policies, 0 ≤ p.limitAmount) ∧ st.db.AccountWithin id st.history.applied)
    ?_ hkept ⟨good_start hinit, ?_, ?_⟩).2.2
  · rintro st op hk ⟨hgood, hpos, hwithin⟩
    exact ⟨hgood.step op, limits_nonneg_step hgood op hpos,
      accountWithin_step hgood hpos op hk hwithin⟩
  · rw [show (State.start db).db.policies = [] from hinit.policies]
    simp
  · intro a ha
    rw [show (State.start db).db.accounts = [] from hinit.accounts] at ha
    simp at ha

theorem quotaWithin_runOps (hinit : db.Initial) (ops : List Op) {scope : String}
    (hcredits : CreditsNonneg scope (runOps zones db ops).history.credits) :
    (runOps zones db ops).db.QuotaWithin scope (runOps zones db ops).history.applied := by
  refine (Run.invariant (I := fun st : State ↦ st.Good ∧
    (CreditsNonneg scope st.history.credits → st.db.QuotaWithin scope st.history.applied))
    ?_ ops ⟨good_start hinit, ?_⟩).2 hcredits
  · rintro st op ⟨hgood, hwithin⟩
    refine ⟨hgood.step op, fun hc ↦ ?_⟩
    exact quotaWithin_step hgood op hc (hwithin (creditsNonneg_of_step hgood hc))
  · intro hc q hq hs
    have hbalance : 0 ≤ q.balance := hc (q.scope, q.balance) (List.mem_map_of_mem hq) hs
    exact hbalance

/-- **The overspend bound.**  In every reachable state, an enforced account whose limit was never
lowered exceeds it, and a quota that was never debited by hand is overdrawn, by at most what
settlements charged beyond what had been held for them. -/
theorem overspend_bound (hinit : db.Initial) (ops : List Op) :
    let st := runOps zones db ops
    (∀ a ∈ st.db.accounts, st.db.Enforced a →
      Run.Along (step zones) (fun st op ↦ st.db.LimitKept a.id (step zones st op).db)
        (State.start db) ops →
      a.committed + a.reserved ≤ a.limitAmount + excess (.account a.id) st.history.applied) ∧
    ∀ q ∈ st.db.quotas, CreditsNonneg q.scope st.history.credits →
      -excess (.quota q.scope) st.history.applied ≤ q.balance :=
  ⟨fun a ha henf hkept ↦ accountWithin_runOps hinit ops hkept a ha rfl henf,
    fun q hq hcredits ↦ quotaWithin_runOps hinit ops hcredits q hq rfl⟩

/-- In the sample run four are charged to the account of five. -/
theorem overspend_bound_sample :
    (4 : Int) + 0 ≤
      5 + excess (.account 1) (runOps Zones.utc Db.sample Op.sample).history.applied :=
  (overspend_bound Db.sample_initial Op.sample).1 ⟨1, 1, 0, day, "usd", 5, 0, 4, 0⟩ (by decide)
    (by decide) (by decide)

end Runs

end Voxeltoad
