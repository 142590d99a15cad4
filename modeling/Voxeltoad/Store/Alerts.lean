import Mathlib.Data.List.Induction
import Voxeltoad.Store.Overspend

/-!
# Alerts

`emitBudgetThresholds` runs after every write to the committed amount or the limit of an account,
and inserts the alerts that are due; the unique index of `budget_events` drops the ones that are
there already.  What matters about an alert is its key: the account, the kind and the threshold.
On keys, emitting is adding to a set (`mem_alertKeys_emit`), and the claims about alerts become
claims about which keys are in it.

An account that has been overspent once keeps its alert, even if its limit is raised later.
-/

set_option autoImplicit false

namespace Voxeltoad

/-! ## Keys -/

/-- What the unique index of the alerts looks at. -/
def BudgetEvent.key (e : BudgetEvent) : Option Int × EventKind × Int :=
  (e.accountID, e.kind, e.threshold)

namespace Db

/-- The keys of the alerts that have been raised. -/
def alertKeys (db : Db) : List (Option Int × EventKind × Int) := db.alerts.map BudgetEvent.key

end Db

theorem eventConflicts_iff {e e' : BudgetEvent} (halert : e.isAlert = true)
    (haccount : e.accountID.isSome = true) :
    Db.eventConflicts e e' = true ↔ e'.key = e.key := by
  rw [BudgetEvent.isAlert] at halert
  have hunknown : e.kind ≠ .unknown := by
    intro hk
    simp [hk] at halert
  simp only [Db.eventConflicts, BudgetEvent.key, haccount, halert, Bool.true_and, Bool.and_true,
    hunknown, decide_false, Bool.false_and, Bool.or_false, Bool.and_eq_true, decide_eq_true_eq,
    Prod.mk.injEq]
  exact ⟨fun h ↦ ⟨h.1.1.symm, h.1.2.symm, h.2.symm⟩, fun h ↦ ⟨⟨h.1.symm, h.2.1.symm⟩, h.2.2.symm⟩⟩

/-- Inserting an alert adds its key, once. -/
theorem alertKeys_insertEventOnce {e : BudgetEvent} (halert : e.isAlert = true)
    (haccount : e.accountID.isSome = true) (db : Db) :
    (db.insertEventOnce e).alertKeys =
      if e.key ∈ db.alertKeys then db.alertKeys else db.alertKeys ++ [e.key] := by
  have hany : db.events.any (Db.eventConflicts e) = true ↔ e.key ∈ db.alertKeys := by
    rw [List.any_eq_true, Db.alertKeys, List.mem_map]
    constructor
    · rintro ⟨e', he', hc⟩
      have hkey := (eventConflicts_iff halert haccount).mp hc
      refine ⟨e', List.mem_filter.mpr ⟨he', ?_⟩, hkey⟩
      have hkind : e'.kind = e.kind := congrArg (fun k ↦ k.2.1) hkey
      rw [BudgetEvent.isAlert, hkind]
      exact halert
    · rintro ⟨e', he', hkey⟩
      exact ⟨e', (List.mem_filter.mp he').1, (eventConflicts_iff halert haccount).mpr hkey⟩
  rw [Db.insertEventOnce]
  by_cases h : e.key ∈ db.alertKeys
  · rw [if_pos (hany.mpr h), if_pos h]
  · rw [if_neg (mt hany.mp h), if_neg h]
    have halert' : BudgetEvent.isAlert { e with id := db.eventSeq } = true := halert
    simp only [Db.alertKeys, Db.alerts, Db.insertEvent_events, List.filter_append,
      List.filter_singleton, halert', cond_true, List.map_append, List.map_singleton]
    rfl

/-- Inserting alerts one after the other adds their keys. -/
theorem alertKeys_insertAll {due : List BudgetEvent}
    (hdue : ∀ e ∈ due, e.isAlert = true ∧ e.accountID.isSome = true) (db : Db) :
    (db.alertKeys.Nodup → (due.foldl (fun db e ↦ db.insertEventOnce e) db).alertKeys.Nodup) ∧
      ∀ k, k ∈ (due.foldl (fun db e ↦ db.insertEventOnce e) db).alertKeys ↔
        k ∈ db.alertKeys ∨ k ∈ due.map BudgetEvent.key := by
  induction due generalizing db with
  | nil => simp
  | cons e due ih =>
    obtain ⟨halert, haccount⟩ := hdue e (List.mem_cons_self ..)
    obtain ⟨hnodup, hmem⟩ := ih (fun e' he' ↦ hdue e' (List.mem_cons_of_mem _ he'))
      (db.insertEventOnce e)
    rw [alertKeys_insertEventOnce halert haccount] at hnodup hmem
    constructor
    · intro hdb
      refine hnodup ?_
      split
      · exact hdb
      · rename_i hnot
        rw [List.nodup_append]
        exact ⟨hdb, by simp, fun k hk k' hk' he ↦
          hnot ((List.mem_singleton.mp hk') ▸ he ▸ hk)⟩
    · intro k
      rw [List.foldl_cons, hmem, List.map_cons, List.mem_cons]
      split
      · rename_i hin
        constructor
        · rintro (hk | hk)
          · exact .inl hk
          · exact .inr (.inr hk)
        · rintro (hk | rfl | hk)
          · exact .inl hk
          · exact .inl hin
          · exact .inr hk
      · rw [List.mem_append, List.mem_singleton, or_assoc]

/-! ## What is due -/

/-- The alerts an account is due, as keys. -/
def Db.KeyDue (a : BudgetAccountRow) (k : Option Int × EventKind × Int) (db : Db) : Prop :=
  (∃ p ∈ db.policies, p.id = a.policyID ∧ ∃ t ∈ p.thresholds,
    0 < a.committed ∧ a.limitAmount * t ≤ a.committed * 100 ∧ k = (some a.id, .threshold, t)) ∨
  a.limitAmount < a.committed ∧ k = (some a.id, .overspend, 0)

/-- What `emitBudgetThresholds` inserts is what is due. -/
theorem mem_dueEvents_iff {tenantID accountID : Int} {reservationID : Option String} {db : Db}
    (hwf : db.WF) (k : Option Int × EventKind × Int) :
    k ∈ (dueEvents tenantID accountID reservationID db).map BudgetEvent.key ↔
      ∃ a ∈ db.accounts, a.id = accountID ∧ db.KeyDue a k := by
  rw [dueEvents]
  cases ha : db.account accountID with
  | none =>
    refine ⟨fun h ↦ by simp at h, ?_⟩
    rintro ⟨a, ham, hid, -⟩
    exact absurd hid (Table.find_eq_none_iff.mp ha a ham)
  | some a =>
    obtain ⟨ham, hid⟩ := Table.mem_of_find ha
    have haccount : (∃ a' ∈ db.accounts, a'.id = accountID ∧ db.KeyDue a' k) ↔ db.KeyDue a k := by
      constructor
      · rintro ⟨a', ham', hid', hdue⟩
        rwa [hwf.accounts.eq_of_key ham' ham (hid'.trans hid.symm)] at hdue
      · exact fun hdue ↦ ⟨a, ham, hid, hdue⟩
    rw [haccount, Db.KeyDue]
    simp only [List.map_append, List.mem_append]
    refine or_congr ?_ ?_
    · cases hp : db.policy a.policyID with
      | none =>
        refine ⟨fun h ↦ by simp at h, ?_⟩
        rintro ⟨p, hpm, hpid, -⟩
        exact absurd hpid (Table.find_eq_none_iff.mp hp p hpm)
      | some p =>
        obtain ⟨hpm, hpid⟩ := Table.mem_of_find hp
        simp only [Option.map_some, Option.getD_some, thresholdEvents, List.map_map, List.mem_map,
          List.mem_filter, decide_eq_true_eq]
        constructor
        · rintro ⟨t, ⟨ht, hpos, hle⟩, rfl⟩
          exact ⟨p, hpm, hpid, t, ht, hpos, hle, rfl⟩
        · rintro ⟨p', hpm', hpid', t, ht, hpos, hle, rfl⟩
          rw [hwf.policies.eq_of_key hpm' hpm (hpid'.trans hpid.symm)] at ht
          exact ⟨t, ⟨ht, hpos, hle⟩, rfl⟩
    · rw [overspendEvents]
      split
      · rename_i hlt
        simp [BudgetEvent.key, hlt]
      · rename_i hlt
        simp [hlt]

/-- **Emitting adds what is due.** -/
theorem mem_alertKeys_emit {tenantID accountID : Int} {reservationID : Option String} {db : Db}
    (hwf : db.WF) (k : Option Int × EventKind × Int) :
    k ∈ (emitBudgetThresholds tenantID accountID reservationID db).alertKeys ↔
      k ∈ db.alertKeys ∨ ∃ a ∈ db.accounts, a.id = accountID ∧ db.KeyDue a k := by
  rw [emitBudgetThresholds, (alertKeys_insertAll (fun e he ↦
    alert_of_mem_dueEvents he) db).2, mem_dueEvents_iff hwf]

theorem nodup_alertKeys_emit {tenantID accountID : Int} {reservationID : Option String} {db : Db}
    (h : db.alertKeys.Nodup) :
    (emitBudgetThresholds tenantID accountID reservationID db).alertKeys.Nodup := by
  rw [emitBudgetThresholds]
  exact (alertKeys_insertAll (fun e he ↦
    alert_of_mem_dueEvents he) db).1 h

/-! ## The invariant -/

/-- Every alert that is due has been raised, once. -/
structure Db.Alerted (db : Db) : Prop where
  nodup : db.alertKeys.Nodup
  /-- An overspend alert has no threshold. -/
  overspend : ∀ id t, (some id, .overspend, t) ∈ db.alertKeys → t = 0
  complete : ∀ a ∈ db.accounts, ∀ k, db.KeyDue a k → k ∈ db.alertKeys

theorem Db.KeyDue.overspend {a : BudgetAccountRow} {db : Db} {id : Option Int} {t : Int}
    (h : db.KeyDue a (id, .overspend, t)) :
    t = 0 ∧ id = some a.id ∧ a.limitAmount < a.committed := by
  rcases h with ⟨p, -, -, t', -, -, -, hk⟩ | ⟨hlt, hk⟩
  · simp at hk
  · simp only [Prod.mk.injEq, true_and] at hk
    exact ⟨hk.2, hk.1, hlt⟩

/-- Rewriting one account and emitting its alerts keeps the invariant. -/
theorem Db.Alerted.emit {db db₁ : Db} {tenantID accountID : Int} {reservationID : Option String}
    (h : db.Alerted) (hwf : db₁.WF) (hkeys : db₁.alertKeys = db.alertKeys)
    (hother : ∀ a ∈ db₁.accounts, a.id ≠ accountID → a ∈ db.accounts)
    (hdue : ∀ a k, db₁.KeyDue a k → db.KeyDue a k) :
    (emitBudgetThresholds tenantID accountID reservationID db₁).Alerted := by
  have hemit := emitBudgetThresholds_sameButAlerts tenantID accountID reservationID db₁
  refine ⟨nodup_alertKeys_emit (by rw [hkeys]; exact h.nodup), fun id t ht ↦ ?_, fun a ha k hk ↦ ?_⟩
  · rw [mem_alertKeys_emit hwf, hkeys] at ht
    rcases ht with ht | ⟨a, -, -, hk⟩
    · exact h.overspend id t ht
    · exact hk.overspend.1
  · rw [hemit.accounts] at ha
    rw [Db.KeyDue, hemit.policies] at hk
    rw [mem_alertKeys_emit hwf, hkeys]
    by_cases hid : a.id = accountID
    · exact .inr ⟨a, ha, hid, hk⟩
    · exact .inl (h.complete a (hother a ha hid) k (hdue a k hk))

/-! ## Each effect keeps the invariant -/

/-- The account `id` is over its limit. -/
def Db.Over (id : Int) (db : Db) : Prop :=
  ∃ a ∈ db.accounts, a.id = id ∧ a.limitAmount < a.committed

/-- What a transaction does to the alerts: it keeps them complete and removes none, and it raises
an overspend alert only for an account that is over its limit when it ends. -/
structure Db.AlertStep (db db' : Db) : Prop where
  alerted : db'.Alerted
  grows : ∀ k ∈ db.alertKeys, k ∈ db'.alertKeys
  since : ∀ id, (some id, .overspend, 0) ∈ db'.alertKeys →
    (some id, .overspend, 0) ∈ db.alertKeys ∨ db'.Over id

namespace Db.AlertStep

variable {db db₁ db' : Db}

/-- Nothing that was not due before is due now. -/
theorem of_same (h : db.Alerted) (hkeys : db'.alertKeys = db.alertKeys)
    (hdue : ∀ a' ∈ db'.accounts, ∀ k, db'.KeyDue a' k → ∃ a ∈ db.accounts, db.KeyDue a k) :
    AlertStep db db' := by
  refine ⟨⟨by rw [hkeys]; exact h.nodup, fun id t ht ↦ ?_, fun a' ha' k hk ↦ ?_⟩, fun k hk ↦ ?_,
    fun id hid ↦ ?_⟩
  · rw [hkeys] at ht
    exact h.overspend id t ht
  · obtain ⟨a, ha, hk⟩ := hdue a' ha' k hk
    rw [hkeys]
    exact h.complete a ha k hk
  · rw [hkeys]
    exact hk
  · rw [hkeys] at hid
    exact .inl hid

/-- The accounts, the policies and the alerts are the same. -/
theorem of_eq (h : db.Alerted) (hkeys : db'.alertKeys = db.alertKeys)
    (haccounts : db'.accounts = db.accounts) (hpolicies : db'.policies = db.policies) :
    AlertStep db db' := by
  refine .of_same h hkeys fun a ha k hk ↦ ⟨a, haccounts ▸ ha, ?_⟩
  rw [Db.KeyDue, hpolicies] at hk
  exact hk

theorem trans (h : AlertStep db db₁) (h' : AlertStep db₁ db')
    (hover : ∀ id, db₁.Over id → db'.Over id) : AlertStep db db' := by
  refine ⟨h'.alerted, fun k hk ↦ h'.grows k (h.grows k hk), fun id hid ↦ ?_⟩
  rcases h'.since id hid with hk | ho
  · rcases h.since id hk with hk | ho
    · exact .inl hk
    · exact .inr (hover id ho)
  · exact .inr ho

/-- Rewriting one account and emitting its alerts. -/
theorem emit (tenantID accountID : Int) (reservationID : Option String) (h : db.Alerted)
    (hwf : db₁.WF) (hkeys : db₁.alertKeys = db.alertKeys)
    (hother : ∀ a ∈ db₁.accounts, a.id ≠ accountID → a ∈ db.accounts)
    (hdue : ∀ a k, db₁.KeyDue a k → db.KeyDue a k) :
    AlertStep db (emitBudgetThresholds tenantID accountID reservationID db₁) := by
  refine ⟨h.emit hwf hkeys hother hdue, fun k hk ↦ ?_, fun id hid ↦ ?_⟩
  · rw [mem_alertKeys_emit hwf, hkeys]
    exact .inl hk
  · rw [mem_alertKeys_emit hwf, hkeys] at hid
    rcases hid with hk | ⟨a, ha, -, hk⟩
    · exact .inl hk
    · obtain ⟨-, he, hlt⟩ := hk.overspend
      refine .inr ⟨a, ?_, (Option.some.inj he).symm, hlt⟩
      rw [(emitBudgetThresholds_sameButAlerts ..).accounts]
      exact ha

end Db.AlertStep

section Settle

variable {row : ReservationRow} {s : Settlement} {db db₁ db₂ : Db} {item : ReservationItem}

/-- One iteration of the loop of `applyReservation`. -/
theorem applyItem_alertStep (hwf : db₁.WF) (h : db₁.Alerted) (hactual : 0 ≤ s.actual)
    (hcommitted : item.committed = 0) (hok : applyItem row s db₁ item = .ok db₂) :
    db₂.shape = db₁.shape ∧ Db.AlertStep db₁ db₂ ∧ ∀ id, db₁.Over id → db₂.Over id := by
  rw [applyItem] at hok
  cases ht : item.target with
  | quota scope =>
    rw [ht] at hok
    obtain ⟨dbm, hm, hi⟩ := Loop.bind_eq_ok.mp hok
    rw [settleItem_ok hi]
    obtain ⟨-, rfl⟩ := settleQuota_ok hm
    refine ⟨?_, .of_eq h rfl rfl rfl, fun _ ho ↦ ho⟩
    exact (Db.shape_modifyItem (by intro; rfl)).trans (Db.shape_modifyQuota (by intro; rfl))
  | account accountID =>
    rw [ht] at hok
    obtain ⟨dbm, hm, hi⟩ := Loop.bind_eq_ok.mp hok
    rw [settleItem_ok hi]
    obtain ⟨-, rfl⟩ := settleAccount_ok hm
    have hshape : (db₁.modifyAccount accountID fun a ↦
        { a with reserved := a.reserved - item.held
                 committed := a.committed + s.actual - item.committed
                 released := a.released + item.refund s.actual }).shape = db₁.shape :=
      Db.shape_modifyAccount (by intro; rfl)
    have hemit := emitBudgetThresholds_sameButAlerts row.tenantID accountID (some row.id)
      (db₁.modifyAccount accountID fun a ↦
        { a with reserved := a.reserved - item.held
                 committed := a.committed + s.actual - item.committed
                 released := a.released + item.refund s.actual })
    have hstep : Db.AlertStep db₁ _ :=
      .emit row.tenantID accountID (some row.id) h (hwf.of_shape hshape) rfl
        (fun a ha hne ↦ Table.mem_of_mem_modify (by intro; rfl) ha hne) fun a k hk ↦ hk
    refine ⟨?_, ⟨⟨hstep.alerted.nodup, hstep.alerted.overspend, hstep.alerted.complete⟩,
      hstep.grows, hstep.since⟩, ?_⟩
    · exact (Db.shape_modifyItem (by intro; rfl)).trans (hemit.shape.trans hshape)
    · -- the committed amount only grows
      rintro id ⟨a, ha, hid, hlt⟩
      refine ⟨_, by
        rw [Db.modifyItem_accounts, hemit.accounts]
        exact Table.mem_modify.mpr ⟨a, ha, rfl⟩, ?_, ?_⟩
      · split <;> exact hid
      · split
        · show a.limitAmount < a.committed + s.actual - item.committed
          omega
        · exact hlt

/-- The invariant of the loop of `applyReservation`.  What is left to do has been charged
nothing. -/
structure Db.Alerting (db : Db) (rest : List ReservationItem) (db' : Db) : Prop where
  committed : ∀ i ∈ rest, i.committed = 0
  shape : db'.shape = db.shape
  step : Db.AlertStep db db'

/-- One iteration. -/
theorem Db.Alerting.applyItem {i : ReservationItem} {rest : List ReservationItem} {db' db'' : Db}
    (hwf : db.WF) (hactual : 0 ≤ s.actual) (h : db.Alerting (i :: rest) db')
    (hok : applyItem row s db' i = .ok db'') : db.Alerting rest db'' := by
  obtain ⟨hshape, hstep, hover⟩ := applyItem_alertStep (hwf.of_shape h.shape) h.step.alerted
    hactual (h.committed i (List.mem_cons_self ..)) hok
  exact ⟨fun j hj ↦ h.committed j (List.mem_cons_of_mem _ hj), hshape.trans h.shape,
    h.step.trans hstep hover⟩

/-- The loop of `applyReservation`. -/
theorem applyItems_alertStep (hwf : db.WF) (h : db.Alerted) (hactual : 0 ≤ s.actual)
    (hcommitted : ∀ i ∈ db.itemsOf row.id, i.committed = 0)
    (hok : (orderedItems row.id db).foldlM (applyItem row s) db = .ok db₁) :
    Db.AlertStep db db₁ := by
  have hfirst : db.Alerting (orderedItems row.id db) db :=
    ⟨fun i hi ↦ hcommitted i ((orderedItems_perm row.id db).mem_iff.mp hi), rfl,
      .of_eq h rfl rfl rfl⟩
  have hlast : db.Alerting [] db₁ :=
    Loop.foldlM_rec db.Alerting (fun _ _ _ _ hP ↦ hP.applyItem hwf hactual) hok hfirst
  exact hlast.step

theorem alerts_recordAttemptRisk (row : ReservationRow) (s : Settlement) (db : Db) :
    (recordAttemptRisk row s db).alerts = db.alerts := by
  rw [recordAttemptRisk]
  split
  · rw [Db.alerts, Db.insertEvent_events, List.filter_append]
    simp [Db.alerts, BudgetEvent.isAlert]
  · rfl

theorem applyReservation_alertStep {now : Time} {status : Status} (hwf : db.WF) (h : db.Alerted)
    (hactual : 0 ≤ s.actual) (hcommitted : ∀ i ∈ db.itemsOf row.id, i.committed = 0)
    (hok : applyReservation now row s status db = .ok db₁) : Db.AlertStep db db₁ := by
  obtain ⟨dbi, hi, hok⟩ := Loop.bind_eq_ok.mp hok
  obtain ⟨dbu, hu, hok⟩ := Loop.bind_eq_ok.mp hok
  have hstep := applyItems_alertStep hwf h hactual hcommitted hi
  cases hok
  have husage := recordUsage_ok hu
  obtain ⟨events, seq, heq⟩ := recordAttemptRisk_eq row s dbu
  have hkeys : ((recordAttemptRisk row s dbu).modifyReservation row.id
      (closeReservation now s status)).alertKeys = dbi.alertKeys := by
    show (recordAttemptRisk row s dbu).alerts.map _ = _
    rw [alerts_recordAttemptRisk, husage]
    rfl
  have haccounts : (recordAttemptRisk row s dbu).accounts = dbi.accounts := by rw [heq, husage]
  have hpolicies : (recordAttemptRisk row s dbu).policies = dbi.policies := by rw [heq, husage]
  refine hstep.trans (.of_eq hstep.alerted hkeys haccounts hpolicies) ?_
  rintro id ⟨a, ha, hrest⟩
  exact ⟨a, by rw [Db.modifyReservation_accounts, haccounts]; exact ha, hrest⟩

end Settle

/-- Holding raises no alert: a new account has been charged nothing, and the committed amount of
an old one does not change. -/
theorem Db.AlertStep.hold {req : ReservationRequest} {db db₁ db₂ : Db} (h : Db.AlertStep db db₁)
    (hpos : ∀ p ∈ db₁.policies, 0 ≤ p.limitAmount) (hhold : Db.Hold req db₁ db₂) :
    Db.AlertStep db db₂ := by
  cases hhold with
  | quota q => exact h.trans (.of_eq h.alerted rfl rfl rfl) fun _ ho ↦ ho
  | openAccount p start stop hp hnew =>
    refine h.trans (.of_same h.alerted rfl fun a ha k hk ↦ ?_) fun id ⟨a, ha, hrest⟩ ↦
      ⟨a, List.mem_append_left _ ha, hrest⟩
    rw [Db.insertAccount_accounts, List.mem_append, List.mem_singleton] at ha
    rcases ha with ha | rfl
    · exact ⟨a, ha, hk⟩
    · have hlimit := hpos p hp
      rcases hk with ⟨_, _, _, _, _, hlt, _⟩ | ⟨hlt, _⟩
      · exact absurd hlt (lt_irrefl (0 : Int))
      · exact absurd hlt (not_lt.mpr hlimit)
  | account p a =>
    refine h.trans (.of_same h.alerted rfl fun a' ha' k hk ↦ ?_) fun id ⟨a', ha', hid, hlt⟩ ↦ ?_
    · obtain ⟨a₀, ha₀, rfl⟩ := Table.mem_modify.mp ha'
      refine ⟨a₀, ha₀, ?_⟩
      split at hk <;> exact hk
    · refine ⟨_, Table.mem_modify.mpr ⟨a', ha', rfl⟩, ?_, ?_⟩
      · split <;> exact hid
      · split <;> exact hlt

/-- Changing a limit raises the alerts of the account whose limit it is. -/
theorem alertStep_patched {db : Db} (hwf : db.WF) (h : db.Alerted) (tenantID id limit : Int)
    (enabled : Bool) (account : Option BudgetAccountRow) :
    Db.AlertStep db (patched tenantID id limit enabled account db) := by
  have hdue : ∀ a k, (patchedRows id limit enabled account db).KeyDue a k → db.KeyDue a k := by
    rintro a k (⟨p, hp, he, t, ht, hrest⟩ | hover)
    · have hp' : p ∈ Table.modify BudgetPolicyRow.id id (fun r ↦ { r with
          limitAmount := limit, enabled := enabled, version := r.version + 1 }) db.policies := by
        cases account <;> exact hp
      obtain ⟨p₀, hp₀, rfl⟩ := Table.mem_modify.mp hp'
      refine .inl ⟨p₀, hp₀, ?_, t, ?_, hrest⟩
      · split at he <;> exact he
      · split at ht <;> exact ht
    · exact .inr hover
  cases account with
  | none => exact .of_same h rfl fun a ha k hk ↦ ⟨a, ha, hdue a k hk⟩
  | some account =>
    have hshape := shape_patchedRows id limit enabled (some account) db
    exact .emit tenantID account.id none h (hwf.of_shape hshape) rfl
      (fun a ha hne ↦ Table.mem_of_mem_modify (by intro; rfl) ha hne) hdue

/-! ## Whole runs -/

section Runs

variable {zones : Zones} {st : State} {db : Db}

/-- **Every step keeps the alerts complete.** -/
theorem alertStep_step (zones : Zones) (hgood : st.Good)
    (hpos : ∀ p ∈ st.db.policies, 0 ≤ p.limitAmount)
    (h : st.db.Alerted) (op : Op) : Db.AlertStep st.db (step zones st op).db := by
  rcases step_effect zones op hgood.wf with heq | ⟨heff, -, -⟩
  · rw [heq]
    exact .of_eq h rfl rfl rfl
  · generalize (step zones st op).db = db' at heff
    cases heff with
    | rows hsame =>
      exact .of_eq h (congrArg (List.map _) hsame.alerts) hsame.accounts hsame.policies
    | settle now row s status db₁ hrow hdue hok hsame hres =>
      have hsound := (((hgood.views row.id).rowInv hrow).due hdue).1
      have hstep := applyReservation_alertStep hgood.wf h hsound.actual
        (fun i hi ↦ hgood.committed_eq_zero hrow hdue hi) hok
      refine hstep.trans (.of_eq hstep.alerted (congrArg (List.map _) hsame.alerts) hsame.accounts
        hsame.policies) ?_
      rintro id ⟨a, ha, hrest⟩
      exact ⟨a, by rw [hsame.accounts]; exact ha, hrest⟩
    | hold now req tenantID hnew hest hholds =>
      refine hholds.rec_on (P := fun db ↦ Db.AlertStep st.db db) ?_ (.of_eq h rfl rfl rfl)
      intro db₁ db₂ hwf₁ hpol₁ hhold hstep
      exact hstep.hold (fun p hp ↦ hpos p (by rw [hpol₁] at hp; exact hp)) hhold
    | policy row hid hlimit heq =>
      subst heq
      refine .of_same h rfl fun a ha k hk ↦ ⟨a, ha, ?_⟩
      -- the new policy has no account yet
      obtain ⟨p₀, hp₀, he₀⟩ := hgood.wf.accountPolicy a ha
      have hlt := hgood.wf.policySeq p₀ hp₀
      rcases hk with ⟨p, hp, he, hrest⟩ | hover
      · rw [Db.insertPolicy_policies, List.mem_append, List.mem_singleton] at hp
        rcases hp with hp | rfl
        · exact .inl ⟨p, hp, he, hrest⟩
        · omega
      · exact .inr hover
    | limit tenantID row limit enabled start hrow hlimit heq =>
      subst heq
      exact alertStep_patched hgood.wf h tenantID row.id limit enabled _
    | credit scope delta heq =>
      rcases heq with ⟨-, currency, -, rfl⟩ | ⟨-, rfl⟩ <;> exact .of_eq h rfl rfl rfl

theorem alerted_start (hinit : db.Initial) : (State.start db).db.Alerted := by
  have hkeys : (State.start db).db.alertKeys = [] := by
    rw [Db.alertKeys, Db.alerts, show (State.start db).db.events = [] from hinit.events]
    rfl
  refine ⟨by rw [hkeys]; exact List.nodup_nil, by simp [hkeys], ?_⟩
  rw [show (State.start db).db.accounts = [] from hinit.accounts]
  simp

/-- Everything the alerts depend on holds in every reachable state. -/
theorem alerted_runOps (zones : Zones) (hinit : db.Initial) (ops : List Op) :
    (runOps zones db ops).Good ∧ (∀ p ∈ (runOps zones db ops).db.policies, 0 ≤ p.limitAmount) ∧
      (runOps zones db ops).db.Alerted := by
  refine Run.invariant (I := fun st : State ↦ st.Good ∧
    (∀ p ∈ st.db.policies, 0 ≤ p.limitAmount) ∧ st.db.Alerted) ?_ ops
    ⟨good_start hinit, ?_, alerted_start hinit⟩
  · rintro st op ⟨hgood, hpos, halerted⟩
    exact ⟨hgood.step op, limits_nonneg_step hgood op hpos,
      (alertStep_step zones hgood hpos halerted op).alerted⟩
  · rw [show (State.start db).db.policies = [] from hinit.policies]
    simp

/-- An overspend alert has been raised exactly when the account was over its limit after some
step. -/
theorem overspend_iff (hinit : db.Initial) (ops : List Op) (id : Int) :
    (some id, .overspend, 0) ∈ (runOps zones db ops).db.alertKeys ↔
      ∃ n ≤ ops.length, (runOps zones db (ops.take n)).db.Over id := by
  induction ops using List.reverseRecOn with
  | nil =>
    have hkeys : (runOps zones db []).db.alertKeys = [] := by
      rw [Db.alertKeys, Db.alerts, show (runOps zones db []).db.events = [] from hinit.events]
      rfl
    have haccounts : (runOps zones db []).db.accounts = [] := hinit.accounts
    simp [hkeys, Db.Over, haccounts]
  | append_singleton ops op ih =>
    obtain ⟨hgood, hpos, halerted⟩ := alerted_runOps zones hinit ops
    have hstep := alertStep_step zones hgood hpos halerted op
    have hrun : runOps zones db (ops ++ [op]) = step zones (runOps zones db ops) op :=
      Run.run_concat ..
    have htake : ∀ n ≤ ops.length, (ops ++ [op]).take n = ops.take n :=
      fun n hn ↦ List.take_append_of_le_length hn
    have hall : (ops ++ [op]).take (ops.length + 1) = ops ++ [op] :=
      List.take_of_length_le (by simp)
    rw [hrun]
    constructor
    · intro hk
      rcases hstep.since id hk with hk | hover
      · obtain ⟨n, hn, hover⟩ := ih.mp hk
        exact ⟨n, by simp; omega, by rw [htake n hn]; exact hover⟩
      · exact ⟨ops.length + 1, by simp, by rw [hall, hrun]; exact hover⟩
    · rintro ⟨n, hn, hover⟩
      by_cases hle : n ≤ ops.length
      · rw [htake n hle] at hover
        exact hstep.grows _ (ih.mpr ⟨n, hle, hover⟩)
      · have hn' : n = ops.length + 1 := by simp at hn; omega
        rw [hn', hall, hrun] at hover
        obtain ⟨a, ha, rfl, hlt⟩ := hover
        exact hstep.alerted.complete a ha _ (.inr ⟨hlt, rfl⟩)

/-- The account `id` is there, and at least `n` has been charged to it. -/
def Db.Committed (id n : Int) (db : Db) : Prop :=
  (∃ b ∈ db.accounts, b.id = id) ∧ ∀ b ∈ db.accounts, b.id = id → n ≤ b.committed

/-- Holding charges nothing.  The account is there all along, so it is not the one that is
opened. -/
theorem Db.Committed.hold {id n : Int} {req : ReservationRequest} {db₁ db₂ : Db}
    (h : db₁.Committed id n) (hwf : db₁.WF) (hhold : Db.Hold req db₁ db₂) :
    db₂.Committed id n := by
  obtain ⟨⟨b₀, hb₀, hbid₀⟩, hle⟩ := h
  cases hhold with
  | quota => exact ⟨⟨b₀, hb₀, hbid₀⟩, hle⟩
  | openAccount =>
    refine ⟨⟨b₀, List.mem_append_left _ hb₀, hbid₀⟩, fun b hb hbid ↦ ?_⟩
    rw [Db.insertAccount_accounts, List.mem_append, List.mem_singleton] at hb
    rcases hb with hb | rfl
    · exact hle b hb hbid
    · have hlt := hwf.accountSeq b₀ hb₀
      have hseq : db₁.accountSeq = id := hbid
      omega
  | account =>
    refine ⟨⟨_, Table.mem_modify.mpr ⟨b₀, hb₀, rfl⟩, by split <;> exact hbid₀⟩,
      fun b hb hbid ↦ ?_⟩
    obtain ⟨b₁, hb₁, rfl⟩ := Table.mem_modify.mp hb
    split at hbid
    · rename_i he
      rw [if_pos he]
      exact hle b₁ hb₁ hbid
    · rename_i he
      rw [if_neg he]
      exact hle b₁ hb₁ hbid

/-- The committed amount of an account never decreases. -/
theorem committed_step (hgood : st.Good) (op : Op) {a a' : BudgetAccountRow}
    (ha : a ∈ st.db.accounts) (ha' : a' ∈ (step zones st op).db.accounts) (hid : a'.id = a.id) :
    a.committed ≤ a'.committed := by
  rcases step_effect zones op hgood.wf with heq | ⟨heff, -, -⟩
  · rw [heq] at ha'
    rw [hgood.wf.accounts.eq_of_key ha' ha hid]
  · generalize (step zones st op).db = db' at heff ha'
    have hsame : a' ∈ st.db.accounts → a.committed ≤ a'.committed := fun hmem ↦ by
      rw [hgood.wf.accounts.eq_of_key hmem ha hid]
    cases heff with
    | rows hrows => exact hsame (hrows.accounts ▸ ha')
    | settle now row s status db₁ hrow hdue hok hrows hres =>
      rw [((applyReservation_ok hgood.wf.items hok).of_sameBooks hrows hres).accounts] at ha'
      obtain ⟨a₀, ha₀, rfl⟩ := List.mem_map.mp ha'
      rw [hgood.wf.accounts.eq_of_key ha₀ ha hid]
      refine le_add_of_nonneg_right (Table.sumOver_nonneg fun i hi _ ↦ ?_)
      rw [hgood.committed_eq_zero hrow hdue hi, sub_zero]
      exact (((hgood.views row.id).rowInv hrow).due hdue).1.actual
    | hold now req tenantID hnew hest hholds =>
      have hfirst : st.db.Committed a.id a.committed :=
        ⟨⟨a, ha, rfl⟩, fun b hb hbid ↦ by rw [hgood.wf.accounts.eq_of_key hb ha hbid]⟩
      have hlast : db'.Committed a.id a.committed :=
        hholds.rec_on (P := Db.Committed a.id a.committed)
          (fun _ _ hwf₁ _ hhold h ↦ h.hold hwf₁ hhold) hfirst
      exact hlast.2 a' ha' hid
    | policy row hrow hlimit heq =>
      subst heq
      exact hsame ha'
    | limit tenantID row limit enabled start hrow hlimit heq =>
      subst heq
      obtain ⟨a₀, ha₀, heq⟩ := mem_patched_accounts ha'
      have hid₀ : a₀.id = a.id := by rw [heq] at hid; exact hid
      rw [heq, hgood.wf.accounts.eq_of_key ha₀ ha hid₀]
    | credit scope delta heq =>
      rcases heq with ⟨-, currency, -, rfl⟩ | ⟨-, rfl⟩ <;> exact hsame ha'

/-- The number of threshold alerts of an account. -/
def Db.thresholdAlerts (id t : Int) (db : Db) : Nat :=
  db.events.countP fun e ↦ e.kind = .threshold ∧ e.accountID = some id ∧ e.threshold = t

/-- The number of overspend alerts of an account. -/
def Db.overspendAlerts (id : Int) (db : Db) : Nat :=
  db.events.countP fun e ↦ e.kind = .overspend ∧ e.accountID = some id

theorem thresholdAlerts_eq (id t : Int) (db : Db) :
    db.thresholdAlerts id t = db.alertKeys.count (some id, .threshold, t) := by
  rw [Db.thresholdAlerts, Db.alertKeys, Db.alerts, List.count, List.countP_map, List.countP_filter]
  refine List.countP_congr fun e _ ↦ ?_
  simp only [Function.comp_apply, BudgetEvent.key, BudgetEvent.isAlert, beq_iff_eq, Prod.mk.injEq,
    Bool.and_eq_true, Bool.or_eq_true, decide_eq_true_eq]
  constructor
  · rintro ⟨hk, ha, ht⟩
    exact ⟨⟨ha, hk, ht⟩, .inl hk⟩
  · rintro ⟨⟨ha, hk, ht⟩, -⟩
    exact ⟨hk, ha, ht⟩

theorem overspendAlerts_eq {db : Db} (h : db.Alerted) (id : Int) :
    db.overspendAlerts id = db.alertKeys.count (some id, .overspend, 0) := by
  rw [Db.overspendAlerts, Db.alertKeys, Db.alerts, List.count, List.countP_map, List.countP_filter]
  refine List.countP_congr fun e he ↦ ?_
  simp only [Function.comp_apply, BudgetEvent.key, BudgetEvent.isAlert, beq_iff_eq, Prod.mk.injEq,
    Bool.and_eq_true, Bool.or_eq_true, decide_eq_true_eq]
  constructor
  · rintro ⟨hk, ha⟩
    have halert : e ∈ db.alerts := List.mem_filter.mpr ⟨he, by simp [BudgetEvent.isAlert, hk]⟩
    have hzero : e.threshold = 0 := by
      refine h.overspend id e.threshold ?_
      rw [← ha, ← hk]
      exact List.mem_map_of_mem halert
    exact ⟨⟨ha, hk, hzero⟩, .inr hk⟩
  · rintro ⟨⟨ha, hk, -⟩, -⟩
    exact ⟨hk, ha⟩

/-- **Alerts are complete.**  In every reachable state, an account has exactly one alert for every
threshold of its policy that it has reached, exactly one overspend alert if it is or ever was over
its limit and none otherwise; no alert is raised twice, and the committed amount of an account
never decreases. -/
theorem alerts_complete (hinit : db.Initial) (ops : List Op) :
    let st := runOps zones db ops
    (∀ a ∈ st.db.accounts, ∀ p ∈ st.db.policies, p.id = a.policyID → 0 < a.committed →
      ∀ t ∈ p.thresholds, a.limitAmount * t ≤ a.committed * 100 →
        st.db.thresholdAlerts a.id t = 1) ∧
    (∀ id, (∃ n ≤ ops.length, (runOps zones db (ops.take n)).db.Over id) →
      st.db.overspendAlerts id = 1) ∧
    (∀ id, (¬ ∃ n ≤ ops.length, (runOps zones db (ops.take n)).db.Over id) →
      st.db.overspendAlerts id = 0) ∧
    (∀ id t, st.db.thresholdAlerts id t ≤ 1) ∧
    ∀ op, ∀ a ∈ st.db.accounts, ∀ a' ∈ (step zones st op).db.accounts, a'.id = a.id →
      a.committed ≤ a'.committed := by
  intro st
  obtain ⟨hgood, -, halerted⟩ := alerted_runOps zones hinit ops
  refine ⟨fun a ha p hp hid hpos t ht hle ↦ ?_, fun id hover ↦ ?_, fun id hnot ↦ ?_,
    fun id t ↦ ?_, fun op a ha a' ha' hid ↦ committed_step hgood op ha ha' hid⟩
  · rw [thresholdAlerts_eq]
    exact List.count_eq_one_of_mem halerted.nodup
      (halerted.complete a ha _ (.inl ⟨p, hp, hid, t, ht, hpos, hle, rfl⟩))
  · rw [overspendAlerts_eq halerted]
    exact List.count_eq_one_of_mem halerted.nodup ((overspend_iff hinit ops id).mpr hover)
  · rw [overspendAlerts_eq halerted]
    exact List.count_eq_zero_of_not_mem (mt (overspend_iff hinit ops id).mp hnot)
  · rw [thresholdAlerts_eq]
    exact List.nodup_iff_count_le_one.mp halerted.nodup _

/-- In the sample run the charge of four out of five raises the alert at half. -/
theorem alerts_complete_sample :
    (runOps Zones.utc Db.sample Op.sample).db.thresholdAlerts 1 50 = 1 :=
  (alerts_complete Db.sample_initial Op.sample).1 ⟨1, 1, 0, 86400000000000, "usd", 5, 0, 4, 0⟩
    (by decide)
    ⟨1, 1, "p", .tenant, "", "", .daily, "UTC", "usd", 5, .enforce, [50], true, 1⟩ (by decide) rfl
    (by decide) 50 (by decide) (by decide)

end Runs

end Voxeltoad
