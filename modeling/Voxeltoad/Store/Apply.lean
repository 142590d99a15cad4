import Voxeltoad.Lib.Loop
import Voxeltoad.Store.Shape

/-!
# What applying a settlement does

`applyReservation` is a loop over the items of a reservation that rewrites, for each of them, the
quota or account it was taken from, the item itself and the alerts.  `applyReservation_ok` is what
is left of it once it has succeeded: every table as a function of what it was before.

The loop works on items that were read before it began.  That they are still what was read when
their turn comes is because items are never touched twice; `Db.ChargedBy l` is the state after the
items of `l` have been charged, and one iteration takes `ChargedBy l` to `ChargedBy (l ++ [i])`.
-/

set_option autoImplicit false

namespace Voxeltoad

/-! ## Rows after a charge -/

/-- An item that `actual` has been charged to. -/
@[simps] def ReservationItem.charged (actual : Int) (i : ReservationItem) : ReservationItem :=
  { i with held := 0, committed := actual, released := i.released + i.refund actual }

/-- A quota after `actual` has been charged to each item of `l`. -/
def QuotaRow.charged (l : List ReservationItem) (actual : Int) (q : QuotaRow) : QuotaRow :=
  { q with balance := q.balance +
      Table.sumOver (fun i ↦ i.target = .quota q.scope) (fun i ↦ i.held + i.committed - actual) l }

/-- An account after `actual` has been charged to each item of `l`. -/
def BudgetAccountRow.charged (l : List ReservationItem) (actual : Int) (a : BudgetAccountRow) :
    BudgetAccountRow :=
  { a with
    reserved := a.reserved -
      Table.sumOver (fun i ↦ i.target = .account a.id) ReservationItem.held l
    committed := a.committed +
      Table.sumOver (fun i ↦ i.target = .account a.id) (fun i ↦ actual - i.committed) l
    released := a.released +
      Table.sumOver (fun i ↦ i.target = .account a.id) (fun i ↦ i.refund actual) l }

/-- The alerts among the events. -/
def BudgetEvent.isAlert (e : BudgetEvent) : Bool := e.kind = .threshold || e.kind = .overspend

namespace Db

/-- The state after `actual` has been charged to each item of `l`. -/
structure ChargedBy (l : List ReservationItem) (actual : Int) (db db' : Db) : Prop where
  shape : db'.shape = db.shape
  quotas : db'.quotas = db.quotas.map (QuotaRow.charged l actual)
  accounts : db'.accounts = db.accounts.map (BudgetAccountRow.charged l actual)
  items : db'.items = db.items.map fun i ↦ if i ∈ l then i.charged actual else i
  policies : db'.policies = db.policies
  reservations : db'.reservations = db.reservations
  usageRecords : db'.usageRecords = db.usageRecords
  /-- The loop only adds alerts. -/
  events : ∃ new, db'.events = db.events ++ new ∧ ∀ e ∈ new, e.isAlert = true

variable {db db' db'' : Db} {l : List ReservationItem} {actual : Int}

theorem ChargedBy.refl (actual : Int) (db : Db) : ChargedBy [] actual db db where
  shape := rfl
  quotas := (List.map_id'' (fun q ↦ by simp [QuotaRow.charged]) _).symm
  accounts := (List.map_id'' (fun a ↦ by simp [BudgetAccountRow.charged]) _).symm
  items := by simp
  policies := rfl
  reservations := rfl
  usageRecords := rfl
  events := ⟨[], by simp⟩

theorem ChargedBy.perm {l' : List ReservationItem} (h : ChargedBy l actual db db')
    (hl : l.Perm l') : ChargedBy l' actual db db' :=
  { h with
    quotas := by
      rw [h.quotas]
      refine List.map_congr_left fun q _ ↦ ?_
      rw [QuotaRow.charged, QuotaRow.charged, Table.sumOver_perm hl]
    accounts := by
      rw [h.accounts]
      refine List.map_congr_left fun a _ ↦ ?_
      simp only [BudgetAccountRow.charged, Table.sumOver_perm hl]
    items := by simp only [h.items, hl.mem_iff] }

end Db

/-! ## Emitting alerts -/

/-- `emitBudgetThresholds` touches nothing but the events. -/
structure Db.SameButAlerts (db db' : Db) : Prop where
  shape : db'.shape = db.shape
  quotas : db'.quotas = db.quotas
  accounts : db'.accounts = db.accounts
  items : db'.items = db.items
  policies : db'.policies = db.policies
  reservations : db'.reservations = db.reservations
  usageRecords : db'.usageRecords = db.usageRecords
  events : ∃ new, db'.events = db.events ++ new ∧ ∀ e ∈ new, e.isAlert = true

theorem Db.insertEventOnce_sameButAlerts {e : BudgetEvent} (he : e.isAlert = true) (db : Db) :
    SameButAlerts db (db.insertEventOnce e) := by
  rw [insertEventOnce]
  split
  · exact ⟨rfl, rfl, rfl, rfl, rfl, rfl, rfl, [], by simp⟩
  · exact ⟨rfl, rfl, rfl, rfl, rfl, rfl, rfl, [_], rfl,
      fun e' he' ↦ by rw [List.mem_singleton.mp he']; exact he⟩

/-- What is due are alerts, each about an account. -/
theorem alert_of_mem_dueEvents {tenantID accountID : Int} {reservationID : Option String}
    {db : Db} {e : BudgetEvent} (he : e ∈ dueEvents tenantID accountID reservationID db) :
    e.isAlert = true ∧ e.accountID.isSome = true := by
  rw [dueEvents] at he
  split at he
  · simp at he
  · rename_i a _
    rw [List.mem_append] at he
    rcases he with he | he
    · cases hp : db.policy a.policyID with
      | none => simp [hp] at he
      | some p =>
        simp only [hp, Option.map_some, Option.getD_some, thresholdEvents, List.mem_map] at he
        obtain ⟨t, -, rfl⟩ := he
        exact ⟨rfl, rfl⟩
    · rw [overspendEvents] at he
      split at he
      · rw [List.mem_singleton] at he
        subst he
        exact ⟨rfl, rfl⟩
      · simp at he

theorem emitBudgetThresholds_sameButAlerts (tenantID accountID : Int)
    (reservationID : Option String) (db : Db) :
    Db.SameButAlerts db (emitBudgetThresholds tenantID accountID reservationID db) := by
  rw [emitBudgetThresholds]
  have hdue : ∀ e ∈ dueEvents tenantID accountID reservationID db, e.isAlert = true :=
    fun e he ↦ (alert_of_mem_dueEvents he).1
  generalize dueEvents tenantID accountID reservationID db = due at hdue
  induction due generalizing db with
  | nil => exact ⟨rfl, rfl, rfl, rfl, rfl, rfl, rfl, [], by simp⟩
  | cons e due ih =>
    have h₁ := Db.insertEventOnce_sameButAlerts (hdue e (List.mem_cons_self ..)) db
    have h₂ := ih (db.insertEventOnce e) fun e' he' ↦ hdue e' (List.mem_cons_of_mem _ he')
    obtain ⟨new₁, hnew₁, hall₁⟩ := h₁.events
    obtain ⟨new₂, hnew₂, hall₂⟩ := h₂.events
    refine ⟨h₂.shape.trans h₁.shape, h₂.quotas.trans h₁.quotas, h₂.accounts.trans h₁.accounts,
      h₂.items.trans h₁.items, h₂.policies.trans h₁.policies,
      h₂.reservations.trans h₁.reservations, h₂.usageRecords.trans h₁.usageRecords,
      new₁ ++ new₂, ?_, ?_⟩
    · rw [List.foldl_cons, hnew₂, hnew₁, List.append_assoc]
    · intro e' he'
      rcases List.mem_append.mp he' with h | h
      · exact hall₁ e' h
      · exact hall₂ e' h

/-! ## One iteration -/

section Loop

variable {row : ReservationRow} {s : Settlement} {db db₁ db₂ : Db} {l : List ReservationItem}
  {item : ReservationItem}

theorem settleQuota_ok {scope : String} {actual : Int}
    (h : settleQuota row item actual scope db₁ = .ok db₂) :
    (db₁.quota scope).isSome ∧
      db₂ = db₁.modifyQuota scope fun q ↦
        { q with balance := q.balance + item.held + item.committed - actual } := by
  rw [settleQuota] at h
  split at h
  · cases h
  · rename_i q hq
    split at h
    · cases h
    · split at h
      · cases h
        exact ⟨by rw [hq]; rfl, rfl⟩
      · cases h

theorem settleAccount_ok {accountID actual : Int}
    (h : settleAccount row item actual accountID db₁ = .ok db₂) :
    (db₁.account accountID).isSome ∧
      db₂ = emitBudgetThresholds row.tenantID accountID (some row.id)
        (db₁.modifyAccount accountID fun a ↦
          { a with reserved := a.reserved - item.held
                   committed := a.committed + actual - item.committed
                   released := a.released + item.refund actual }) := by
  rw [settleAccount] at h
  split at h
  · cases h
  · rename_i a ha
    split at h
    · cases h
      exact ⟨by rw [ha]; rfl, rfl⟩
    · cases h

theorem settleItem_ok {actual : Int} (h : settleItem item actual db₁ = .ok db₂) :
    db₂ = db₁.modifyItem item.id fun i ↦
      { i with held := 0, committed := actual, released := i.released + item.refund actual } := by
  rw [settleItem] at h
  split at h
  · rename_i hnone
    cases h
    rw [Db.modifyItem, Table.modify_of_absent (Table.find_eq_none_iff.mp hnone)]
  · split at h
    · cases h
      rfl
    · cases h

/-- The quota of an item after the item has been charged too. -/
theorem QuotaRow.charged_concat (l : List ReservationItem) (item : ReservationItem) (actual : Int)
    (q : QuotaRow) :
    q.charged (l ++ [item]) actual =
      if item.target = .quota q.scope then
        { q.charged l actual with
          balance := (q.charged l actual).balance + item.held + item.committed - actual }
      else q.charged l actual := by
  simp only [QuotaRow.charged, Table.sumOver_append, Table.sumOver_cons, Table.sumOver_nil]
  split
  · congr 1; ring
  · congr 1; ring

theorem BudgetAccountRow.charged_concat (l : List ReservationItem) (item : ReservationItem)
    (actual : Int) (a : BudgetAccountRow) :
    a.charged (l ++ [item]) actual =
      if item.target = .account a.id then
        { a.charged l actual with
          reserved := (a.charged l actual).reserved - item.held
          committed := (a.charged l actual).committed + actual - item.committed
          released := (a.charged l actual).released + item.refund actual }
      else a.charged l actual := by
  simp only [BudgetAccountRow.charged, Table.sumOver_append, Table.sumOver_cons,
    Table.sumOver_nil]
  split
  · congr 1 <;> ring
  · congr 1 <;> ring

/-- Charging an item of a quota rewrites that quota, and no other. -/
theorem quotas_charged_concat {scope : String} (ht : item.target = .quota scope) (actual : Int)
    (quotas : List QuotaRow) :
    Table.modify QuotaRow.scope scope (fun q ↦
        { q with balance := q.balance + item.held + item.committed - actual })
        (quotas.map (QuotaRow.charged l actual)) =
      quotas.map (QuotaRow.charged (l ++ [item]) actual) := by
  rw [Table.modify, List.map_map]
  refine List.map_congr_left fun q _ ↦ ?_
  rw [QuotaRow.charged_concat, ht]
  have hscope : (q.charged l actual).scope = q.scope := rfl
  simp only [Function.comp_apply, hscope, Target.quota.injEq, eq_comm]

theorem accounts_charged_concat {id : Int} (ht : item.target = .account id) (actual : Int)
    (accounts : List BudgetAccountRow) :
    Table.modify BudgetAccountRow.id id (fun a ↦
        { a with reserved := a.reserved - item.held
                 committed := a.committed + actual - item.committed
                 released := a.released + item.refund actual })
        (accounts.map (BudgetAccountRow.charged l actual)) =
      accounts.map (BudgetAccountRow.charged (l ++ [item]) actual) := by
  rw [Table.modify, List.map_map]
  refine List.map_congr_left fun a _ ↦ ?_
  rw [BudgetAccountRow.charged_concat, ht]
  have hid : (a.charged l actual).id = a.id := rfl
  simp only [Function.comp_apply, hid, Target.account.injEq, eq_comm]

/-- Charging one more item rewrites the row of that item only. -/
theorem items_charged_concat (hkey : Table.Keyed ReservationItem.id db.items) {actual : Int}
    (hmem : item ∈ db.items) (hnew : item ∉ l) :
    Table.modify ReservationItem.id item.id (fun i ↦
        { i with held := 0, committed := actual, released := i.released + item.refund actual })
        (db.items.map fun i ↦ if i ∈ l then i.charged actual else i) =
      db.items.map fun i ↦ if i ∈ l ++ [item] then i.charged actual else i := by
  rw [Table.modify, List.map_map]
  refine List.map_congr_left fun i hi ↦ ?_
  have hid : (if i ∈ l then i.charged actual else i).id = i.id := by split <;> rfl
  simp only [Function.comp_apply, hid, List.mem_append, List.mem_singleton]
  by_cases he : i.id = item.id
  · have heq : i = item := hkey.eq_of_key hi hmem he
    subst heq
    simp [hnew, ReservationItem.charged]
  · have hne : i ≠ item := fun h ↦ he (congrArg _ h)
    simp [he, hne]

/-- **One iteration** charges one more item. -/
theorem Db.ChargedBy.applyItem_ok (hkey : Table.Keyed ReservationItem.id db.items)
    (h : Db.ChargedBy l s.actual db db₁) (hmem : item ∈ db.items) (hnew : item ∉ l)
    (hok : applyItem row s db₁ item = .ok db₂) :
    Db.ChargedBy (l ++ [item]) s.actual db db₂ := by
  rw [applyItem] at hok
  have hshape : ∀ dbm : Db, (dbm.modifyItem item.id fun i ↦
      { i with held := 0, committed := s.actual,
               released := i.released + item.refund s.actual }).shape = dbm.shape :=
    fun _ ↦ Db.shape_modifyItem fun _ ↦ rfl
  cases ht : item.target with
  | quota scope =>
    rw [ht] at hok
    obtain ⟨dbm, hm, hi⟩ := Loop.bind_eq_ok.mp hok
    rw [settleItem_ok hi]
    obtain ⟨-, rfl⟩ := settleQuota_ok hm
    refine ⟨?_, ?_, ?_, ?_, h.policies, h.reservations, h.usageRecords, h.events⟩
    · exact (hshape _).trans ((Db.shape_modifyQuota (by intro; rfl)).trans h.shape)
    · rw [Db.modifyItem_quotas, Db.modifyQuota_quotas, h.quotas]
      exact quotas_charged_concat ht s.actual db.quotas
    · rw [Db.modifyItem_accounts, Db.modifyQuota_accounts, h.accounts]
      refine List.map_congr_left fun a _ ↦ ?_
      rw [BudgetAccountRow.charged_concat, ht, if_neg (by simp)]
    · rw [Db.modifyItem_items, Db.modifyQuota_items, h.items]
      exact items_charged_concat hkey hmem hnew
  | account id =>
    rw [ht] at hok
    obtain ⟨dbm, hm, hi⟩ := Loop.bind_eq_ok.mp hok
    rw [settleItem_ok hi]
    obtain ⟨-, rfl⟩ := settleAccount_ok hm
    have halerts := emitBudgetThresholds_sameButAlerts row.tenantID id (some row.id)
      (db₁.modifyAccount id fun a ↦
        { a with reserved := a.reserved - item.held
                 committed := a.committed + s.actual - item.committed
                 released := a.released + item.refund s.actual })
    obtain ⟨new₁, hnew₁, hall₁⟩ := h.events
    obtain ⟨new₂, hnew₂, hall₂⟩ := halerts.events
    refine ⟨?_, ?_, ?_, ?_, halerts.policies.trans h.policies,
      halerts.reservations.trans h.reservations, halerts.usageRecords.trans h.usageRecords,
      new₁ ++ new₂, ?_, ?_⟩
    · exact (hshape _).trans
        (halerts.shape.trans ((Db.shape_modifyAccount (by intro; rfl)).trans h.shape))
    · rw [Db.modifyItem_quotas, halerts.quotas, Db.modifyAccount_quotas, h.quotas]
      refine List.map_congr_left fun q _ ↦ ?_
      rw [QuotaRow.charged_concat, ht, if_neg (by simp)]
    · rw [Db.modifyItem_accounts, halerts.accounts, Db.modifyAccount_accounts, h.accounts]
      exact accounts_charged_concat ht s.actual db.accounts
    · rw [Db.modifyItem_items, halerts.items, Db.modifyAccount_items, h.items]
      exact items_charged_concat hkey hmem hnew
    · rw [Db.modifyItem_events, hnew₂, Db.modifyAccount_events, hnew₁, List.append_assoc]
    · intro e he
      rcases List.mem_append.mp he with he | he
      · exact hall₁ e he
      · exact hall₂ e he

theorem orderedItems_perm (id : String) (db : Db) : (orderedItems id db).Perm (db.itemsOf id) :=
  List.perm_insertionSort ..

theorem mem_itemsOf {id : String} {i : ReservationItem} :
    i ∈ db.itemsOf id ↔ i ∈ db.items ∧ i.reservationID = id := by
  simp [Db.itemsOf]

/-- The invariant of the loop.  What has been charged and what is left to do make up the items that
were read before it. -/
def Db.Charging (row : ReservationRow) (actual : Int) (db : Db) (rest : List ReservationItem)
    (db' : Db) : Prop :=
  ∃ done, done ++ rest = orderedItems row.id db ∧ Db.ChargedBy done actual db db'

/-- One iteration. -/
theorem Db.Charging.applyItem (hkey : Table.Keyed ReservationItem.id db.items)
    {i : ReservationItem} {rest : List ReservationItem} {db' db'' : Db}
    (h : db.Charging row s.actual (i :: rest) db') (hok : applyItem row s db' i = .ok db'') :
    db.Charging row s.actual rest db'' := by
  obtain ⟨done, hdone, hch⟩ := h
  have hnodup : (orderedItems row.id db).Nodup :=
    (orderedItems_perm row.id db).nodup_iff.mpr ((List.Nodup.of_map _ hkey).filter _)
  have hi : i ∈ orderedItems row.id db := by rw [← hdone]; simp
  have hmem : i ∈ db.items := (mem_itemsOf.mp ((orderedItems_perm row.id db).mem_iff.mp hi)).1
  have hfresh : i ∉ done := by
    rw [← hdone] at hnodup
    intro hid
    exact (List.nodup_append.mp hnodup).2.2 i hid i (List.mem_cons_self ..) rfl
  exact ⟨done ++ [i], by rw [List.append_assoc]; exact hdone,
    hch.applyItem_ok hkey hmem hfresh hok⟩

/-- **The loop** charges every item of the reservation. -/
theorem applyItems_ok (hkey : Table.Keyed ReservationItem.id db.items)
    (h : (orderedItems row.id db).foldlM (applyItem row s) db = .ok db₁) :
    Db.ChargedBy (db.itemsOf row.id) s.actual db db₁ := by
  have hfirst : db.Charging row s.actual (orderedItems row.id db) db :=
    ⟨[], rfl, .refl s.actual db⟩
  obtain ⟨done, hdone, hch⟩ : db.Charging row s.actual [] db₁ :=
    Loop.foldlM_rec (db.Charging row s.actual) (fun _ _ _ _ hP ↦ hP.applyItem hkey) h hfirst
  rw [List.append_nil] at hdone
  subst hdone
  exact hch.perm (orderedItems_perm row.id db)

end Loop

/-! ## The whole transaction -/

/-- The usage row of a settlement, if it has one. -/
def usageRows (id : String) (s : Settlement) : List UsageRow :=
  if s.outcome = .known then (s.usage.map (UsageRow.mk id)).toList else []

/-- The number of attempt-risk events of a reservation. -/
def Db.risks (id : String) (db : Db) : Nat :=
  db.events.countP fun e ↦ e.kind = .attemptRisk && e.reservationID = some id

/-- The state after a settlement has been applied to a reservation. -/
structure Db.SettledBy (now : Time) (row : ReservationRow) (s : Settlement) (status : Status)
    (db db' : Db) : Prop where
  shape : db'.shape = db.shape
  quotas : db'.quotas = db.quotas.map (QuotaRow.charged (db.itemsOf row.id) s.actual)
  accounts : db'.accounts = db.accounts.map (BudgetAccountRow.charged (db.itemsOf row.id) s.actual)
  items : db'.items = db.items.map fun i ↦
    if i.reservationID = row.id then i.charged s.actual else i
  policies : db'.policies = db.policies
  reservations : db'.reservations =
    Table.modify ReservationRow.id row.id (closeReservation now s status) db.reservations
  usageRecords : db'.usageRecords = db.usageRecords ++ usageRows row.id s
  /-- One more attempt-risk event, if the settlement is at risk. -/
  risks : ∀ id, db'.risks id = db.risks id + if s.attemptRisk ∧ id = row.id then 1 else 0

theorem recordUsage_ok {row : ReservationRow} {s : Settlement} {db db' : Db}
    (h : recordUsage row s db = .ok db') :
    db' = { db with usageRecords := db.usageRecords ++ usageRows row.id s } := by
  rw [recordUsage] at h
  rw [usageRows]
  cases hu : s.usage with
  | none =>
    rw [hu] at h
    cases h
    simp
  | some rec =>
    rw [hu] at h
    by_cases ho : s.outcome = .known
    · simp only [ho, if_true, insertUsageRecord] at h
      split at h
      · cases h
        simp [ho, Db.insertUsage]
      · cases h
    · simp only [ho, if_false] at h
      cases h
      simp [ho]

/-- `recordAttemptRisk` touches nothing but the events. -/
theorem recordAttemptRisk_eq (row : ReservationRow) (s : Settlement) (db : Db) :
    ∃ events seq, recordAttemptRisk row s db = { db with events := events, eventSeq := seq } := by
  rw [recordAttemptRisk]
  split
  · exact ⟨_, _, rfl⟩
  · exact ⟨db.events, db.eventSeq, rfl⟩

theorem risks_recordAttemptRisk (row : ReservationRow) (s : Settlement) (db : Db) (id : String) :
    (recordAttemptRisk row s db).risks id =
      db.risks id + if s.attemptRisk ∧ id = row.id then 1 else 0 := by
  rw [recordAttemptRisk]
  split
  · rename_i hrisk
    rw [Db.risks, Db.insertEvent_events, List.countP_append, List.countP_singleton]
    simp [hrisk, Db.risks, eq_comm]
  · rename_i hrisk
    simp [hrisk]

/-- Alerts are not attempt-risk events. -/
theorem risks_of_alerts {db db' : Db} {new : List BudgetEvent}
    (h : db'.events = db.events ++ new) (hall : ∀ e ∈ new, e.isAlert = true) (id : String) :
    db'.risks id = db.risks id := by
  rw [Db.risks, h, List.countP_append, Db.risks, Nat.add_eq_left, List.countP_eq_zero]
  intro e he
  have halert := hall e he
  rw [BudgetEvent.isAlert] at halert
  intro hrisk
  cases hk : e.kind <;> simp [hk] at halert hrisk

/-- **What `applyReservation` does when it succeeds.** -/
theorem applyReservation_ok {now : Time} {row : ReservationRow} {s : Settlement} {status : Status}
    {db db' : Db} (hkey : Table.Keyed ReservationItem.id db.items)
    (h : applyReservation now row s status db = .ok db') :
    Db.SettledBy now row s status db db' := by
  obtain ⟨db₁, h₁, h⟩ := Loop.bind_eq_ok.mp h
  obtain ⟨db₂, h₂, h⟩ := Loop.bind_eq_ok.mp h
  have hch := applyItems_ok hkey h₁
  have hu := recordUsage_ok h₂
  cases h
  subst hu
  have hrisks := risks_recordAttemptRisk row s
    { db₁ with usageRecords := db₁.usageRecords ++ usageRows row.id s }
  obtain ⟨events, seq, heq⟩ := recordAttemptRisk_eq row s
    { db₁ with usageRecords := db₁.usageRecords ++ usageRows row.id s }
  rw [heq] at hrisks ⊢
  have hitems : db₁.items = db.items.map fun i ↦
      if i.reservationID = row.id then i.charged s.actual else i := by
    refine hch.items.trans (List.map_congr_left fun i hi ↦ ?_)
    simp only [mem_itemsOf, hi, true_and]
  refine ⟨?_, hch.quotas, hch.accounts, hitems, hch.policies, ?_, ?_, fun id ↦ ?_⟩
  · exact (Db.shape_modifyReservation (closeReservation_shape now s status)).trans hch.shape
  · rw [Db.modifyReservation_reservations, hch.reservations]
  · rw [Db.modifyReservation_usageRecords, hch.usageRecords]
  · obtain ⟨alerts, halerts, hall⟩ := hch.events
    refine (hrisks id).trans ?_
    congr 1
    exact risks_of_alerts halerts hall id

/-! ## When it succeeds

Nothing but the range of a column can keep a settlement from being applied: what an item was taken
from is there, and has the currency of the reservation. -/

/-- What charging an item writes fits the columns it is written to. -/
def ReservationItem.ChargeFits (i : ReservationItem) (actual : Int) (db : Db) : Prop :=
  Bigint.Fits (i.released + i.refund actual) ∧
    match i.target with
    | .quota scope => ∀ q ∈ db.quotas, q.scope = scope →
        Bigint.Fits (q.balance + i.held + i.committed - actual)
    | .account id => ∀ a ∈ db.accounts, a.id = id →
        Bigint.Fits (a.committed + actual - i.committed) ∧
        Bigint.Fits (a.released + i.refund actual)

/-- The token counts of the usage row fit their columns. -/
def Settlement.UsageFits (s : Settlement) : Prop :=
  ∀ rec, s.usage = some rec → s.outcome = .known →
    Integer.Fits rec.promptTokens ∧ Integer.Fits rec.completionTokens ∧
      Integer.Fits rec.cachedPromptTokens

/-- Everything that applying a settlement to a reservation writes fits its column. -/
def Db.ApplyFits (id : String) (s : Settlement) (db : Db) : Prop :=
  (∀ i ∈ db.itemsOf id, i.ChargeFits s.actual db) ∧ s.UsageFits

section Fits

variable {row : ReservationRow} {s : Settlement} {db db₁ db₂ : Db} {item : ReservationItem}

/-- What an iteration of the loop asks for. -/
def ApplyItemOk (row : ReservationRow) (s : Settlement) (item : ReservationItem) (db : Db) :
    Prop :=
  (match item.target with
    | .quota scope => ∃ q, db.quota scope = some q ∧
        lower q.currency = row.identity.currency ∧
        Bigint.Fits (q.balance + item.held + item.committed - s.actual)
    | .account id => ∃ a, db.account id = some a ∧
        Bigint.Fits (a.committed + s.actual - item.committed) ∧
        Bigint.Fits (a.released + item.refund s.actual)) ∧
  ∀ i, Table.find ReservationItem.id item.id db.items = some i →
    Bigint.Fits (i.released + item.refund s.actual)

theorem settleItem_ok_iff {actual : Int} :
    (∃ db₂, settleItem item actual db₁ = .ok db₂) ↔
      ∀ i, Table.find ReservationItem.id item.id db₁.items = some i →
        Bigint.Fits (i.released + item.refund actual) := by
  rw [settleItem]
  cases Table.find ReservationItem.id item.id db₁.items with
  | none => simp
  | some i =>
    by_cases hfits : Bigint.Fits (i.released + item.refund actual)
    · simp [hfits]
    · simp [hfits]

theorem settleQuota_ok_iff {scope : String} {actual : Int} :
    (∃ db₂, settleQuota row item actual scope db₁ = .ok db₂) ↔
      ∃ q, db₁.quota scope = some q ∧ lower q.currency = row.identity.currency ∧
        Bigint.Fits (q.balance + item.held + item.committed - actual) := by
  rw [settleQuota]
  cases db₁.quota scope with
  | none => simp
  | some q =>
    by_cases hcur : lower q.currency = row.identity.currency
    · by_cases hfits : Bigint.Fits (q.balance + item.held + item.committed - actual)
      · simp [hcur, hfits]
      · simp [hcur, hfits]
    · simp [hcur]

theorem settleAccount_ok_iff {accountID actual : Int} :
    (∃ db₂, settleAccount row item actual accountID db₁ = .ok db₂) ↔
      ∃ a, db₁.account accountID = some a ∧
        Bigint.Fits (a.committed + actual - item.committed) ∧
        Bigint.Fits (a.released + item.refund actual) := by
  rw [settleAccount]
  cases db₁.account accountID with
  | none => simp
  | some a =>
    by_cases hfits : Bigint.Fits (a.committed + actual - item.committed) ∧
        Bigint.Fits (a.released + item.refund actual)
    · simp [hfits]
    · simp only [hfits, if_false]
      simpa using fun h ↦ hfits ∘ .intro h

/-- Whether the update of an item succeeds does not depend on what was done to other tables. -/
theorem bind_settleItem_ok_iff {m : Except AccountingError Db} {actual : Int}
    (hitems : ∀ dbm, m = .ok dbm → dbm.items = db₁.items) :
    (∃ db₂, (m >>= settleItem item actual) = .ok db₂) ↔
      (∃ dbm, m = .ok dbm) ∧ ∀ i, Table.find ReservationItem.id item.id db₁.items = some i →
        Bigint.Fits (i.released + item.refund actual) := by
  constructor
  · rintro ⟨db₂, h⟩
    obtain ⟨dbm, hm, hi⟩ := Loop.bind_eq_ok.mp h
    exact ⟨⟨dbm, hm⟩, hitems dbm hm ▸ settleItem_ok_iff.mp ⟨db₂, hi⟩⟩
  · rintro ⟨⟨dbm, hm⟩, hfits⟩
    obtain ⟨db₂, hi⟩ := settleItem_ok_iff.mpr ((hitems dbm hm).symm ▸ hfits)
    exact ⟨db₂, Loop.bind_eq_ok.mpr ⟨dbm, hm, hi⟩⟩

theorem applyItem_ok_iff :
    (∃ db₂, applyItem row s db₁ item = .ok db₂) ↔ ApplyItemOk row s item db₁ := by
  rw [applyItem, ApplyItemOk]
  cases ht : item.target with
  | quota scope =>
    refine Iff.trans (bind_settleItem_ok_iff fun dbm hm ↦ ?_) (and_congr_left' settleQuota_ok_iff)
    obtain ⟨-, rfl⟩ := settleQuota_ok hm
    rfl
  | account id =>
    refine Iff.trans (bind_settleItem_ok_iff fun dbm hm ↦ ?_) (and_congr_left' settleAccount_ok_iff)
    obtain ⟨-, rfl⟩ := settleAccount_ok hm
    exact (emitBudgetThresholds_sameButAlerts ..).items

/-- An iteration rewrites the quota or account of its item, and the item. -/
theorem applyItem_lookups (h : applyItem row s db₁ item = .ok db₂) :
    (∀ scope, item.target ≠ .quota scope → db₂.quota scope = db₁.quota scope) ∧
    (∀ id, item.target ≠ .account id → db₂.account id = db₁.account id) ∧
    ∀ id, id ≠ item.id → Table.find ReservationItem.id id db₂.items =
      Table.find ReservationItem.id id db₁.items := by
  rw [applyItem] at h
  cases ht : item.target with
  | quota scope =>
    rw [ht] at h
    obtain ⟨dbm, hm, hi⟩ := Loop.bind_eq_ok.mp h
    rw [settleItem_ok hi]
    obtain ⟨-, rfl⟩ := settleQuota_ok hm
    refine ⟨fun scope' hne ↦ ?_, fun _ _ ↦ rfl, fun id hne ↦ ?_⟩
    · exact Table.find_modify_of_ne (by intro; rfl) (fun he ↦ hne (by rw [he])) _
    · exact Table.find_modify_of_ne (by intro; rfl) hne _
  | account accountID =>
    rw [ht] at h
    obtain ⟨dbm, hm, hi⟩ := Loop.bind_eq_ok.mp h
    rw [settleItem_ok hi]
    obtain ⟨-, rfl⟩ := settleAccount_ok hm
    have halerts := emitBudgetThresholds_sameButAlerts row.tenantID accountID (some row.id)
      (db₁.modifyAccount accountID fun a ↦
        { a with reserved := a.reserved - item.held
                 committed := a.committed + s.actual - item.committed
                 released := a.released + item.refund s.actual })
    refine ⟨fun scope' hne ↦ ?_, fun id hne ↦ ?_, fun id hne ↦ ?_⟩
    · rw [Db.quota, Db.modifyItem_quotas, halerts.quotas]
      rfl
    · rw [Db.account, Db.modifyItem_accounts, halerts.accounts]
      exact Table.find_modify_of_ne (by intro; rfl) (fun he ↦ hne (by rw [he])) _
    · rw [Db.modifyItem_items, halerts.items]
      exact Table.find_modify_of_ne (by intro; rfl) hne _

theorem applyItem_applyItemOk {item' : ReservationItem} (hid : item.id ≠ item'.id)
    (htarget : item.target ≠ item'.target) (h : applyItem row s db₁ item = .ok db₂) :
    ApplyItemOk row s item' db₂ ↔ ApplyItemOk row s item' db₁ := by
  obtain ⟨hquota, haccount, hitem⟩ := applyItem_lookups h
  rw [ApplyItemOk, ApplyItemOk, hitem item'.id (Ne.symm hid)]
  cases ht : item'.target with
  | quota scope => simp only [hquota scope (ht ▸ htarget)]
  | account id => simp only [haccount id (ht ▸ htarget)]

/-- What an item was taken from is there, so only the range of its columns matters. -/
theorem applyItemOk_iff (hwf : db.WF) (hrow : row ∈ db.reservations)
    (hitem : item ∈ db.itemsOf row.id) :
    ApplyItemOk row s item db ↔ item.ChargeFits s.actual db := by
  obtain ⟨hmem, hid⟩ := mem_itemsOf.mp hitem
  rw [ApplyItemOk, ReservationItem.ChargeFits, hwf.items.find_of_mem hmem, and_comm]
  refine and_congr (by simp) ?_
  cases ht : item.target with
  | quota scope =>
    obtain ⟨q, hq, rfl, hcur⟩ := hwf.itemQuota item hmem scope ht
    have hfind : db.quota q.scope = some q := hwf.quotas.find_of_mem hq
    have huniq : ∀ q' ∈ db.quotas, q'.scope = q.scope → q' = q :=
      fun q' hq' he ↦ hwf.quotas.eq_of_key hq' hq he
    dsimp only
    constructor
    · rintro ⟨q', hq', -, hfits⟩ q'' hq'' he
      rw [hfind, Option.some.injEq] at hq'
      rwa [huniq q'' hq'' he, hq']
    · intro hfits
      exact ⟨q, hfind, hcur row hrow hid.symm, hfits q hq rfl⟩
  | account id =>
    obtain ⟨a, ha, rfl⟩ := hwf.itemAccount item hmem id ht
    have hfind : db.account a.id = some a := hwf.accounts.find_of_mem ha
    have huniq : ∀ a' ∈ db.accounts, a'.id = a.id → a' = a :=
      fun a' ha' he ↦ hwf.accounts.eq_of_key ha' ha he
    dsimp only
    constructor
    · rintro ⟨a', ha', hfits⟩ a'' ha'' he
      rw [hfind, Option.some.injEq] at ha'
      rwa [huniq a'' ha'' he, ha']
    · intro hfits
      exact ⟨a, hfind, hfits a ha rfl⟩

theorem recordUsage_ok_iff : (∃ db₂, recordUsage row s db₁ = .ok db₂) ↔ s.UsageFits := by
  rw [recordUsage, Settlement.UsageFits]
  cases s.usage with
  | none => simp
  | some rec =>
    by_cases hknown : s.outcome = .known
    · simp only [hknown, if_true, insertUsageRecord]
      split
      · rename_i hfits
        simpa using hfits
      · rename_i hfits
        simpa using hfits
    · simp [hknown]

/-- **When a settlement can be applied**: iff everything that is written fits its column. -/
theorem applyReservation_ok_iff (now : Time) (s : Settlement) (status : Status) (hwf : db.WF)
    (hrow : row ∈ db.reservations) :
    (∃ db', applyReservation now row s status db = .ok db') ↔ db.ApplyFits row.id s := by
  have hperm := orderedItems_perm row.id db
  have hloop : (∃ db₁, (orderedItems row.id db).foldlM (applyItem row s) db = .ok db₁) ↔
      ∀ i ∈ orderedItems row.id db, ApplyItemOk row s i db := by
    refine Loop.foldlM_ok_iff (I := fun _ ↦ True) (fun _ _ _ _ ↦ applyItem_ok_iff)
      (fun _ _ _ _ _ _ ↦ trivial) ?_ trivial
    have hnodup : (orderedItems row.id db).Nodup :=
      hperm.nodup_iff.mpr ((List.Nodup.of_map _ hwf.items).filter _)
    refine hnodup.imp_of_mem fun {i j} hi hj hne db₁ db₂ _ h ↦ ?_
    obtain ⟨him, hir⟩ := mem_itemsOf.mp (hperm.mem_iff.mp hi)
    obtain ⟨hjm, hjr⟩ := mem_itemsOf.mp (hperm.mem_iff.mp hj)
    refine applyItem_applyItemOk (fun he ↦ hne (hwf.items.eq_of_key him hjm he)) (fun he ↦ ?_) h
    exact hne (hwf.itemTargets.eq_of_key him hjm (by rw [hir, hjr, he]))
  have hitems : (∀ i ∈ orderedItems row.id db, ApplyItemOk row s i db) ↔
      ∀ i ∈ db.itemsOf row.id, i.ChargeFits s.actual db :=
    ⟨fun h i hi ↦ (applyItemOk_iff hwf hrow hi).mp (h i (hperm.mem_iff.mpr hi)),
      fun h i hi ↦ (applyItemOk_iff hwf hrow (hperm.mem_iff.mp hi)).mpr (h i (hperm.mem_iff.mp hi))⟩
  rw [Db.ApplyFits, ← hitems, ← hloop]
  constructor
  · rintro ⟨db', h⟩
    obtain ⟨db₁, h₁, h⟩ := Loop.bind_eq_ok.mp h
    obtain ⟨db₂, h₂, -⟩ := Loop.bind_eq_ok.mp h
    exact ⟨⟨db₁, h₁⟩, recordUsage_ok_iff.mp ⟨db₂, h₂⟩⟩
  · rintro ⟨⟨db₁, h₁⟩, husage⟩
    obtain ⟨db₂, h₂⟩ := recordUsage_ok_iff.mpr husage
    exact ⟨_, Loop.bind_eq_ok.mpr ⟨db₁, h₁, Loop.bind_eq_ok.mpr ⟨db₂, h₂, rfl⟩⟩⟩

end Fits

end Voxeltoad
