import Voxeltoad.Store.Lifecycle

/-!
# Conservation of money

The counters of quotas and accounts are kept incrementally, by every transaction that holds, gives
back or charges anything.  The items are the other side of the ledger: what is held on, charged to
and given back by each of them.  `Db.Books` says that the two sides agree, that is, that

* a quota and its items together hold everything that was ever credited to the quota, and
* the three counters of an account are the sums of the three columns of its items.

Each of the six effects keeps the books (`Effect.books`), hence so does every run
(`money_conservation`).
-/

set_option autoImplicit false

namespace Voxeltoad

/-- What was credited to a scope. -/
def credited (scope : String) (credits : List (String × Int)) : Int :=
  Table.sumOver (fun c ↦ c.1 = scope) Prod.snd credits

namespace Db

/-- The sum of a column over the items of a target. -/
def itemSum (target : Target) (g : ReservationItem → Int) (db : Db) : Int :=
  Table.sumOver (fun i ↦ i.target = target) g db.items

/-- **The books balance.** -/
structure Books (credits : List (String × Int)) (db : Db) : Prop where
  quota : ∀ q ∈ db.quotas,
    q.balance + db.itemSum (.quota q.scope) (fun i ↦ i.held + i.committed) =
      credited q.scope credits
  /-- Nothing was credited to a scope that has no row. -/
  uncredited : ∀ scope, db.quota scope = none → credited scope credits = 0
  reserved : ∀ a ∈ db.accounts, a.reserved = db.itemSum (.account a.id) ReservationItem.held
  committed : ∀ a ∈ db.accounts, a.committed = db.itemSum (.account a.id) ReservationItem.committed
  released : ∀ a ∈ db.accounts, a.released = db.itemSum (.account a.id) ReservationItem.released

section Sums

variable {db db' : Db} {target : Target} {g : ReservationItem → Int}

theorem itemSum_insertItem (reservationID : String) (t : Target) (estimate : Int) :
    (db.insertItem reservationID t estimate).itemSum target g =
      db.itemSum target g +
        if t = target then g ⟨db.itemSeq, reservationID, t, estimate, estimate, 0, 0⟩ else 0 := by
  rw [itemSum, insertItem_items, Table.sumOver_append, Table.sumOver_cons, Table.sumOver_nil,
    add_zero]
  rfl

/-- What charging the items of a reservation does to a sum over items. -/
theorem itemSum_settledBy {now : Time} {row : ReservationRow} {s : Settlement} {status : Status}
    (h : SettledBy now row s status db db') :
    db'.itemSum target g = db.itemSum target g +
      Table.sumOver (fun i ↦ i.target = target) (fun i ↦ g (i.charged s.actual) - g i)
        (db.itemsOf row.id) := by
  rw [itemSum, h.items, Table.sumOver_map, itemSum, itemsOf, Table.sumOver_filter]
  refine (Table.sumOver_add fun i _ ↦ ?_).symm
  by_cases hr : i.reservationID = row.id
  · by_cases hi : i.target = target
    · simp [hr, hi]
    · simp [hr, hi]
  · simp [hr]

section Settle

variable {now : Time} {row : ReservationRow} {s : Settlement} {status : Status}

theorem itemSum_balance (h : SettledBy now row s status db db') :
    db'.itemSum target (fun i ↦ i.held + i.committed) =
      db.itemSum target (fun i ↦ i.held + i.committed) -
        Table.sumOver (fun i ↦ i.target = target) (fun i ↦ i.held + i.committed - s.actual)
          (db.itemsOf row.id) := by
  rw [itemSum_settledBy h, sub_eq_add_neg, ← Table.sumOver_neg]
  simp

theorem itemSum_held (h : SettledBy now row s status db db') :
    db'.itemSum target ReservationItem.held = db.itemSum target ReservationItem.held -
      Table.sumOver (fun i ↦ i.target = target) ReservationItem.held (db.itemsOf row.id) := by
  rw [itemSum_settledBy h, sub_eq_add_neg, ← Table.sumOver_neg]
  simp

theorem itemSum_committed (h : SettledBy now row s status db db') :
    db'.itemSum target ReservationItem.committed = db.itemSum target ReservationItem.committed +
      Table.sumOver (fun i ↦ i.target = target) (fun i ↦ s.actual - i.committed)
        (db.itemsOf row.id) :=
  itemSum_settledBy h

theorem itemSum_released (h : SettledBy now row s status db db') :
    db'.itemSum target ReservationItem.released = db.itemSum target ReservationItem.released +
      Table.sumOver (fun i ↦ i.target = target) (fun i ↦ i.refund s.actual)
        (db.itemsOf row.id) := by
  rw [itemSum_settledBy h]
  simp

end Settle

end Sums

/-! ## Each effect keeps the books -/

namespace Books

variable {credits : List (String × Int)} {db db' : Db}

/-- The books only look at the quotas, the accounts and the items. -/
theorem congr (h : Books credits db) (hq : db'.quotas = db.quotas)
    (ha : db'.accounts = db.accounts) (hi : db'.items = db.items) : Books credits db' := by
  have hsum : ∀ t g, db'.itemSum t g = db.itemSum t g := fun t g ↦ by rw [itemSum, hi]; rfl
  refine ⟨fun q hq' ↦ ?_, fun scope hs ↦ ?_, fun a ha' ↦ ?_, fun a ha' ↦ ?_, fun a ha' ↦ ?_⟩
  · rw [hsum]
    exact h.quota q (hq ▸ hq')
  · refine h.uncredited scope ?_
    rw [Db.quota, ← hq]
    exact hs
  · rw [hsum]
    exact h.reserved a (ha ▸ ha')
  · rw [hsum]
    exact h.committed a (ha ▸ ha')
  · rw [hsum]
    exact h.released a (ha ▸ ha')

theorem settle {now : Time} {row : ReservationRow} {s : Settlement} {status : Status}
    (h : Books credits db) (hset : SettledBy now row s status db db') : Books credits db' := by
  have haccount : ∀ a ∈ db'.accounts, ∃ a₀ ∈ db.accounts,
      a₀.charged (db.itemsOf row.id) s.actual = a := fun a ha ↦ by
    rw [hset.accounts] at ha
    exact List.mem_map.mp ha
  refine ⟨fun q hq ↦ ?_, fun scope hs ↦ ?_, fun a ha ↦ ?_, fun a ha ↦ ?_, fun a ha ↦ ?_⟩
  · rw [hset.quotas] at hq
    obtain ⟨q₀, hq₀, rfl⟩ := List.mem_map.mp hq
    rw [itemSum_balance hset]
    exact (add_add_sub_cancel _ _ _).trans (h.quota q₀ hq₀)
  · refine h.uncredited scope ?_
    have hnone := Table.find_eq_none_iff.mp hs
    rw [hset.quotas] at hnone
    exact Table.find_eq_none_iff.mpr fun q hq ↦
      hnone (q.charged _ _) (List.mem_map_of_mem hq)
  · obtain ⟨a₀, ha₀, rfl⟩ := haccount a ha
    rw [itemSum_held hset]
    exact congrArg (· - _) (h.reserved a₀ ha₀)
  · obtain ⟨a₀, ha₀, rfl⟩ := haccount a ha
    rw [itemSum_committed hset]
    exact congrArg (· + _) (h.committed a₀ ha₀)
  · obtain ⟨a₀, ha₀, rfl⟩ := haccount a ha
    rw [itemSum_released hset]
    exact congrArg (· + _) (h.released a₀ ha₀)

/-- What is held on a quota is taken from its balance. -/
theorem holdQuota (h : Books credits db) (req : ReservationRequest) (q : QuotaRow) :
    Books credits
    ((db.modifyQuota q.scope fun q ↦ { q with balance := q.balance - req.estimate }).insertItem
      req.id (.quota q.scope) req.estimate) := by
  have haccount : ∀ (id : Int) (g : ReservationItem → Int),
      ((db.modifyQuota q.scope fun q ↦ { q with balance := q.balance - req.estimate }).insertItem
        req.id (.quota q.scope) req.estimate).itemSum (.account id) g =
      db.itemSum (.account id) g := by
    intro id g
    rw [itemSum_insertItem, if_neg (by simp), add_zero]
    rfl
  refine ⟨fun q' hq' ↦ ?_, fun scope hs ↦ ?_, fun a ha ↦ ?_, fun a ha ↦ ?_, fun a ha ↦ ?_⟩
  · obtain ⟨q₀, hq₀, rfl⟩ := Table.mem_modify.mp hq'
    have hbooks := h.quota q₀ hq₀
    rw [itemSum_insertItem]
    by_cases hs : q₀.scope = q.scope
    · rw [if_pos hs]
      rw [hs] at hbooks
      simp only [hs, if_true]
      refine Eq.trans ?_ hbooks
      show q₀.balance - req.estimate + (_ + (req.estimate + 0)) = q₀.balance + _
      rw [add_zero, sub_add_add_cancel]
      rfl
    · rw [if_neg hs, if_neg (by simpa using Ne.symm hs), add_zero]
      exact hbooks
  · refine h.uncredited scope (Table.find_eq_none_iff.mpr fun q' hq' he ↦ ?_)
    refine Table.find_eq_none_iff.mp hs _ (Table.mem_modify.mpr ⟨q', hq', rfl⟩) ?_
    split <;> exact he
  · rw [haccount]
    exact h.reserved a ha
  · rw [haccount]
    exact h.committed a ha
  · rw [haccount]
    exact h.released a ha

/-- No item is on an account that has just been opened. -/
theorem openAccount (h : Books credits db) (hwf : db.WF) {row : BudgetAccountRow}
    (hid : row.id = db.accountSeq) (hreserved : row.reserved = 0) (hcommitted : row.committed = 0)
    (hreleased : row.released = 0) : Books credits (db.insertAccount row) := by
  have hzero : ∀ g, db.itemSum (.account row.id) g = 0 := fun g ↦
    Table.sumOver_eq_zero fun i hi ht ↦ by
      obtain ⟨a, ha, he⟩ := hwf.itemAccount i hi _ ht
      exact absurd (hwf.accountSeq a ha) (by omega)
  refine ⟨h.quota, h.uncredited, fun a ha ↦ ?_, fun a ha ↦ ?_, fun a ha ↦ ?_⟩
  all_goals
    rw [insertAccount_accounts, List.mem_append, List.mem_singleton] at ha
  · rcases ha with ha | rfl
    · exact h.reserved a ha
    · exact hreserved.trans (hzero _).symm
  · rcases ha with ha | rfl
    · exact h.committed a ha
    · exact hcommitted.trans (hzero _).symm
  · rcases ha with ha | rfl
    · exact h.released a ha
    · exact hreleased.trans (hzero _).symm

/-- What is held on an account is counted as reserved. -/
theorem holdAccount (h : Books credits db) (req : ReservationRequest) (a : BudgetAccountRow) :
    Books credits
    ((db.modifyAccount a.id fun a ↦ { a with reserved := a.reserved + req.estimate }).insertItem
      req.id (.account a.id) req.estimate) := by
  refine ⟨fun q hq ↦ ?_, h.uncredited, fun a' ha' ↦ ?_, fun a' ha' ↦ ?_, fun a' ha' ↦ ?_⟩
  · rw [itemSum_insertItem, if_neg (by simp), add_zero]
    exact h.quota q hq
  all_goals
    obtain ⟨a₀, ha₀, rfl⟩ := Table.mem_modify.mp ha'
    rw [itemSum_insertItem]
  · by_cases hid : a₀.id = a.id
    · simp only [hid, if_true]
      rw [h.reserved a₀ ha₀, hid]
      rfl
    · rw [if_neg hid, if_neg (by simpa using Ne.symm hid), add_zero]
      exact h.reserved a₀ ha₀
  · have hzero : ∀ t t' : Target, (if t = t' then (0 : Int) else 0) = 0 := fun _ _ ↦ ite_self 0
    rw [hzero, add_zero]
    split <;> exact h.committed a₀ ha₀
  · have hzero : ∀ t t' : Target, (if t = t' then (0 : Int) else 0) = 0 := fun _ _ ↦ ite_self 0
    rw [hzero, add_zero]
    split <;> exact h.released a₀ ha₀

theorem hold {req : ReservationRequest} (h : Books credits db) (hwf : db.WF)
    (hstep : Hold req db db') : Books credits db' := by
  cases hstep with
  | quota q => exact h.holdQuota req q
  | openAccount p start stop hp hnew => exact h.openAccount hwf rfl rfl rfl rfl
  | account p a => exact h.holdAccount req a

theorem limit (h : Books credits db) (tenantID id l : Int) (enabled : Bool)
    (account : Option BudgetAccountRow) :
    Books credits (patched tenantID id l enabled account db) := by
  have halerts := patched_sameButAlerts tenantID id l enabled account db
  refine Books.congr ?_ halerts.quotas halerts.accounts halerts.items
  cases account with
  | none => exact h.congr rfl rfl rfl
  | some account =>
    refine ⟨h.quota, h.uncredited, fun a ha ↦ ?_, fun a ha ↦ ?_, fun a ha ↦ ?_⟩
    all_goals
      obtain ⟨a₀, ha₀, rfl⟩ := Table.mem_modify.mp ha
    · split <;> exact h.reserved a₀ ha₀
    · split <;> exact h.committed a₀ ha₀
    · split <;> exact h.released a₀ ha₀

theorem credited_append (scope : String) (delta : Int) (scope' : String) :
    credited scope' (credits ++ [(scope, delta)]) =
      credited scope' credits + if scope = scope' then delta else 0 := by
  rw [credited, Table.sumOver_append, Table.sumOver_cons, Table.sumOver_nil, add_zero]
  rfl

theorem credit (h : Books credits db) (hwf : db.WF) {scope : String} {delta : Int}
    (heq : (db.quota scope = none ∧ ∃ currency, validCurrency currency = true ∧
        db' = db.insertQuota ⟨scope, delta, currency⟩) ∨
      (db.quota scope).isSome ∧
        db' = db.modifyQuota scope fun q ↦ { q with balance := q.balance + delta }) :
    Books (credits ++ [(scope, delta)]) db' := by
  rcases heq with ⟨hnone, currency, -, rfl⟩ | ⟨hsome, rfl⟩
  · -- no item is on a quota that has just been inserted
    have hzero : ∀ g, db.itemSum (.quota scope) g = 0 := fun g ↦
      Table.sumOver_eq_zero fun i hi ht ↦ by
        obtain ⟨q, hq, he, -⟩ := hwf.itemQuota i hi _ ht
        exact absurd he (Table.find_eq_none_iff.mp hnone q hq)
    refine ⟨fun q hq ↦ ?_, fun scope' hs ↦ ?_, h.reserved, h.committed, h.released⟩
    · rw [insertQuota_quotas, List.mem_append, List.mem_singleton] at hq
      rw [credited_append]
      rcases hq with hq | rfl
      · have hne : scope ≠ q.scope := fun he ↦ Table.find_eq_none_iff.mp hnone q hq he.symm
        rw [if_neg hne, add_zero]
        exact h.quota q hq
      · rw [h.uncredited scope hnone, if_pos rfl, zero_add]
        show delta + db.itemSum (.quota scope) _ = delta
        rw [hzero, add_zero]
    · have hs' := Table.find_eq_none_iff.mp hs
      rw [insertQuota_quotas] at hs'
      have hne : scope ≠ scope' := hs' _ (List.mem_append_right _ (List.mem_singleton_self _))
      rw [credited_append, if_neg hne, add_zero]
      exact h.uncredited scope' (Table.find_eq_none_iff.mpr fun q hq ↦
        hs' q (List.mem_append_left _ hq))
  · refine ⟨fun q hq ↦ ?_, fun scope' hs ↦ ?_, h.reserved, h.committed, h.released⟩
    · obtain ⟨q₀, hq₀, rfl⟩ := Table.mem_modify.mp hq
      have hbooks := h.quota q₀ hq₀
      rw [credited_append]
      split
      · rename_i he
        rw [if_pos (show scope = q₀.scope from he.symm), ← hbooks]
        show q₀.balance + delta + db.itemSum (.quota q₀.scope) _ = _
        ring
      · rename_i he
        rw [if_neg (show scope ≠ q₀.scope from Ne.symm he), add_zero]
        exact hbooks
    · have hs' : db.quota scope' = none := by
        rw [Db.quota, modifyQuota_quotas, Table.find_modify (by intro; rfl),
          Option.map_eq_none_iff] at hs
        exact hs
      have hne : scope ≠ scope' := by
        rintro rfl
        rw [hs'] at hsome
        cases hsome
      rw [credited_append, if_neg hne, add_zero]
      exact h.uncredited scope' hs'

end Books

end Db

/-! ## Whole runs -/

/-- **Every effect keeps the books.** -/
theorem Effect.books {op : Op} {db db' : Db} {credits : List (String × Int)} (hwf : db.WF)
    (h : Effect op db db') (hbooks : db.Books credits) : db'.Books (credits ++ op.credits) := by
  cases h with
  | rows hsame hcredits =>
    rw [hcredits, List.append_nil]
    exact hbooks.congr hsame.quotas hsame.accounts hsame.items
  | settle now row s status db₁ hrow hdue hok hsame hres hcredits =>
    rw [hcredits, List.append_nil]
    exact hbooks.settle ((applyReservation_ok hwf.items hok).of_sameBooks hsame hres)
  | hold now req tenantID hnew hest hholds hcredits =>
    rw [hcredits, List.append_nil]
    exact hholds.rec_on (P := fun db ↦ db.Books credits)
      (fun _ _ hwf' _ hstep hb ↦ hb.hold hwf' hstep) (hbooks.congr rfl rfl rfl)
  | policy row hid hlimit heq hcredits =>
    subst heq
    rw [hcredits, List.append_nil]
    exact hbooks.congr rfl rfl rfl
  | limit tenantID row limit enabled start hrow hlimit heq hcredits =>
    subst heq
    rw [hcredits, List.append_nil]
    exact hbooks.limit ..
  | credit scope delta heq hcredits =>
    rw [hcredits]
    exact hbooks.credit hwf heq

theorem books_step {zones : Zones} {st : State} (h : st.Good) (op : Op)
    (hbooks : st.db.Books st.history.credits) :
    (step zones st op).db.Books (step zones st op).history.credits := by
  rcases step_effect zones op h.wf with hstay | ⟨heff, hcredits, -⟩
  · rw [hstay]
    exact hbooks
  · rw [hcredits]
    exact heff.books h.wf hbooks

theorem books_start {db : Db} (h : db.Initial) :
    (State.start db).db.Books (State.start db).history.credits := by
  have hcredited : ∀ scope, credited scope (db.quotas.map fun q ↦ (q.scope, q.balance)) =
      Table.sumOver (fun q ↦ q.scope = scope) QuotaRow.balance db.quotas :=
    fun scope ↦ Table.sumOver_map
  refine ⟨fun q hq ↦ ?_, fun scope hs ↦ ?_, ?_, ?_, ?_⟩
  · have hsum : (State.start db).db.itemSum (.quota q.scope)
        (fun i ↦ i.held + i.committed) = 0 := by
      rw [Db.itemSum, show (State.start db).db.items = [] from h.items]
      rfl
    rw [hsum, add_zero, State.start, hcredited]
    exact (Table.sumOver_eq_single (List.Nodup.of_map _ h.quotas) hq fun q' hq' ↦
      ⟨fun he ↦ h.quotas.eq_of_key hq' hq he, fun he ↦ by rw [he]⟩).symm
  · rw [State.start, hcredited]
    exact Table.sumOver_eq_zero fun q hq he ↦ absurd he (Table.find_eq_none_iff.mp hs q hq)
  all_goals
    rw [show (State.start db).db.accounts = [] from h.accounts]
    simp

/-- Everything that holds of a state, the books included. -/
theorem books_runOps (zones : Zones) {db : Db} (h : db.Initial) (ops : List Op) :
    (runOps zones db ops).Good ∧
      (runOps zones db ops).db.Books (runOps zones db ops).history.credits :=
  Run.invariant (I := fun st : State ↦ st.Good ∧ st.db.Books st.history.credits)
    (fun _ op hs ↦ ⟨hs.1.step op, books_step hs.1 op hs.2⟩) ops ⟨good_start h, books_start h⟩

/-- The columns of an item are never negative. -/
theorem State.Good.item_nonneg {st : State} (h : st.Good) {i : ReservationItem}
    (hi : i ∈ st.db.items) :
    0 ≤ i.reserved ∧ 0 ≤ i.held ∧ 0 ≤ i.committed ∧ 0 ≤ i.released := by
  obtain ⟨r, hr, hid⟩ := h.wf.itemReservation i hi
  exact (h.rowInv hr).2.nonneg i (mem_itemsOf.mpr ⟨hi, hid.symm⟩)

/-- The loop of `applyReservation` never writes a negative counter either: whichever items `l` have
been charged so far, the counters of the accounts are not negative. -/
theorem charged_nonneg {st : State} (hgood : st.Good) (hbooks : st.db.Books st.history.credits)
    {row : ReservationRow} {s : Settlement} {status : Status}
    (hrow : st.db.reservation row.id = some row) (hdue : row.Due s status)
    {l : List ReservationItem} (hnodup : l.Nodup) (hsub : l ⊆ st.db.itemsOf row.id)
    {a : BudgetAccountRow} (ha : a ∈ st.db.accounts) :
    0 ≤ (a.charged l s.actual).reserved ∧ 0 ≤ (a.charged l s.actual).committed ∧
      0 ≤ (a.charged l s.actual).released := by
  have hmem : l ⊆ st.db.items := fun i hi ↦ (mem_itemsOf.mp (hsub hi)).1
  have hactual := (((hgood.views row.id).rowInv hrow).due hdue).1.actual
  refine ⟨?_, add_nonneg ?_ (Table.sumOver_nonneg fun i hi _ ↦ ?_),
    add_nonneg ?_ (Table.sumOver_nonneg fun i _ _ ↦ View.refund_nonneg i s.actual)⟩
  · show 0 ≤ a.reserved - _
    rw [hbooks.reserved a ha, sub_nonneg]
    exact Table.sumOver_le_of_subset hnodup hmem fun i hi _ ↦ (hgood.item_nonneg hi).2.1
  · rw [hbooks.committed a ha]
    exact Table.sumOver_nonneg fun i hi _ ↦ (hgood.item_nonneg hi).2.2.1
  · rw [hgood.committed_eq_zero hrow hdue (hsub hi), sub_zero]
    exact hactual
  · rw [hbooks.released a ha]
    exact Table.sumOver_nonneg fun i hi _ ↦ (hgood.item_nonneg hi).2.2.2

/-- **Money is conserved.**  In every reachable state, a quota and its items together account for
everything that was ever credited to its scope, and the counters of an account are the sums of its
items' columns; no counter is negative. -/
theorem money_conservation {zones : Zones} {db : Db} (hinit : db.Initial) (ops : List Op) :
    let st := runOps zones db ops
    (∀ q ∈ st.db.quotas,
      q.balance + st.db.itemSum (.quota q.scope) (fun i ↦ i.held + i.committed) =
        credited q.scope st.history.credits) ∧
    (∀ a ∈ st.db.accounts,
      a.reserved = st.db.itemSum (.account a.id) ReservationItem.held ∧
      a.committed = st.db.itemSum (.account a.id) ReservationItem.committed ∧
      a.released = st.db.itemSum (.account a.id) ReservationItem.released) ∧
    (∀ i ∈ st.db.items, 0 ≤ i.reserved ∧ 0 ≤ i.held ∧ 0 ≤ i.committed ∧ 0 ≤ i.released) ∧
    ∀ a ∈ st.db.accounts, 0 ≤ a.reserved ∧ 0 ≤ a.committed ∧ 0 ≤ a.released := by
  intro st
  obtain ⟨hgood, hbooks⟩ := books_runOps zones hinit ops
  have hitems : ∀ i ∈ st.db.items, 0 ≤ i.reserved ∧ 0 ≤ i.held ∧ 0 ≤ i.committed ∧ 0 ≤ i.released :=
    fun i hi ↦ hgood.item_nonneg hi
  refine ⟨hbooks.quota, fun a ha ↦ ⟨hbooks.reserved a ha, hbooks.committed a ha,
    hbooks.released a ha⟩, hitems, fun a ha ↦ ?_⟩
  rw [hbooks.reserved a ha, hbooks.committed a ha, hbooks.released a ha]
  exact ⟨Table.sumOver_nonneg fun i hi _ ↦ (hitems i hi).2.1,
    Table.sumOver_nonneg fun i hi _ ↦ (hitems i hi).2.2.1,
    Table.sumOver_nonneg fun i hi _ ↦ (hitems i hi).2.2.2⟩

/-- In the sample run the balance of ten pays for the charge of four. -/
theorem money_conservation_sample :
    6 + (runOps Zones.utc Db.sample Op.sample).db.itemSum (.quota "tenant:t")
        (fun i ↦ i.held + i.committed) =
      credited "tenant:t" (runOps Zones.utc Db.sample Op.sample).history.credits :=
  (money_conservation Db.sample_initial Op.sample).1 ⟨"tenant:t", 6, "usd"⟩ (by decide)

end Voxeltoad
