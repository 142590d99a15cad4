import Voxeltoad.Lib.Run
import Voxeltoad.Store.Budget

/-!
# The accounting store as a state machine

Every transaction on the accounting tables, whoever issues it, is an `Op`.  PostgreSQL's row locks
serialise transactions that touch the same rows, so a concurrent execution is a sequence of
operations, and a statement about every sequence (`run`) is a statement about every interleaving.

`Finish` contributes two operations, `finishFirst` and `applyPending`; a crash between them is a
sequence in which the second one does not follow.  `RetryPending` reads the ids of the pending
reservations and runs `applyPending` on each, one transaction at a time, so it contributes further
`applyPending` operations; `retryPending_eq_run` says so for a run that is not interleaved with
anything else.

Some of what is claimed about the store is about its *past*: what was ever credited to a scope,
which settlements were ever applied.  `History` records that beside the database.  Nothing in the
database depends on it.
-/

set_option autoImplicit false

namespace Voxeltoad

/-- A transaction on the accounting tables.  `now` is the clock the transaction reads. -/
inductive Op where
  | reserve (now : Time) (req : ReservationRequest)
  /-- The `UPDATE` of `MarkDispatched`, the only part of it that writes. -/
  | markDispatched (now : Time) (id : String)
  | finishFirst (now : Time) (s : Settlement)
  | applyPending (now : Time) (id : String)
  | markStale (now before : Time) (locked : List String)
  | resolve (tenantID : Int) (now : Time) (id : String) (res : Resolution)
  | createPolicy (tenantID : Int) (now : Time) (spec : BudgetSpec)
  | patch (tenantID : Int) (now : Time) (id : Int) (p : BudgetPatch)
  | topUp (scope : String) (delta : Int) (currency : String)

variable (zones : Zones)

/-- The transaction an operation runs. -/
def Op.tx : Op → Db → Except AccountingError Db
  | .reserve now req, db => Voxeltoad.reserve zones now req db
  | .markDispatched now id, db => .ok (markDispatchedUpdate now id db)
  | .finishFirst now s, db => Voxeltoad.finishFirst now s db
  | .applyPending now id, db => Voxeltoad.applyPending now id db
  | .markStale now before locked, db => Voxeltoad.markStale now before locked db
  | .resolve tenantID now id res, db => Voxeltoad.resolve tenantID now id res db
  | .createPolicy tenantID now spec, db => Voxeltoad.createPolicy zones tenantID now spec db
  | .patch tenantID now id p, db => Voxeltoad.patch zones tenantID now id p db
  | .topUp scope delta currency, db => Voxeltoad.topUp scope delta currency db

/-- Commit a transaction, or roll it back. -/
def commit (tx : Db → Except AccountingError Db) (db : Db) : Db × Option AccountingError :=
  match tx db with
  | .ok db' => (db', none)
  | .error e => (db, some e)

/-! ## What happened -/

/-- A settlement that was applied to a reservation, with the items as they were just before. -/
structure Applied where
  reservationID : String
  settlement : Settlement
  status : Status
  items : List ReservationItem
  deriving DecidableEq, Repr

/-- What was ever credited to the quota scopes, and every settlement that was ever applied, in
order. -/
structure History where
  credits : List (String × Int)
  applied : List Applied
  deriving DecidableEq, Repr

/-- What an operation that succeeds in `db` credits. -/
def Op.credits : Op → List (String × Int)
  | .topUp scope delta _ => [(scope, delta)]
  | _ => []

/-- The settlement an operation that succeeds in `db` applies, if any. -/
def Op.applied (db : Db) : Op → List Applied
  | .applyPending _ id =>
    match db.reservation id with
    | none => []
    | some row =>
      if row.resultApplied then []
      else (row.result.map fun s ↦ (⟨id, s, s.status, db.itemsOf id⟩ : Applied)).toList
  | .resolve _ _ id res => [⟨id, res.settlement id, res.status, db.itemsOf id⟩]
  | _ => []

/-- The database and its past. -/
structure State where
  db : Db
  history : History
  deriving DecidableEq, Repr

/-- One transaction: it succeeds and leaves its mark on the history, or nothing happens. -/
def step (st : State) (op : Op) : State :=
  match op.tx zones st.db with
  | .error _ => st
  | .ok db => ⟨db, st.history.credits ++ op.credits, st.history.applied ++ op.applied st.db⟩

/-- The database before the first operation: whoever is billed is there, and so are balances that
are older than the accounting tables.  Those tables are empty; the policies are created by
operations. -/
structure Db.Initial (db : Db) : Prop where
  /-- Identity columns start at one. -/
  tenantID : ∀ t ∈ db.tenants, t.id ≠ 0
  /-- `quotas.scope` is a primary key. -/
  quotas : Table.Keyed QuotaRow.scope db.quotas
  /-- The balances that are already there have labels of ASCII text. -/
  quotaLabel : ∀ q ∈ db.quotas, AsciiLabel q.currency
  policies : db.policies = []
  accounts : db.accounts = []
  reservations : db.reservations = []
  items : db.items = []
  events : db.events = []
  usageRecords : db.usageRecords = []

/-- A tenant `t` with a balance of ten, and nothing else. -/
def Db.sample : Db where
  tenants := [⟨1, "t"⟩]
  groups := []
  applications := []
  apiKeys := []
  quotas := [⟨"tenant:t", 10, "usd"⟩]
  policies := []
  accounts := []
  reservations := []
  items := []
  events := []
  usageRecords := []
  policySeq := 1
  accountSeq := 1
  itemSeq := 1
  eventSeq := 1

theorem Db.sample_initial : Db.sample.Initial := by
  constructor <;> simp [Db.sample, Table.Keyed, AsciiLabel]

/-- A request of the tenant `t`. -/
def ReservationRequest.sample (id : String) (estimate : Int) : ReservationRequest :=
  ⟨id, id, "t", "", "", none, "", "usd", estimate, .absent⟩

/-- The state before the first operation: what the quotas hold counts as credited to them. -/
def State.start (db : Db) : State :=
  ⟨db, db.quotas.map fun q ↦ (q.scope, q.balance), []⟩

/-- The state after a sequence of transactions. -/
def runOps (db : Db) (ops : List Op) : State := Run.run (step zones) (State.start db) ops

/-- A budget of five a day with an alert at half of it, and a reservation that is charged more than
it reserved. -/
def Op.sample : List Op :=
  [.createPolicy 1 0 ⟨"p", some .tenant, "", "", some .daily, "", "usd", 5, some .enforce, [50]⟩,
    .reserve 0 (.sample "a" 3), .markDispatched 1 "a",
    .finishFirst 2 ⟨"a", .known, 4, "", false, none⟩, .applyPending 3 "a"]

/-! ## Whole calls as operations -/

variable {zones}

theorem step_of_error {st : State} {op : Op} {e : AccountingError}
    (h : op.tx zones st.db = .error e) : step zones st op = st := by
  rw [step, h]

theorem step_of_ok {st : State} {op : Op} {db : Db} (h : op.tx zones st.db = .ok db) :
    step zones st op =
      ⟨db, st.history.credits ++ op.credits, st.history.applied ++ op.applied st.db⟩ := by
  rw [step, h]

/-- `Finish` is its two transactions. -/
theorem finish_eq_run (now : Time) (s : Settlement) (st : State) (h : s.outcome ≠ .unknown)
    {db : Db} (hok : finishFirst now s st.db = .ok db) :
    (finish now s st.db).1 = (Run.run (step zones) st
      [.finishFirst now s, .applyPending now s.reservationID]).db := by
  have hfirst : Op.tx zones (.finishFirst now s) st.db = .ok db := hok
  rw [Run.run_cons, Run.run_cons, Run.run_nil, step_of_ok hfirst, finish, hok]
  simp only [h, if_false]
  cases hap : applyPending now s.reservationID db with
  | error e =>
    have htx : Op.tx zones (.applyPending now s.reservationID) db = .error e := hap
    rw [step, htx]
  | ok db' =>
    have htx : Op.tx zones (.applyPending now s.reservationID) db = .ok db' := hap
    rw [step, htx]

/-- The loop of `RetryPending`, whatever errors it has collected so far. -/
theorem retryLoop_eq_run (now : Time) (ids : List String) (st : State)
    (errs : List (String × AccountingError)) :
    (ids.foldl (fun (db, errs) id ↦
      match applyPending now id db with
      | .ok db' => (db', errs)
      | .error e => (db, errs ++ [(id, e)])) (st.db, errs)).1 =
      (Run.run (step zones) st (ids.map fun id ↦ .applyPending now id)).db := by
  induction ids generalizing st errs with
  | nil => rfl
  | cons id ids ih =>
    rw [List.foldl_cons, List.map_cons, Run.run_cons]
    cases hap : applyPending now id st.db with
    | error e =>
      have htx : Op.tx zones (.applyPending now id) st.db = .error e := hap
      rw [step_of_error htx]
      simp only [hap]
      exact ih st _
    | ok db' =>
      have htx : Op.tx zones (.applyPending now id) st.db = .ok db' := hap
      rw [step_of_ok htx]
      simp only [hap]
      exact ih ⟨db', _⟩ errs

/-- `RetryPending` is a sequence of `applyPending` transactions. -/
theorem retryPending_eq_run (now : Time) (limit : Int) (st : State) :
    (retryPending now limit st.db).1 = (Run.run (step zones) st
      ((pendingIDs limit st.db).map fun id ↦ .applyPending now id)).db :=
  retryLoop_eq_run now _ st []

end Voxeltoad
