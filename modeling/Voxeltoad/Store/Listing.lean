import Mathlib.Data.Prod.Lex
import Mathlib.Data.String.Basic
import Voxeltoad.Admin.Operators
import Voxeltoad.Billing.Cost
import Voxeltoad.Lib.Page
import Voxeltoad.Lib.Sql
import Voxeltoad.Store.Cursor
import Voxeltoad.Store.Schema

/-!
# Listings by cursor

The listings of `internal/store`: `UsageQueryRepo.List`, `AuditQueryRepo.List`, `OperatorRepo.List`
and the three of `BudgetRepo`.  Each puts its conditions together, adds one for the cursor, and asks
for one row more than a page has.  Two of them sort by time and id, newest first; three by id; and
the reservations by an id that is a text, in the order of the database's collation.

What a query selects is said apart from how it is put together (`UsageQuery.Matches`,
`AuditQuery.Matches`).  `listings_complete` is about all of them.
-/

set_option autoImplicit false

namespace Voxeltoad

/-! ## One page -/

section Pages

variable {ρ κ : Type} [LinearOrder κ]

/-- The end of every listing: fetch one row more than a page has, and cut the page off. -/
def fetchPage (rank : ρ → κ) (encode : ρ → String) (table : List ρ) (w : Sql.Where ρ)
    (limit : Int) : Option (List ρ × String) :=
  (Sql.limit rank table w.conds (w.args ++ [.int (int64 (limit + 1))])).map
    (Page.lookAhead encode "" limit.toNat)

/-- `if limit <= 0 { limit = 50 }`. -/
def defaultLimit (limit : Int) : Int := if limit ≤ 0 then 50 else limit

theorem defaultLimit_pos (limit : Int) : 0 < defaultLimit limit := by
  rw [defaultLimit]
  split <;> omega

theorem defaultLimit_lt {limit : Int} (h : limit < 2 ^ 63 - 1) :
    defaultLimit limit < 2 ^ 63 - 1 := by
  rw [defaultLimit]
  split <;> omega

theorem fetchPage_eq {rank : ρ → κ} {encode : ρ → String} {table : List ρ} {w : Sql.Where ρ}
    {P : ρ → Bool} (hw : w.Means P) {limit : Int} (hpos : 0 < limit) (hlt : limit < 2 ^ 63 - 1) :
    fetchPage rank encode table w limit =
      some (Page.keyset rank encode "" limit.toNat (table.filter P)) := by
  have hnext : int64 (limit + 1) = limit + 1 := int64_of_range (by omega) (by omega)
  have hnat : (limit + 1).toNat = limit.toNat + 1 := by omega
  rw [fetchPage, hnext, hw.limit rank table (by omega), hnat]
  rfl

/-- A listing whose cursor adds the condition that a row comes after it. -/
theorem complete_of_fetchPage {rank : ρ → κ} {encode : ρ → String} {table : List ρ} {P : ρ → Bool}
    {list : String → Option (List ρ × String)} {limit : Int} (hpos : 0 < limit)
    (hlt : limit < 2 ^ 63 - 1) (hdistinct : Rank.Distinct rank table)
    (hstart : ∃ w : Sql.Where ρ, w.Means P ∧ list "" = fetchPage rank encode table w limit)
    (hnext : ∀ r ∈ table, ∃ w : Sql.Where ρ, (w.Means fun q ↦ P q && decide (rank r < rank q)) ∧
      list (encode r) = fetchPage rank encode table w limit)
    (hne : ∀ r ∈ table, encode r ≠ "") :
    Page.Complete list "" limit.toNat (Rank.sortBy rank (table.filter P)) := by
  have hfirst : list "" = some (Page.keyset rank encode "" limit.toNat (table.filter P)) := by
    obtain ⟨w, hw, hlist⟩ := hstart
    rw [hlist, fetchPage_eq hw hpos hlt]
  have hafter : ∀ r ∈ table.filter P, list (encode r) = some (Page.keyset rank encode "" limit.toNat
      ((table.filter P).filter fun q ↦ rank r < rank q)) := by
    intro r hr
    obtain ⟨w, hw, hlist⟩ := hnext r (List.mem_of_mem_filter hr)
    rw [hlist, fetchPage_eq hw hpos hlt, List.filter_filter]
    simp only [Bool.and_comm]
  exact Page.complete_of_keyset (by omega) (hdistinct.sublist List.filter_sublist) hfirst hafter
    fun r hr ↦ hne r (List.mem_of_mem_filter hr)

/-- The same for a listing whose first page asks for what ranks above a value that is below every
row. -/
theorem complete_of_above {rank : ρ → κ} {encode : ρ → String} {table : List ρ} {P : ρ → Bool}
    {list : String → Option (List ρ × String)} {limit : Int} {low : κ} (hpos : 0 < limit)
    (hlt : limit < 2 ^ 63 - 1) (hdistinct : Rank.Distinct rank table)
    (hlow : ∀ r ∈ table, low < rank r)
    (hstart : ∃ w : Sql.Where ρ, (w.Means fun q ↦ P q && decide (low < rank q)) ∧
      list "" = fetchPage rank encode table w limit)
    (hnext : ∀ r ∈ table, ∃ w : Sql.Where ρ, (w.Means fun q ↦ P q && decide (rank r < rank q)) ∧
      list (encode r) = fetchPage rank encode table w limit)
    (hne : ∀ r ∈ table, encode r ≠ "") :
    Page.Complete list "" limit.toNat (Rank.sortBy rank (table.filter P)) := by
  have hfilter : table.filter P = table.filter fun q ↦ P q && decide (low < rank q) := by
    refine List.filter_congr fun q hq ↦ ?_
    rw [decide_eq_true (hlow q hq), Bool.and_true]
  rw [hfilter]
  refine complete_of_fetchPage hpos hlt hdistinct hstart (fun r hr ↦ ?_) hne
  obtain ⟨w, hw, hlist⟩ := hnext r hr
  refine ⟨w, hw.congr fun q ↦ ?_, hlist⟩
  have habove : rank r < rank q → low < rank q := lt_trans (hlow r hr)
  by_cases h : rank r < rank q
  · simp [h, habove h]
  · simp [h]

end Pages

/-! ## Newest first -/

section ByTime

variable {ρ : Type} (createdAt : ρ → Time) (id : ρ → Int)

/-- `ORDER BY created_at DESC, id DESC`. -/
def newestFirst (r : ρ) : Lex (Intᵒᵈ × Intᵒᵈ) :=
  toLex (OrderDual.toDual (createdAt r), OrderDual.toDual (id r))

theorem newestFirst_lt_iff {r q : ρ} : newestFirst createdAt id r < newestFirst createdAt id q ↔
    createdAt q < createdAt r ∨ createdAt q = createdAt r ∧ id q < id r := by
  simp only [newestFirst, Prod.Lex.toLex_lt_toLex, OrderDual.toDual_lt_toDual,
    OrderDual.toDual_inj, eq_comm]

/-- A table that is listed by time: no two rows agree in time and id, and both fit a cursor. -/
structure TimeTable where
  rows : List ρ
  distinct : Rank.Distinct (newestFirst createdAt id) rows
  createdAt_range : ∀ r ∈ rows, Int64Range (createdAt r)
  id_range : ∀ r ∈ rows, Int64Range (id r)

variable {createdAt id} in
/-- The rows that satisfy `P`, newest first. -/
def TimeTable.sorted (table : TimeTable createdAt id) (P : ρ → Prop) [DecidablePred P] : List ρ :=
  Rank.sortBy (newestFirst createdAt id) (table.rows.filter fun r ↦ P r)

/-- The condition that a cursor adds. -/
def afterTimeCursor (w : Sql.Where ρ) (cursor : String) : Option (Sql.Where ρ) :=
  if cursor ≠ "" then
    (decodeUsageCursor cursor).map fun (t, n) ↦
      w.add (.pairBelow (fun r ↦ .time (createdAt r)) fun r ↦ .int (id r)) [.time t, .int n]
  else some w

/-- The listings by time have everything in common but their conditions. -/
def listByTime (table : List ρ) (w : Sql.Where ρ) (cursor : String) (limit : Int) :
    Option (List ρ × String) :=
  (afterTimeCursor createdAt id w cursor).bind fun w ↦
    fetchPage (newestFirst createdAt id) (fun r ↦ encodeUsageCursor (createdAt r) (id r)) table w
      (defaultLimit limit)

variable {createdAt id}

theorem listByTime_complete (table : TimeTable createdAt id) {w : Sql.Where ρ} {P : ρ → Prop}
    [DecidablePred P] (hw : w.Means fun r ↦ P r) {limit : Int} (hlimit : limit < 2 ^ 63 - 1) :
    Page.Complete (fun cursor ↦ listByTime createdAt id table.rows w cursor limit) ""
      (defaultLimit limit).toNat (table.sorted P) := by
  rw [TimeTable.sorted]
  refine complete_of_fetchPage (defaultLimit_pos limit) (defaultLimit_lt hlimit) table.distinct
    ⟨w, hw, rfl⟩ ?_ fun r _ ↦ encodeUsageCursor_ne_empty (createdAt r) (id r)
  intro r hr
  have hdecode :=
    decodeUsageCursor_encodeUsageCursor (table.createdAt_range r hr) (table.id_range r hr)
  refine ⟨w.add (.pairBelow (fun r ↦ .time (createdAt r)) fun r ↦ .int (id r))
    [.time (createdAt r), .int (id r)], (hw.add rfl).congr fun q ↦ ?_, ?_⟩
  · simp [newestFirst_lt_iff]
  · rw [listByTime, afterTimeCursor, if_pos (encodeUsageCursor_ne_empty _ _), hdecode]
    rfl

end ByTime

/-! ## Usage records -/

namespace UsageQuery

/-- `UsageRow`. -/
structure UsageRow where
  id : Int
  tenant : String
  groupName : String
  apiKeyID : String
  applicationID : Option Int
  environment : String
  currency : String
  provider : String
  model : String
  promptTokens : Int
  completionTokens : Int
  cost : Int
  cachedPromptTokens : Int
  cacheDiscountMicros : Int
  createdAt : Time
  deriving DecidableEq, Repr

/-- `UsageFilter`. -/
structure UsageFilter where
  applicationID : Option Int
  environment : String
  unattributed : Bool
  provider : String
  model : String
  fromTime : Time
  toTime : Time
  deriving DecidableEq, Repr

abbrev Table := TimeTable UsageRow.createdAt UsageRow.id

/-- The conditions of `List`. -/
def buildWhere (tenant : String) (f : UsageFilter) : Sql.Where UsageRow :=
  (Sql.Where.start .always [])
    |>.addIf (tenant ≠ "") (.eq fun r ↦ .text r.tenant) [.text tenant]
    |>.addSome f.applicationID (.eq fun r ↦ .nullable .int r.applicationID) .int
    |>.addIf f.unattributed (.isNull fun r ↦ .nullable .int r.applicationID) []
    |>.addIf (f.environment ≠ "") (.eq fun r ↦ .text r.environment) [.text f.environment]
    |>.addIf (f.provider ≠ "") (.eq fun r ↦ .text r.provider) [.text f.provider]
    |>.addIf (f.model ≠ "") (.eq fun r ↦ .text r.model) [.text f.model]
    |>.addIf (f.fromTime ≠ zeroTime) (.atLeast fun r ↦ .time r.createdAt) [.time f.fromTime]
    |>.addIf (f.toTime ≠ zeroTime) (.below fun r ↦ .time r.createdAt) [.time f.toTime]

/-- `List`. -/
def list (table : List UsageRow) (tenant : String) (f : UsageFilter) (cursor : String)
    (limit : Int) : Option (List UsageRow × String) :=
  listByTime UsageRow.createdAt UsageRow.id table (buildWhere tenant f) cursor limit

/-- A row is in the repository's tenant and matches every field of the filter that is set. -/
def Matches (tenant : String) (f : UsageFilter) (r : UsageRow) : Prop :=
  (tenant ≠ "" → r.tenant = tenant) ∧
  (∀ a ∈ f.applicationID, r.applicationID = some a) ∧
  (f.unattributed → r.applicationID = none) ∧
  (f.environment ≠ "" → r.environment = f.environment) ∧
  (f.provider ≠ "" → r.provider = f.provider) ∧
  (f.model ≠ "" → r.model = f.model) ∧
  (f.fromTime ≠ zeroTime → f.fromTime ≤ r.createdAt) ∧
  (f.toTime ≠ zeroTime → r.createdAt < f.toTime)

instance (tenant : String) (f : UsageFilter) (r : UsageRow) : Decidable (Matches tenant f r) :=
  inferInstanceAs (Decidable (_ ∧ _ ∧ _ ∧ _ ∧ _ ∧ _ ∧ _ ∧ _))

theorem buildWhere_means (tenant : String) (f : UsageFilter) :
    (buildWhere tenant f).Means fun r ↦ decide (Matches tenant f r) := by
  rw [buildWhere]
  refine .congr
    (.addIf (.addIf (.addIf (.addIf (.addIf (.addIf (.addSome (.addIf (.start rfl) _ rfl)
    _ rfl) _ rfl) _ rfl) _ rfl) _ rfl) _ rfl) _ rfl) fun r ↦ ?_
  rw [Bool.eq_iff_iff]
  simp [Matches, and_assoc, or_iff_not_imp_left, Option.all_eq_true]

/-- A row of tenant `acme`. -/
def UsageRow.sample (id : Int) (createdAt : Time) : UsageRow :=
  ⟨id, "acme", "research", "k1", none, "", "usd", "openai", "gpt-4o", 10, 5, 100, 0, 0, createdAt⟩

/-- Two rows of one time, and an older one that has the greatest id. -/
def Table.sample : Table where
  rows := [.sample 1 2000, .sample 2 2000, .sample 3 1000]
  distinct := by decide
  createdAt_range := by decide
  id_range := by decide

end UsageQuery

/-! ## Audit logs -/

namespace AuditQuery

/-- `AuditRow`; `after` is the text of a JSON column. -/
structure AuditRow where
  id : Int
  operatorID : Option Int
  tenant : Option String
  action : String
  resourceType : String
  resourceID : String
  after : Option String
  createdAt : Time
  deriving DecidableEq, Repr

/-- `AuditFilter`. -/
structure AuditFilter where
  resourceType : String
  resourceID : String
  action : String
  operatorID : Option Int
  fromTime : Time
  toTime : Time
  deriving DecidableEq, Repr

abbrev Table := TimeTable AuditRow.createdAt AuditRow.id

/-- `buildWhere`. -/
def buildWhere (tenant : String) (f : AuditFilter) : Sql.Where AuditRow :=
  (Sql.Where.start .always [])
    |>.addIf (tenant ≠ "") (.eq fun r ↦ .nullable .text r.tenant) [.text tenant]
    |>.addIf (f.resourceType ≠ "") (.eq fun r ↦ .text r.resourceType) [.text f.resourceType]
    |>.addIf (f.resourceID ≠ "") (.eq fun r ↦ .text r.resourceID) [.text f.resourceID]
    |>.addIf (f.action ≠ "") (.eq fun r ↦ .text r.action) [.text f.action]
    |>.addSome f.operatorID (.eq fun r ↦ .nullable .int r.operatorID) .int
    |>.addIf (f.fromTime ≠ zeroTime) (.atLeast fun r ↦ .time r.createdAt) [.time f.fromTime]
    |>.addIf (f.toTime ≠ zeroTime) (.below fun r ↦ .time r.createdAt) [.time f.toTime]

/-- `List`. -/
def list (table : List AuditRow) (tenant : String) (f : AuditFilter) (cursor : String)
    (limit : Int) : Option (List AuditRow × String) :=
  listByTime AuditRow.createdAt AuditRow.id table (buildWhere tenant f) cursor limit

/-- A row is about the repository's tenant and matches every field of the filter that is set. -/
def Matches (tenant : String) (f : AuditFilter) (r : AuditRow) : Prop :=
  (tenant ≠ "" → r.tenant = some tenant) ∧
  (f.resourceType ≠ "" → r.resourceType = f.resourceType) ∧
  (f.resourceID ≠ "" → r.resourceID = f.resourceID) ∧
  (f.action ≠ "" → r.action = f.action) ∧
  (∀ n ∈ f.operatorID, r.operatorID = some n) ∧
  (f.fromTime ≠ zeroTime → f.fromTime ≤ r.createdAt) ∧
  (f.toTime ≠ zeroTime → r.createdAt < f.toTime)

instance (tenant : String) (f : AuditFilter) (r : AuditRow) : Decidable (Matches tenant f r) :=
  inferInstanceAs (Decidable (_ ∧ _ ∧ _ ∧ _ ∧ _ ∧ _ ∧ _))

theorem buildWhere_means (tenant : String) (f : AuditFilter) :
    (buildWhere tenant f).Means fun r ↦ decide (Matches tenant f r) := by
  rw [buildWhere]
  refine .congr
    (.addIf (.addIf (.addSome (.addIf (.addIf (.addIf (.addIf (.start rfl) _ rfl) _ rfl) _ rfl)
    _ rfl) _ rfl) _ rfl) _ rfl) fun r ↦ ?_
  rw [Bool.eq_iff_iff]
  simp [Matches, and_assoc, or_iff_not_imp_left, Option.all_eq_true]

end AuditQuery

/-! ## By id -/

section ByID

variable {ρ : Type} (id : ρ → Int)

/-- A table that is listed by id: the identity column starts at 1. -/
structure IDTable where
  rows : List ρ
  distinct : Rank.Distinct id rows
  pos : ∀ r ∈ rows, 0 < id r
  range : ∀ r ∈ rows, Int64Range (id r)

variable {id} in
/-- The rows that satisfy `P`, by id. -/
def IDTable.sorted (table : IDTable id) (P : ρ → Prop) [DecidablePred P] : List ρ :=
  Rank.sortBy id (table.rows.filter fun r ↦ P r)

/-- The end of the listings by id. -/
def fetchByID (table : List ρ) (w : Sql.Where ρ) (limit : Int) : Option (List ρ × String) :=
  fetchPage id (fun r ↦ encodeIDCursor (id r)) table w limit

variable {id}

theorem complete_of_fetchByID (table : IDTable id) {P : ρ → Prop} [DecidablePred P] {limit : Int}
    (hpos : 0 < limit) (hlt : limit < 2 ^ 63 - 1) {list : String → Option (List ρ × String)}
    {w : Int → Sql.Where ρ} (hw : ∀ n, (w n).Means fun r ↦ P r && decide (n < id r))
    (hstart : list "" = fetchByID id table.rows (w 0) limit)
    (hnext : ∀ n,
      0 < n → Int64Range n → list (encodeIDCursor n) = fetchByID id table.rows (w n) limit) :
    Page.Complete list "" limit.toNat (table.sorted P) :=
  complete_of_above hpos hlt table.distinct table.pos ⟨w 0, hw 0, hstart⟩
    (fun r hr ↦ ⟨w (id r), hw (id r), hnext (id r) (table.pos r hr) (table.range r hr)⟩)
    fun r _ ↦ encodeIDCursor_ne_empty (id r)

end ByID

/-! ## Operators -/

namespace OperatorRepo

open Admin (OperatorRow OperatorInfo)

abbrev Table := IDTable OperatorRow.id

/-- The id a page starts after. -/
def afterID (cursor : String) : Option Int := if cursor ≠ "" then decodeIDCursor cursor else some 0

/-- The conditions of `List`. -/
def above (after : Int) : Sql.Where OperatorRow := .start (.above fun r ↦ .int r.id) [.int after]

/-- `List`. -/
def list (table : List OperatorRow) (cursor : String) (limit : Int) :
    Option (List OperatorInfo × String) :=
  (afterID cursor).bind fun after ↦
    (Sql.limit OperatorRow.id table (above after).conds
      ((above after).args ++ [.int (int64 (defaultLimit limit + 1))])).map fun rows ↦
        Page.lookAhead (fun info ↦ encodeIDCursor info.id) "" (defaultLimit limit).toNat
          (rows.map OperatorRow.info)

theorem above_means (after : Int) :
    (above after).Means fun r ↦ decide True && decide (after < r.id) := by
  rw [above]
  exact .congr (.start rfl) fun r ↦ by simp

/-- The rows of a page of `List`. -/
def listRows (table : List OperatorRow) (limit : Int) (cursor : String) :
    Option (List OperatorRow × String) :=
  (afterID cursor).bind fun after ↦
  fetchByID OperatorRow.id table (above after) (defaultLimit limit)

theorem list_complete (table : Table) {limit : Int} (hlimit : limit < 2 ^ 63 - 1) :
    Page.Complete (fun cursor ↦ list table.rows cursor limit) "" (defaultLimit limit).toNat
      ((table.sorted fun _ ↦ True).map OperatorRow.info) := by
  have hrows : Page.Complete (listRows table.rows limit) "" (defaultLimit limit).toNat
      (table.sorted fun _ ↦ True) := by
    refine complete_of_fetchByID table (defaultLimit_pos limit)
      (defaultLimit_lt hlimit) above_means rfl ?_
    intro n _ hn
    show (afterID (encodeIDCursor n)).bind _ = _
    rw [afterID, if_pos (encodeIDCursor_ne_empty n), decodeIDCursor_encodeIDCursor hn]
    rfl
  refine hrows.map OperatorRow.info fun cursor ↦ ?_
  rw [list, listRows, Option.map_bind]
  refine congrArg _ (funext fun after ↦ ?_)
  simp only [fetchByID, fetchPage, Function.comp_apply, Option.map_map, Page.lookAhead_map]
  rfl

end OperatorRepo

/-! ## Budgets -/

/-- `billing.BudgetPolicy`: a row, with the column that only its listing reads. -/
structure BudgetPolicy extends BudgetPolicyRow where
  createdAt : Time
  deriving DecidableEq, Repr

/-- A row of `budget_events`, with the column that only its listing reads. -/
structure BudgetEventRow extends BudgetEvent where
  createdAt : Time
  deriving DecidableEq, Repr

/-- `billing.Reservation`. -/
structure Reservation where
  identity : ReservationRequest
  tenantID : Int
  status : Status
  actual : Option Int
  reason : String
  version : Int
  createdAt : Time
  updatedAt : Time
  deriving DecidableEq, Repr

def ReservationRow.reservation (row : ReservationRow) : Reservation :=
  ⟨row.identity, row.tenantID, row.status, row.actual, row.reason, row.version, row.createdAt,
    row.updatedAt⟩

/-- The text of a status. -/
def Status.text : Status → String
  | reserved => "reserved"
  | dispatched => "dispatched"
  | unknown => "unknown"
  | settled => "settled"
  | released => "released"
  | releasedUnknown => "released_unknown"

namespace BudgetRepo

/-- A page has at most 200 rows. -/
def clampLimit (limit : Int) : Int := if 200 < defaultLimit limit then 200 else defaultLimit limit

theorem clampLimit_pos (limit : Int) : 0 < clampLimit limit := by
  have hpos := defaultLimit_pos limit
  rw [clampLimit]
  split <;> omega

theorem clampLimit_lt (limit : Int) : clampLimit limit < 2 ^ 63 - 1 := by
  rw [clampLimit]
  split <;> omega

/-- `budgetPage`: the id a page starts after, and its length. -/
def budgetPage (cursor : String) (limit : Int) : Option (Int × Int) :=
  if cursor ≠ "" then
    match decodeIDCursor cursor with
    | none => none
    | some id => if id < 0 then none else some (id, clampLimit limit)
  else some (0, clampLimit limit)

theorem budgetPage_encodeIDCursor {n : Int} (hpos : 0 < n) (hn : Int64Range n) (limit : Int) :
    budgetPage (encodeIDCursor n) limit = some (n, clampLimit limit) := by
  rw [budgetPage, if_pos (encodeIDCursor_ne_empty n), decodeIDCursor_encodeIDCursor hn]
  exact if_neg (by omega)

/-- The conditions of `List` and `Events`. -/
def ofTenant {ρ : Type} (owner id : ρ → Int) (tenantID after : Int) : Sql.Where ρ :=
  (Sql.Where.start (.eq fun r ↦ .int (owner r)) [.int tenantID])
    |>.add (.above fun r ↦ .int (id r)) [.int after]

theorem ofTenant_means {ρ : Type} (owner id : ρ → Int) (tenantID after : Int) :
    (ofTenant owner id tenantID after).Means fun r ↦
      decide (owner r = tenantID) && decide (after < id r) := by
  rw [ofTenant]
  exact .congr (.add (.start rfl) rfl) fun r ↦ by simp

/-- What `List` and `Events` have in common. -/
def listOfTenant {ρ : Type} (owner id : ρ → Int) (table : List ρ) (tenantID : Int) (cursor : String)
    (limit : Int) : Option (List ρ × String) :=
  (budgetPage cursor limit).bind fun (after, limit) ↦
    fetchByID id table (ofTenant owner id tenantID after) limit

/-- `List`. -/
def list (table : List BudgetPolicy) (tenantID : Int) (cursor : String) (limit : Int) :
    Option (List BudgetPolicy × String) :=
  listOfTenant (fun p ↦ p.tenantID) (fun p ↦ p.id) table tenantID cursor limit

/-- `Events`. -/
def events (table : List BudgetEventRow) (tenantID : Int) (cursor : String) (limit : Int) :
    Option (List BudgetEventRow × String) :=
  listOfTenant (fun e ↦ e.tenantID) (fun e ↦ e.id) table tenantID cursor limit

theorem listOfTenant_complete {ρ : Type} {id : ρ → Int} (owner : ρ → Int) (table : IDTable id)
    (tenantID limit : Int) :
    Page.Complete (fun cursor ↦ listOfTenant owner id table.rows tenantID cursor limit) ""
      (clampLimit limit).toNat (table.sorted fun r ↦ owner r = tenantID) := by
  refine complete_of_fetchByID table (clampLimit_pos limit) (clampLimit_lt limit)
    (ofTenant_means owner id tenantID) rfl fun n hpos hn ↦ ?_
  rw [listOfTenant, budgetPage_encodeIDCursor hpos hn]
  rfl

theorem list_complete (table : IDTable fun p : BudgetPolicy ↦ p.id) (tenantID limit : Int) :
    Page.Complete (fun cursor ↦ list table.rows tenantID cursor limit) "" (clampLimit limit).toNat
      (table.sorted fun p ↦ p.tenantID = tenantID) := by
  have hpages := listOfTenant_complete (fun p ↦ p.tenantID) table tenantID limit
  exact hpages

theorem events_complete (table : IDTable fun e : BudgetEventRow ↦ e.id) (tenantID limit : Int) :
    Page.Complete (fun cursor ↦ events table.rows tenantID cursor limit) "" (clampLimit limit).toNat
      (table.sorted fun e ↦ e.tenantID = tenantID) := by
  have hpages := listOfTenant_complete (fun e ↦ e.tenantID) table tenantID limit
  exact hpages

/-! ### Reservations -/

/-- The table of the reservations: `Reserve` refuses an empty id. -/
structure Reservations where
  rows : List ReservationRow
  distinct : Rank.Distinct ReservationRow.id rows
  nonempty : ∀ r ∈ rows, r.id ≠ ""

/-- The statuses that can be asked for; the empty one asks for all. -/
def ValidStatus (status : String) : Prop :=
  status = "" ∨ status = "reserved" ∨ status = "dispatched" ∨ status = "unknown" ∨
  status = "settled" ∨
    status = "released" ∨ status = "released_unknown"

instance (status : String) : Decidable (ValidStatus status) :=
  inferInstanceAs (Decidable (_ ∨ _ ∨ _ ∨ _ ∨ _ ∨ _ ∨ _))

variable {κ : Type} [LinearOrder κ] (collate : String → κ)

/-- The conditions of `Reservations`. -/
def withStatus (tenantID : Int) (after status : String) : Sql.Where ReservationRow :=
  (Sql.Where.start (.eq fun r ↦ .int r.tenantID) [.int tenantID])
    |>.add (.textAbove collate fun r ↦ r.id) [.text after]
    |>.add (.emptyOrEq fun r ↦ .text r.status.text) [.text status, .text status]

/-- `Reservations`. -/
def reservations (table : List ReservationRow) (tenantID : Int) (status cursor : String)
    (limit : Int) : Option (List Reservation × String) :=
  if ¬ ValidStatus status then none
  else
    (if cursor ≠ "" then Base64.decodeText cursor else some "").bind fun after ↦
      (fetchPage (fun r ↦ collate r.id) (fun r ↦ Base64.encodeText r.id) table
        (withStatus collate tenantID after status) (clampLimit limit)).map fun (rows, next) ↦
          (rows.map ReservationRow.reservation, next)

/-- A reservation is the tenant's, and has the status that was asked for. -/
def Matches (tenantID : Int) (status : String) (r : ReservationRow) : Prop :=
  r.tenantID = tenantID ∧ (status ≠ "" → r.status.text = status)

instance (tenantID : Int) (status : String) (r : ReservationRow) :
    Decidable (Matches tenantID status r) :=
  inferInstanceAs (Decidable (_ ∧ _))

theorem withStatus_means (tenantID : Int) (after status : String) :
    (withStatus collate tenantID after status).Means fun r ↦
      decide (Matches tenantID status r) && decide (collate after < collate r.id) := by
  rw [withStatus]
  refine .congr (.add (.add (.start rfl) rfl) rfl) fun r ↦ ?_
  rw [Bool.eq_iff_iff]
  simp only [Sql.Cond.eq_holds, Sql.Cond.textAbove_holds, Sql.Cond.emptyOrEq_holds,
    Sql.Value.eq_int, Sql.Value.eq_text, Bool.and_eq_true, Bool.or_eq_true, decide_eq_true_eq,
    or_iff_not_imp_left]
  exact and_right_comm

/-- The rows of a page of `Reservations`. -/
def reservationRows (table : List ReservationRow) (tenantID : Int) (status : String) (limit : Int)
    (cursor : String) : Option (List ReservationRow × String) :=
  (if cursor ≠ "" then Base64.decodeText cursor else some "").bind fun after ↦
    fetchPage (fun r ↦ collate r.id) (fun r ↦ Base64.encodeText r.id) table
    (withStatus collate tenantID after status)
      (clampLimit limit)

theorem reservations_complete (hcollate : Function.Injective collate)
    (hempty : ∀ s, s ≠ "" → collate "" < collate s) (table : Reservations) (tenantID : Int)
    {status : String} (hstatus : ValidStatus status) (limit : Int) :
    Page.Complete (fun cursor ↦ reservations collate table.rows tenantID status cursor limit) ""
      (clampLimit limit).toNat ((Rank.sortBy (fun r : ReservationRow ↦ collate r.id)
        (table.rows.filter fun r ↦ Matches tenantID status r)).map ReservationRow.reservation) := by
  have hdistinct : Rank.Distinct (fun r : ReservationRow ↦ collate r.id) table.rows := by
    have h := table.distinct.map hcollate
    rwa [List.map_map] at h
  have hne : ∀ r ∈ table.rows, Base64.encodeText r.id ≠ "" :=
    fun r hr h ↦ table.nonempty r hr (Base64.encodeText_eq_empty.mp h)
  have hrows :
      Page.Complete (reservationRows collate table.rows tenantID status limit) ""
      (clampLimit limit).toNat (Rank.sortBy (fun r : ReservationRow ↦ collate r.id)
        (table.rows.filter fun r ↦ Matches tenantID status r)) := by
    refine complete_of_above (clampLimit_pos limit) (clampLimit_lt limit) hdistinct
      (fun r hr ↦ hempty r.id (table.nonempty r hr))
      ⟨_, withStatus_means collate tenantID "" status, rfl⟩
      (fun r hr ↦ ⟨_, withStatus_means collate tenantID r.id status, ?_⟩) hne
    show Option.bind (if Base64.encodeText r.id ≠ "" then _ else _) _ = _
    rw [if_pos (hne r hr), Base64.decodeText_encodeText]
    rfl
  refine hrows.map ReservationRow.reservation fun cursor ↦ ?_
  rw [reservations, reservationRows, if_neg (not_not.mpr hstatus), Option.map_bind]
  rfl

end BudgetRepo

/-! ## All of them -/

/-- **Following the cursors of a listing gives every row that matches once, in the listing's order,
and comes to an end; and every row's cursor is decoded again.**  The collation of the reservations'
ids is a parameter: it tells texts apart and puts the empty one first.  A status that is not one of
theirs is refused. -/
theorem listings_complete {κ : Type} [LinearOrder κ] (collate : String → κ)
    (hcollate : Function.Injective collate) (hempty : ∀ s, s ≠ "" → collate "" < collate s)
    (limit : Int) (hlimit : limit < 2 ^ 63 - 1) :
    (∀ (table : UsageQuery.Table) (tenant : String) (f : UsageQuery.UsageFilter),
      Page.Complete (fun cursor ↦ UsageQuery.list table.rows tenant f cursor limit) ""
          (defaultLimit limit).toNat (table.sorted (UsageQuery.Matches tenant f)) ∧
        ∀ r ∈ table.rows,
          decodeUsageCursor (encodeUsageCursor r.createdAt r.id) = some (r.createdAt, r.id)) ∧
    (∀ (table : AuditQuery.Table) (tenant : String) (f : AuditQuery.AuditFilter),
      Page.Complete (fun cursor ↦ AuditQuery.list table.rows tenant f cursor limit) ""
          (defaultLimit limit).toNat (table.sorted (AuditQuery.Matches tenant f)) ∧
        ∀ r ∈ table.rows,
          decodeUsageCursor (encodeUsageCursor r.createdAt r.id) = some (r.createdAt, r.id)) ∧
    (∀ table : OperatorRepo.Table,
      Page.Complete (fun cursor ↦ OperatorRepo.list table.rows cursor limit) ""
      (defaultLimit limit).toNat
          ((table.sorted fun _ ↦ True).map Admin.OperatorRow.info) ∧
        ∀ r ∈ table.rows, decodeIDCursor (encodeIDCursor r.id) = some r.id) ∧
    (∀ (table : IDTable fun p : BudgetPolicy ↦ p.id) (tenantID : Int),
      Page.Complete (fun cursor ↦ BudgetRepo.list table.rows tenantID cursor limit) ""
          (BudgetRepo.clampLimit limit).toNat (table.sorted fun p ↦ p.tenantID = tenantID) ∧
        ∀ r ∈ table.rows, decodeIDCursor (encodeIDCursor r.id) = some r.id) ∧
    (∀ (table : IDTable fun e : BudgetEventRow ↦ e.id) (tenantID : Int),
      Page.Complete (fun cursor ↦ BudgetRepo.events table.rows tenantID cursor limit) ""
          (BudgetRepo.clampLimit limit).toNat (table.sorted fun e ↦ e.tenantID = tenantID) ∧
        ∀ r ∈ table.rows, decodeIDCursor (encodeIDCursor r.id) = some r.id) ∧
    (∀ (table : BudgetRepo.Reservations) (tenantID : Int) (status : String),
      (if BudgetRepo.ValidStatus status then
        Page.Complete
        (fun cursor ↦ BudgetRepo.reservations collate table.rows tenantID status cursor limit) ""
          (BudgetRepo.clampLimit limit).toNat ((Rank.sortBy (fun r : ReservationRow ↦ collate r.id)
            (table.rows.filter fun r ↦ BudgetRepo.Matches tenantID status r)).map
            ReservationRow.reservation)
      else ∀ cursor, BudgetRepo.reservations collate table.rows tenantID status cursor
        limit = none) ∧
        ∀ r ∈ table.rows, Base64.decodeText (Base64.encodeText r.id) = some r.id) := by
  refine ⟨fun table tenant f ↦ ⟨?_, fun r hr ↦ ?_⟩, fun table tenant f ↦ ⟨?_, fun r hr ↦ ?_⟩,
    fun table ↦ ⟨OperatorRepo.list_complete table hlimit, fun r hr ↦ ?_⟩,
    fun table tenantID ↦ ⟨BudgetRepo.list_complete table tenantID limit, fun r hr ↦ ?_⟩,
    fun table tenantID ↦ ⟨BudgetRepo.events_complete table tenantID limit, fun r hr ↦ ?_⟩,
    fun table tenantID status ↦ ⟨?_, fun r _ ↦ Base64.decodeText_encodeText r.id⟩⟩
  · exact listByTime_complete table (UsageQuery.buildWhere_means tenant f) hlimit
  · exact decodeUsageCursor_encodeUsageCursor (table.createdAt_range r hr) (table.id_range r hr)
  · exact listByTime_complete table (AuditQuery.buildWhere_means tenant f) hlimit
  · exact decodeUsageCursor_encodeUsageCursor (table.createdAt_range r hr) (table.id_range r hr)
  · exact decodeIDCursor_encodeIDCursor (table.range r hr)
  · exact decodeIDCursor_encodeIDCursor (table.range r hr)
  · exact decodeIDCursor_encodeIDCursor (table.range r hr)
  · split
    case isTrue hstatus =>
      exact BudgetRepo.reservations_complete collate hcollate hempty table tenantID hstatus limit
    case isFalse hstatus => exact fun cursor ↦ if_pos hstatus

theorem listings_complete_sample : Page.Complete
    (fun cursor ↦ UsageQuery.list UsageQuery.Table.sample.rows "acme"
      ⟨none, "", true, "openai", "", 1000, zeroTime⟩ cursor 1) "" 1
    [.sample 2 2000, .sample 1 2000, .sample 3 1000] := by
  have hempty : ∀ s : String, s ≠ "" → "".toList < s.toList := by
    intro s hs
    cases h : s.toList with
    | nil => exact absurd (String.toList_inj.mp h) hs
    | cons c cs => exact List.nil_lt_cons c cs
  have h :=
    ((listings_complete String.toList (fun _ _ ↦ String.toList_inj.mp) hempty 1 (by decide)).1
    UsageQuery.Table.sample "acme" ⟨none, "", true, "openai", "", 1000, zeroTime⟩).1
  have hrows : UsageQuery.Table.sample.sorted
      (UsageQuery.Matches "acme" ⟨none, "", true, "openai", "", 1000, zeroTime⟩) =
        [.sample 2 2000, .sample 1 2000, .sample 3 1000] := by decide
  rw [hrows] at h
  exact h

end Voxeltoad
