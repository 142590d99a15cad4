import Voxeltoad.Lib.Loop
import Voxeltoad.Store.Listing

/-!
# Reports on usage

The reports of `internal/store/usage_query.go`: `Summary` over a dimension, `Timeseries` over
buckets of time, `SummaryBySession` and `CostBySessions`.  Each of them adds up usage records, and
never over different currencies: what a request cost is only comparable with what others cost in the
same one.

The order of texts (`collate`) and `date_trunc` are the database's.  A sum that does not fit an
`int64` is an error, the database's own or that of scanning it.
-/

set_option autoImplicit false

namespace Voxeltoad
namespace UsageQuery

/-- A row of `usage_records` with its session, which only the reports on sessions read. -/
structure SessionUsageRow extends UsageRow where
  sessionID : String
  deriving DecidableEq, Repr

/-- What goes wrong with a report. -/
inductive QueryError where
  /-- A dimension or a bucket that is not on the list. -/
  | unsupported (what value : String)
  | database
  deriving DecidableEq, Repr

/-! ## Adding up -/

/-- What the reports add up. -/
structure Totals where
  promptTokens : Int
  completionTokens : Int
  cost : Int
  requestCount : Int
  deriving DecidableEq, Repr

/-- `SUM(prompt_tokens)`, `SUM(completion_tokens)`, `SUM(cost)` and `COUNT(*)`. -/
def totals (rows : List UsageRow) : Totals where
  promptTokens := (rows.map UsageRow.promptTokens).sum
  completionTokens := (rows.map UsageRow.completionTokens).sum
  cost := (rows.map UsageRow.cost).sum
  requestCount := (rows.map fun _ ↦ (1 : Int)).sum

theorem totals_perm {rows rows' : List UsageRow} (h : rows'.Perm rows) :
    totals rows' = totals rows := by
  rw [totals, totals]
  congr 1
  all_goals exact (h.map _).sum_eq

def Totals.Fits (t : Totals) : Prop :=
  Int64Range t.promptTokens ∧ Int64Range t.completionTokens ∧ Int64Range t.cost

instance (t : Totals) : Decidable t.Fits := inferInstanceAs (Decidable (_ ∧ _ ∧ _))

/-- A row of a report: `UsageSummaryRow` has the value of the dimension for its key, `UsageBucket`
the start of the bucket. -/
structure UsageGroup (κ : Type) extends Totals where
  key : κ
  currency : String
  deriving DecidableEq, Repr

/-- `CurrencyCost`. -/
structure CurrencyCost where
  currency : String
  cost : Int
  deriving DecidableEq, Repr

def UsageGroup.currencyCost {κ : Type} (g : UsageGroup κ) : CurrencyCost := ⟨g.currency, g.cost⟩

section Groups

variable {ρ κ : Type} [DecidableEq κ] (row : ρ → UsageRow) (key : ρ → κ)

/-- The group of a key and a currency. -/
def group (k : κ × String) (rows : List ρ) : UsageGroup κ :=
  { totals (rows.map row) with key := k.1, currency := k.2 }

/-- `SELECT key, currency, SUM(…) … GROUP BY key, currency`. -/
def groups (table : List ρ) (w : Sql.Where ρ) : Option (List (UsageGroup κ)) :=
  match Sql.grouped (fun r ↦ (key r, (row r).currency)) (group row) table w.conds w.args with
  | some (found, []) => some found
  | _ => none

theorem groups_eq {w : Sql.Where ρ} {P : ρ → Bool} (hw : w.Means P) (table : List ρ) :
    groups row key table w =
      some (Sql.groupBy (fun r ↦ (key r, (row r).currency)) (group row) (table.filter P)) := by
  have h := hw.grouped (fun r ↦ (key r, (row r).currency)) (group row) table []
  rw [List.append_nil] at h
  rw [groups, h]

/-- The groups, if all the columns the report reads fit. -/
def scanned (Fits : UsageGroup κ → Prop) [DecidablePred Fits] (table : List ρ) (w : Sql.Where ρ) :
    Except QueryError (List (UsageGroup κ)) :=
  match groups row key table w with
  | some found => if ∀ g ∈ found, Fits g then .ok found else .error .database
  | none => .error .database

variable {row key}

theorem scanned_ok {Fits : UsageGroup κ → Prop} [DecidablePred Fits] {w : Sql.Where ρ}
    {P : ρ → Bool} (hw : w.Means P) {table : List ρ} {found : List (UsageGroup κ)}
    (h : scanned row key Fits table w = .ok found) :
    found = Sql.groupBy (fun r ↦ (key r, (row r).currency)) (group row) (table.filter P) := by
  rw [scanned, groups_eq row key hw] at h
  simp only at h
  split at h
  · exact (Except.ok.inj h).symm
  · cases h

end Groups

/-! ## By dimension -/

/-- `summaryDimensions`. -/
def summaryDimension : String → Option (UsageRow → String)
  | "tenant" => some UsageRow.tenant
  | "group_name" => some UsageRow.groupName
  | "api_key_id" => some UsageRow.apiKeyID
  | "provider" => some UsageRow.provider
  | "model" => some UsageRow.model
  | "application_id" => some fun r ↦ (r.applicationID.map formatInt).getD "unattributed"
  | "environment" => some UsageRow.environment
  | _ => none

/-- The conditions of `Summary`. -/
def summaryWhere (tenant : String) (fromTime toTime : Time) (f : UsageFilter) :
    Sql.Where UsageRow :=
  (Sql.Where.start .always [])
    |>.addIf (tenant ≠ "") (.eq fun r ↦ .text r.tenant) [.text tenant]
    |>.addIf (fromTime ≠ zeroTime) (.atLeast fun r ↦ .time r.createdAt) [.time fromTime]
    |>.addIf (toTime ≠ zeroTime) (.below fun r ↦ .time r.createdAt) [.time toTime]
    |>.addSome f.applicationID (.eq fun r ↦ .nullable .int r.applicationID) .int
    |>.addIf f.unattributed (.isNull fun r ↦ .nullable .int r.applicationID) []
    |>.addIf (f.environment ≠ "") (.eq fun r ↦ .text r.environment) [.text f.environment]
    |>.addIf (f.provider ≠ "") (.eq fun r ↦ .text r.provider) [.text f.provider]
    |>.addIf (f.model ≠ "") (.eq fun r ↦ .text r.model) [.text f.model]

theorem summaryWhere_means (tenant : String) (fromTime toTime : Time) (f : UsageFilter) :
    (summaryWhere tenant fromTime toTime f).Means fun r ↦
      decide (Matches tenant { f with fromTime := fromTime, toTime := toTime } r) := by
  rw [summaryWhere]
  refine .congr (.addIf (.addIf (.addIf (.addIf (.addSome (.addIf (.addIf (.addIf (.start rfl)
    _ rfl) _ rfl) _ rfl) _ rfl) _ rfl) _ rfl) _ rfl) _ rfl) fun r ↦ ?_
  rw [Bool.eq_iff_iff]
  simp only [Matches, Sql.Cond.always_holds, Sql.Cond.eq_holds, Sql.Cond.isNull_holds,
    Sql.Cond.atLeast_time_holds, Sql.Cond.below_holds, Sql.Value.eq_text, Sql.Value.nullable_int_eq,
    Sql.Value.nullable_int_eq_null, Sql.Value.lt_time, Option.all_eq_true, Bool.and_eq_true,
    Bool.or_eq_true, Bool.not_eq_true', decide_eq_true_eq, decide_eq_false_iff_not,
    or_iff_not_imp_left, not_not, and_assoc, true_and, Option.mem_def, Bool.not_eq_false]
  constructor
  · rintro ⟨htenant, hfrom, hto, happ, hun, henv, hprovider, hmodel⟩
    exact ⟨htenant, happ, hun, henv, hprovider, hmodel, hfrom, hto⟩
  · rintro ⟨htenant, happ, hun, henv, hprovider, hmodel, hfrom, hto⟩
    exact ⟨htenant, hfrom, hto, happ, hun, henv, hprovider, hmodel⟩

section Reports

variable {κ : Type} [LinearOrder κ] (collate : String → κ)

/-- `ORDER BY currency ASC, cost DESC, group_key ASC`. -/
def byCost (g : UsageGroup String) : Lex (κ × Lex (Intᵒᵈ × κ)) :=
  toLex (collate g.currency, toLex (OrderDual.toDual g.cost, collate g.key))

/-- **`Summary`.** -/
def summary (table : List UsageRow) (tenant : String) (fromTime toTime : Time) (groupBy : String)
    (f : UsageFilter) : Except QueryError (List (UsageGroup String)) :=
  match summaryDimension groupBy with
  | none => .error (.unsupported "group_by" groupBy)
  | some dimension =>
    (scanned id dimension (fun g ↦ g.toTotals.Fits) table
      (summaryWhere tenant fromTime toTime f)).map (Rank.sortBy (byCost collate))

/-! ## By time -/

/-- `timeBuckets`. -/
def timeBuckets : List String := ["hour", "day", "week"]

/-- `ORDER BY bucket_start ASC, currency ASC`. -/
def byBucket (g : UsageGroup Time) : Lex (Time × κ) := toLex (g.key, collate g.currency)

variable (dateTrunc : String → Time → Time)

/-- **`Timeseries`.**  Its conditions are those of `List`; the bucket is the argument in front of
them. -/
def timeseries (table : List UsageRow) (tenant : String) (f : UsageFilter) (bucket : String) :
    Except QueryError (List (UsageGroup Time)) :=
  if bucket ∉ timeBuckets then .error (.unsupported "bucket" bucket)
  else
    (scanned id (fun r ↦ dateTrunc bucket r.createdAt) (fun g ↦ g.toTotals.Fits) table
      (buildWhere tenant f)).map (Rank.sortBy (byBucket collate))

/-! ## By session -/

/-- `SessionCostSummary`. -/
structure SessionCostSummary where
  sessionID : String
  promptTokens : Int
  completionTokens : Int
  /-- `none` for mixed currencies. -/
  cost : Option Int
  currency : String
  costsByCurrency : List CurrencyCost
  requestCount : Int
  deriving DecidableEq, Repr

/-- The conditions of `SummaryBySession`. -/
def sessionWhere (tenant sessionID : String) : Sql.Where SessionUsageRow :=
  (Sql.Where.start (.eq fun r ↦ .text r.sessionID) [.text sessionID])
    |>.addIf (tenant ≠ "") (.eq fun r ↦ .text r.tenant) [.text tenant]

/-- `ORDER BY currency`. -/
def byCurrency {α : Type} (g : UsageGroup α) : κ := collate g.currency

/-- The loop of `SummaryBySession` over the rows, one for each currency. -/
def SessionCostSummary.add (s : SessionCostSummary) (g : UsageGroup Unit) : SessionCostSummary :=
  { s with
    promptTokens := int64 (s.promptTokens + g.promptTokens)
    completionTokens := int64 (s.completionTokens + g.completionTokens)
    requestCount := int64 (s.requestCount + g.requestCount)
    costsByCurrency := s.costsByCurrency ++ [g.currencyCost] }

/-- A single currency gives the session its cost; with more than one there is none. -/
def SessionCostSummary.settle (s : SessionCostSummary) : List (UsageGroup Unit) → SessionCostSummary
  | [] => s
  | [g] => { s with cost := some g.cost, currency := g.currency }
  | _ => { s with cost := none }

/-- **`SummaryBySession`.** -/
def summaryBySession (table : List SessionUsageRow) (tenant sessionID : String) :
    Except QueryError SessionCostSummary :=
  let s : SessionCostSummary := ⟨sessionID, 0, 0, some 0, "", [], 0⟩
  if sessionID = "" then .ok s
  else
    (scanned SessionUsageRow.toUsageRow (fun _ ↦ ()) (fun g ↦ g.toTotals.Fits) table
      (sessionWhere tenant sessionID)).map fun found ↦
        let found := Rank.sortBy (byCurrency collate) found
        (found.foldl SessionCostSummary.add s).settle found

/-- The conditions of `CostBySessions`. -/
def sessionsCostWhere (tenant : String) (sessionIDs : List String) : Sql.Where SessionUsageRow :=
  (Sql.Where.start (.oneOf (fun r ↦ .text r.sessionID) sessionIDs.length) (sessionIDs.map .text))
    |>.addIf (tenant ≠ "") (.eq fun r ↦ .text r.tenant) [.text tenant]

/-- `ORDER BY session_id, currency`. -/
def bySession (g : UsageGroup String) : Lex (κ × κ) := toLex (collate g.key, collate g.currency)

/-- **`CostBySessions`.**  A session that has no usage has no costs. -/
def costBySessions (table : List SessionUsageRow) (tenant : String) (sessionIDs : List String) :
    Except QueryError (String → List CurrencyCost) :=
  if sessionIDs = [] then .ok fun _ ↦ []
  else
    (scanned SessionUsageRow.toUsageRow SessionUsageRow.sessionID (fun g ↦ Int64Range g.cost) table
      (sessionsCostWhere tenant sessionIDs)).map fun found sessionID ↦
        ((Rank.sortBy (bySession collate) found).filter fun g ↦ g.key = sessionID).map
        UsageGroup.currencyCost

/-- The columns of a session listing that its handler merges in. -/
structure SessionCost where
  cost : Option Int
  currency : String
  costsByCurrency : List CurrencyCost
  deriving DecidableEq, Repr

/-- How the handler of the session listing merges the costs of a session. -/
def mergeCosts : List CurrencyCost → SessionCost
  | [] => ⟨some 0, "", []⟩
  | [amount] => ⟨some amount.cost, amount.currency, [amount]⟩
  | amounts => ⟨none, "", amounts⟩

end Reports

/-! ## What the reports say -/

/-- The totals of a report in one currency. -/
def totalsIn {κ : Type} (currency : String) (report : List (UsageGroup κ)) : Totals where
  promptTokens := ((report.filter fun g ↦ g.currency = currency).map fun g ↦ g.promptTokens).sum
  completionTokens :=
    ((report.filter fun g ↦ g.currency = currency).map fun g ↦ g.completionTokens).sum
  cost := ((report.filter fun g ↦ g.currency = currency).map fun g ↦ g.cost).sum
  requestCount := ((report.filter fun g ↦ g.currency = currency).map fun g ↦ g.requestCount).sum

/-- **A report is a breakdown of some rows** by a key: no group is empty or comes twice, each has
the totals of its own rows, and in every currency the groups add up to what the rows do. -/
structure Breakdown {κ : Type} [DecidableEq κ] (key : UsageRow → κ) (rows : List UsageRow)
    (report : List (UsageGroup κ)) : Prop where
  nodup : (report.map fun g ↦ (g.key, g.currency)).Nodup
  mem_iff : ∀ k c, (k, c) ∈ report.map (fun g ↦ (g.key, g.currency)) ↔
    ∃ r ∈ rows, key r = k ∧ r.currency = c
  totals_eq : ∀ g ∈ report,
    g.toTotals = totals (rows.filter fun r ↦ key r = g.key ∧ r.currency = g.currency)
  totalsIn_eq : ∀ c, totalsIn c report = totals (rows.filter fun r ↦ r.currency = c)

section Breakdown

variable {κ : Type} [DecidableEq κ] {key : UsageRow → κ} {rows : List UsageRow}

/-- The groups of one currency are the groups of its rows. -/
theorem sum_currency (measure : UsageRow → Int) (total : UsageGroup κ → Int)
    (htotal : ∀ k found, total (group id k found) = (found.map measure).sum) (c : String) :
    (((Sql.groupBy (fun r ↦ (key r, r.currency)) (group id) rows).filter fun g ↦ g.currency = c).map
      total).sum = ((rows.filter fun r ↦ r.currency = c).map measure).sum := by
  let only (r : UsageRow) : Int := if r.currency = c then measure r else 0
  have hfilter :
      ∀ (report : List (UsageGroup κ)), ((report.filter fun g ↦ g.currency = c).map total).sum =
      (report.map fun g ↦ if g.currency = c then total g else 0).sum := by
    intro report
    rw [List.sum_map_ite, List.map_const', List.sum_replicate, nsmul_zero, add_zero]
  have honly : ((rows.filter fun r ↦ r.currency = c).map measure).sum = (rows.map only).sum := by
    rw [List.sum_map_ite, List.map_const', List.sum_replicate, nsmul_zero, add_zero]
  rw [hfilter, honly, Sql.groupBy, List.map_map]
  refine Eq.trans (congrArg List.sum (List.map_congr_left fun k _ ↦ ?_))
    (Sql.sum_of_groups (fun r ↦ (key r, r.currency)) only (List.nodup_dedup _) rows fun r hr ↦
      List.mem_dedup.mpr (List.mem_map_of_mem hr))
  -- within a group the currency is that of its key
  have hgroup : ∀ r ∈ rows.filter fun r ↦ (key r, r.currency) = k, r.currency = k.2 := by
    intro r hr
    rw [← of_decide_eq_true (List.mem_filter.mp hr).2]
  show (if k.2 = c then total (group id k _) else 0) = _
  by_cases hc : k.2 = c
  · rw [if_pos hc, htotal]
    refine congrArg List.sum (List.map_congr_left fun r hr ↦ ?_)
    exact (if_pos ((hgroup r hr).trans hc)).symm
  · rw [if_neg hc]
    refine (List.sum_eq_zero fun n hn ↦ ?_).symm
    obtain ⟨r, hr, rfl⟩ := List.mem_map.mp hn
    exact if_neg fun h ↦ hc ((hgroup r hr).symm.trans h)

theorem breakdown_groupBy :
    Breakdown key rows (Sql.groupBy (fun r ↦ (key r, r.currency)) (group id) rows) where
  nodup := Sql.nodup_groupBy _ _ (fun g : UsageGroup κ ↦ (g.key, g.currency)) (fun _ _ ↦ rfl) rows
  mem_iff k c := by
    simp only [List.mem_map, Sql.mem_groupBy, Prod.mk.injEq]
    constructor
    · rintro ⟨g, ⟨r, hr, rfl⟩, hk, hc⟩
      exact ⟨r, hr, hk, hc⟩
    · rintro ⟨r, hr, hk, hc⟩
      exact ⟨_, ⟨r, hr, rfl⟩, hk, hc⟩
  totals_eq g hg := by
    obtain ⟨r, -, rfl⟩ := Sql.mem_groupBy.mp hg
    show totals ((rows.filter fun q ↦ (key q, q.currency) = (key r, r.currency)).map id) =
        totals (rows.filter fun q ↦ key q = key r ∧ q.currency = r.currency)
    rw [List.map_id]
    simp only [Prod.mk.injEq]
  totalsIn_eq c := by
    rw [totalsIn, totals]
    congr 1
    · exact sum_currency _ _ (fun _ found ↦ by simp [group, totals]) c
    · exact sum_currency _ _ (fun _ found ↦ by simp [group, totals]) c
    · exact sum_currency _ _ (fun _ found ↦ by simp [group, totals]) c
    · exact sum_currency _ _ (fun _ found ↦ by simp [group, totals]) c

/-- The order does not matter to a breakdown, neither that of the report nor that of the rows. -/
theorem Breakdown.perm {report report' : List (UsageGroup κ)} {rows' : List UsageRow}
    (h : Breakdown key rows report) (hreport : report'.Perm report) (hrows : rows'.Perm rows) :
    Breakdown key rows' report' where
  nodup := ((hreport.map _).nodup_iff).mpr h.nodup
  mem_iff k c := by
    rw [(hreport.map _).mem_iff, h.mem_iff]
    exact exists_congr fun r ↦ and_congr_left fun _ ↦ hrows.mem_iff.symm
  totals_eq g hg := by
    rw [h.totals_eq g (hreport.mem_iff.mp hg)]
    exact (totals_perm (hrows.filter _)).symm
  totalsIn_eq c := by
    rw [← totals_perm ((hrows.filter _).symm), ← h.totalsIn_eq c, totalsIn, totalsIn]
    congr 1
    all_goals exact ((hreport.filter _).map _).sum_eq

end Breakdown

/-! ## Reports and listings -/

section Agree

variable {κ : Type} [LinearOrder κ] (collate : String → κ) (dateTrunc : String → Time → Time)

/-- A report is given if what it adds up fits. -/
theorem scanned_of_fits {κ : Type} [DecidableEq κ] (key : UsageRow → κ) {w : Sql.Where UsageRow}
    {P : UsageRow → Bool} (hw : w.Means P) (table : List UsageRow)
    (hfits : ∀ k c, (totals ((table.filter P).filter fun r ↦ key r = k ∧ r.currency = c)).Fits) :
    ∃ found, scanned id key (fun g ↦ g.toTotals.Fits) table w = .ok found := by
  rw [scanned, groups_eq id key hw]
  refine ⟨_, if_pos fun g hg ↦ ?_⟩
  rw [breakdown_groupBy.totals_eq g hg]
  exact hfits g.key g.currency

/-- **The reports on usage agree.**  The listing has some rows, page by page; a summary over any
dimension and a time series over any bucket, with the same filter, are breakdowns of these rows.  So
they add up to the same in every currency.  A report is refused only if its dimension or bucket is
not on the list or a sum does not fit. -/
theorem reports_agree (table : Table) (tenant : String) (f : UsageFilter) (limit : Int)
    (hlimit : limit < 2 ^ 63 - 1) :
    ∃ rows, Page.Complete (fun cursor ↦ list table.rows tenant f cursor limit) ""
    (defaultLimit limit).toNat rows ∧
      (∀ r, r ∈ rows ↔ r ∈ table.rows ∧ Matches tenant f r) ∧
      (∀ groupBy dimension, summaryDimension groupBy = some dimension →
        (∀ report, summary collate table.rows tenant f.fromTime f.toTime groupBy f = .ok report →
          Breakdown dimension rows report) ∧
        ((∀ k c, (totals (rows.filter fun r ↦ dimension r = k ∧ r.currency = c)).Fits) →
          ∃ report, summary collate table.rows tenant f.fromTime f.toTime groupBy f = .ok report)) ∧
      ∀ bucket ∈ timeBuckets,
        (∀ report, timeseries collate dateTrunc table.rows tenant f bucket = .ok report →
          Breakdown (fun r ↦ dateTrunc bucket r.createdAt) rows report) ∧
        ((∀ k c,
          (totals (rows.filter fun r ↦ dateTrunc bucket r.createdAt = k ∧ r.currency = c)).Fits) →
          ∃ report, timeseries collate dateTrunc table.rows tenant f bucket = .ok report) := by
  have hsummary := summaryWhere_means tenant f.fromTime f.toTime f
  have hseries := buildWhere_means tenant f
  -- the filter of the report and that of the listing select the same rows, in another order
  have hperm :
      (table.sorted (Matches tenant f)).Perm (table.rows.filter fun r ↦ Matches tenant f r) :=
    Rank.sortBy_perm _
  have hfilter : ∀ p : UsageRow → Bool, totals ((table.sorted (Matches tenant f)).filter p) =
      totals ((table.rows.filter fun r ↦ Matches tenant f r).filter p) :=
    fun p ↦ totals_perm (hperm.filter p)
  refine ⟨_, listByTime_complete table hseries hlimit, fun r ↦ ?_, ?_, ?_⟩
  · rw [hperm.mem_iff, List.mem_filter, decide_eq_true_iff]
  · intro groupBy dimension hdim
    constructor
    · intro report hreport
      simp only [summary, hdim] at hreport
      obtain ⟨found, hfound, rfl⟩ := Loop.map_eq_ok.mp hreport
      rw [scanned_ok hsummary hfound]
      exact breakdown_groupBy.perm (Rank.sortBy_perm _) hperm
    · intro hfits
      obtain ⟨found, hfound⟩ := scanned_of_fits dimension hsummary table.rows
        fun k c ↦ hfilter _ ▸ hfits k c
      refine ⟨Rank.sortBy (byCost collate) found, ?_⟩
      simp only [summary, hdim, hfound]
      rfl
  · intro bucket hbucket
    constructor
    · intro report hreport
      rw [timeseries, if_neg (not_not.mpr hbucket)] at hreport
      obtain ⟨found, hfound, rfl⟩ := Loop.map_eq_ok.mp hreport
      rw [scanned_ok hseries hfound]
      exact breakdown_groupBy.perm (Rank.sortBy_perm _) hperm
    · intro hfits
      obtain ⟨found, hfound⟩ := scanned_of_fits (fun r ↦ dateTrunc bucket r.createdAt) hseries
        table.rows fun k c ↦ hfilter _ ▸ hfits k c
      refine ⟨Rank.sortBy (byBucket collate) found, ?_⟩
      rw [timeseries, if_neg (not_not.mpr hbucket), hfound]
      rfl

end Agree

/-- A filter that selects everything. -/
def UsageFilter.any : UsageFilter := ⟨none, "", false, "", "", zeroTime, zeroTime⟩

/-- The usage of tenant `acme` by model, and all of it in one bucket. -/
theorem reports_agree_sample : ∃ rows,
    Page.Complete (fun cursor ↦ list Table.sample.rows "acme" .any cursor 2) "" 2 rows ∧
    Breakdown UsageRow.model rows [⟨⟨30, 15, 300, 3⟩, "gpt-4o", "usd"⟩] ∧
    Breakdown (fun _ ↦ (0 : Time)) rows [⟨⟨30, 15, 300, 3⟩, 0, "usd"⟩] := by
  obtain ⟨rows, hlist, -, hsummary, hseries⟩ :=
    reports_agree String.toList (fun _ _ ↦ 0) Table.sample "acme" .any 2 (by decide)
  refine ⟨rows, hlist, (hsummary "model" UsageRow.model rfl).1 _ ?_,
    (hseries "day" (by decide)).1 _ ?_⟩
  · rfl
  · rfl

/-! ## The cost of a session -/

section Sessions

variable {κ : Type} [LinearOrder κ] {collate : String → κ} {tenant sessionID : String}

/-- A usage record of the repository's tenant and of a session. -/
def OfSession (tenant sessionID : String) (r : SessionUsageRow) : Prop :=
  r.sessionID = sessionID ∧ (tenant ≠ "" → r.tenant = tenant)

instance (r : SessionUsageRow) : Decidable (OfSession tenant sessionID r) :=
  inferInstanceAs (Decidable (_ ∧ _))

theorem sessionWhere_means (tenant sessionID : String) :
    (sessionWhere tenant sessionID).Means fun r ↦ decide (OfSession tenant sessionID r) := by
  rw [sessionWhere]
  refine .congr (.addIf (.start rfl) _ rfl) fun r ↦ ?_
  rw [Bool.eq_iff_iff, decide_eq_true_iff]
  simp [OfSession, or_iff_not_imp_left]

theorem sessionsCostWhere_means (tenant : String) (sessionIDs : List String) :
    (sessionsCostWhere tenant sessionIDs).Means fun r ↦
      decide (r.sessionID ∈ sessionIDs ∧ OfSession tenant r.sessionID r) := by
  rw [sessionsCostWhere]
  refine .congr (.addIf (.start (List.length_map ..)) _ rfl) fun r ↦ ?_
  rw [Bool.eq_iff_iff, Sql.Cond.oneOf_text_holds, decide_eq_true_iff]
  simp [OfSession, or_iff_not_imp_left]

/-- **The costs of a session**, one for each currency it has usage in, by currency. -/
structure CostsOf (collate : String → κ) (rows : List SessionUsageRow) (costs : List CurrencyCost) :
    Prop where
  mem_iff : ∀ c n, ⟨c, n⟩ ∈ costs ↔ (∃ r ∈ rows, r.currency = c) ∧
    n = ((rows.filter fun r ↦ r.currency = c).map fun r ↦ r.cost).sum
  nodup : (costs.map CurrencyCost.currency).Nodup
  sorted : costs.Pairwise fun a b ↦ collate a.currency ≤ collate b.currency

theorem CostsOf.unique (hcollate : Function.Injective collate) {rows : List SessionUsageRow}
    {costs costs' : List CurrencyCost} (h : CostsOf collate rows costs)
    (h' : CostsOf collate rows costs') : costs = costs' := by
  have hperm : costs.Perm costs' := by
    refine (List.perm_ext_iff_of_nodup h.nodup.of_map h'.nodup.of_map).mpr fun a ↦ ?_
    rw [h.mem_iff a.currency a.cost, h'.mem_iff a.currency a.cost]
  have hdistinct : Rank.Distinct (fun a : CurrencyCost ↦ collate a.currency) costs' := by
    have hmap := h'.nodup.map hcollate
    rwa [List.map_map] at hmap
  exact (Rank.sortBy_unique hdistinct hperm h.sorted).trans
    (Rank.sortBy_unique hdistinct (.refl _) h'.sorted).symm

/-- What `SummaryBySession` groups. -/
theorem costsOf_summary (table : List SessionUsageRow) : CostsOf collate
    (table.filter fun r ↦ OfSession tenant sessionID r)
    ((Rank.sortBy (byCurrency collate) (Sql.groupBy (fun r : SessionUsageRow ↦ ((), r.currency))
      (group SessionUsageRow.toUsageRow) (table.filter fun r ↦ OfSession tenant sessionID r))).map
        UsageGroup.currencyCost) where
  mem_iff c n := by
    simp only [List.mem_map, Rank.mem_sortBy, Sql.mem_groupBy, Prod.mk.injEq, true_and]
    constructor
    · rintro ⟨g, ⟨r, hr, rfl⟩, hcost⟩
      obtain ⟨rfl, rfl⟩ := CurrencyCost.mk.inj hcost
      refine ⟨⟨r, hr, rfl⟩, ?_⟩
      simp [group, totals, Function.comp_def]
    · rintro ⟨⟨r, hr, rfl⟩, rfl⟩
      refine ⟨_, ⟨r, hr, rfl⟩, ?_⟩
      simp [UsageGroup.currencyCost, group, totals, Function.comp_def]
  nodup := by
    have hnodup := Sql.nodup_groupBy (fun r : SessionUsageRow ↦ ((), r.currency))
      (group SessionUsageRow.toUsageRow) (fun g ↦ (g.key, g.currency)) (fun _ _ ↦ rfl)
      (table.filter fun r ↦ OfSession tenant sessionID r)
    rw [List.map_map]
    refine (((Rank.sortBy_perm _).map _).nodup_iff).mpr (List.Nodup.of_map (fun c ↦ ((), c)) ?_)
    rwa [List.map_map]
  sorted := by
    rw [List.pairwise_map]
    exact Rank.pairwise_sortBy _

/-- What `CostBySessions` finds for one of its sessions. -/
theorem costsOf_sessions {sessionIDs : List String} (hmem : sessionID ∈ sessionIDs)
    (table : List SessionUsageRow) :
    CostsOf collate (table.filter fun r ↦ OfSession tenant sessionID r)
      (((Rank.sortBy (bySession collate)
        (Sql.groupBy (fun r : SessionUsageRow ↦ (r.sessionID, r.currency))
          (group SessionUsageRow.toUsageRow)
          (table.filter fun r ↦ r.sessionID ∈ sessionIDs ∧ OfSession tenant r.sessionID r))).filter
            fun g ↦ g.key = sessionID).map UsageGroup.currencyCost) where
  mem_iff c n := by
    have hfilter : ∀ c,
        ((table.filter fun r ↦ r.sessionID ∈ sessionIDs ∧ OfSession tenant r.sessionID r).filter
          fun r ↦ r.sessionID = sessionID ∧ r.currency = c) =
          (table.filter fun r ↦ OfSession tenant sessionID r).filter fun r ↦ r.currency = c := by
      intro c
      rw [List.filter_filter, List.filter_filter]
      refine List.filter_congr fun r _ ↦ ?_
      rw [Bool.eq_iff_iff]
      simp only [Bool.and_eq_true, decide_eq_true_eq]
      constructor
      · rintro ⟨⟨hid, hc⟩, -, hof⟩
        exact ⟨hc, hid ▸ hof⟩
      · rintro ⟨hc, hof⟩
        exact ⟨⟨hof.1, hc⟩, hof.1.symm ▸ hmem, rfl, hof.2⟩
    simp only [List.mem_map, List.mem_filter, Rank.mem_sortBy, Sql.mem_groupBy, Prod.mk.injEq,
      decide_eq_true_eq]
    constructor
    · rintro ⟨g, ⟨⟨r, hr, rfl⟩, hid⟩, hcost⟩
      obtain rfl : r.sessionID = sessionID := hid
      obtain ⟨rfl, rfl⟩ := CurrencyCost.mk.inj hcost
      refine ⟨⟨r, ⟨hr.1, hr.2.2⟩, rfl⟩, ?_⟩
      rw [← hfilter]
      simp [group, totals, Function.comp_def]
    · rintro ⟨⟨r, ⟨hr, hof⟩, rfl⟩, rfl⟩
      obtain rfl : r.sessionID = sessionID := hof.1
      refine ⟨_, ⟨⟨r, ⟨hr, hmem, hof⟩, rfl⟩, rfl⟩, ?_⟩
      rw [← hfilter]
      simp [UsageGroup.currencyCost, group, totals, Function.comp_def]
  nodup := by
    have hnodup := Sql.nodup_groupBy (fun r : SessionUsageRow ↦ (r.sessionID, r.currency))
      (group SessionUsageRow.toUsageRow) (fun g ↦ (g.key, g.currency)) (fun _ _ ↦ rfl)
      (table.filter fun r ↦ r.sessionID ∈ sessionIDs ∧ OfSession tenant r.sessionID r)
    rw [List.map_map]
    refine List.Nodup.of_map (fun c ↦ (sessionID, c)) ?_
    rw [List.map_map]
    refine Eq.mp (congrArg List.Nodup (List.map_congr_left fun g hg ↦ ?_))
      (((((Rank.sortBy_perm _).map _).nodup_iff).mpr hnodup).sublist
        ((List.filter_sublist (p := fun g : UsageGroup String ↦ decide (g.key = sessionID))).map _))
    obtain rfl : g.key = sessionID := of_decide_eq_true (List.mem_filter.mp hg).2
    rfl
  sorted := by
    rw [List.pairwise_map]
    refine List.Pairwise.imp_of_mem (fun {a b} ha hb hle ↦ ?_) ((Rank.pairwise_sortBy _).filter _)
    have hkey : a.key = b.key := (of_decide_eq_true (List.mem_filter.mp ha).2).trans
      (of_decide_eq_true (List.mem_filter.mp hb).2).symm
    rcases Prod.Lex.toLex_le_toLex.mp hle with hlt | ⟨-, hle⟩
    · exact absurd (hkey ▸ hlt) (lt_irrefl _)
    · exact hle

/-- The loop of `SummaryBySession` collects the costs, and leaves the cost and the currency to its
end. -/
theorem foldl_add (found : List (UsageGroup Unit)) (s : SessionCostSummary) :
    (found.foldl SessionCostSummary.add s).costsByCurrency =
        s.costsByCurrency ++ found.map UsageGroup.currencyCost ∧
      (found.foldl SessionCostSummary.add s).cost = s.cost ∧
      (found.foldl SessionCostSummary.add s).currency = s.currency := by
  induction found generalizing s with
  | nil => exact ⟨(List.append_nil _).symm, rfl, rfl⟩
  | cons g found ih =>
    obtain ⟨hcosts, hcost, hcurrency⟩ := ih (s.add g)
    refine ⟨?_, hcost, hcurrency⟩
    rw [List.foldl_cons, hcosts, List.map_cons]
    show (s.costsByCurrency ++ [g.currencyCost]) ++ _ = _
    rw [List.append_assoc, List.singleton_append]

theorem summaryBySession_ok (hne : sessionID ≠ "") {table : List SessionUsageRow}
    {s : SessionCostSummary} (h : summaryBySession collate table tenant sessionID = .ok s) :
    CostsOf collate (table.filter fun r ↦ OfSession tenant sessionID r) s.costsByCurrency ∧
      mergeCosts s.costsByCurrency = ⟨s.cost, s.currency, s.costsByCurrency⟩ := by
  rw [summaryBySession, if_neg hne] at h
  obtain ⟨found, hfound, rfl⟩ := Loop.map_eq_ok.mp h
  rw [scanned_ok (sessionWhere_means tenant sessionID) hfound]
  have hcosts : CostsOf collate (table.filter fun r ↦ OfSession tenant sessionID r) _ :=
    costsOf_summary table
  generalize Rank.sortBy (byCurrency collate) _ = sorted at hcosts ⊢
  obtain ⟨hlist, hcost, hcurrency⟩ := foldl_add sorted ⟨sessionID, 0, 0, some 0, "", [], 0⟩
  rw [List.nil_append] at hlist
  match sorted with
  | [] => exact ⟨hcosts, rfl⟩
  | [g] => exact ⟨hcosts, rfl⟩
  | g :: g' :: rest =>
    simp only [SessionCostSummary.settle, hlist, hcurrency]
    exact ⟨hcosts, rfl⟩

theorem costBySessions_ok {sessionIDs : List String} (hmem : sessionID ∈ sessionIDs)
    {table : List SessionUsageRow} {costs : String → List CurrencyCost}
    (h : costBySessions collate table tenant sessionIDs = .ok costs) :
    CostsOf collate (table.filter fun r ↦ OfSession tenant sessionID r) (costs sessionID) := by
  rw [costBySessions, if_neg (List.ne_nil_of_mem hmem)] at h
  obtain ⟨found, hfound, rfl⟩ := Loop.map_eq_ok.mp h
  rw [scanned_ok (sessionsCostWhere_means tenant sessionIDs) hfound]
  exact costsOf_sessions hmem table

/-- **A session costs the same in the list of sessions as in its own view.**  What the handler of
the listing merges into a session, from one query for all the sessions of its page, is what
`SummaryBySession` says of the session alone: its costs by currency, each the sum of the session's
usage, and its single cost if there is one. -/
theorem session_costs_agree (hcollate : Function.Injective collate) (table : List SessionUsageRow)
    (tenant : String) {sessionIDs : List String} {sessionID : String}
    (hmem : sessionID ∈ sessionIDs) (hne : sessionID ≠ "") {costs : String → List CurrencyCost}
    {s : SessionCostSummary} (hcosts : costBySessions collate table tenant sessionIDs = .ok costs)
    (hs : summaryBySession collate table tenant sessionID = .ok s) :
    mergeCosts (costs sessionID) = ⟨s.cost, s.currency, s.costsByCurrency⟩ ∧
      CostsOf collate (table.filter fun r ↦ OfSession tenant sessionID r) s.costsByCurrency := by
  obtain ⟨hsummary, hmerge⟩ := summaryBySession_ok hne hs
  rw [(costBySessions_ok hmem hcosts).unique hcollate hsummary]
  exact ⟨hmerge, hsummary⟩

/-- A session with usage in two currencies, beside another one. -/
def SessionUsageRow.samples : List SessionUsageRow :=
  [⟨.sample 1 1000, "s1"⟩, ⟨{ UsageRow.sample 2 2000 with currency := "eur" }, "s1"⟩,
    ⟨.sample 3 3000, "s2"⟩]

theorem session_costs_agree_samples :
    mergeCosts [⟨"eur", 100⟩, ⟨"usd", 100⟩] = ⟨none, "", [⟨"eur", 100⟩, ⟨"usd", 100⟩]⟩ ∧
      CostsOf String.toList (SessionUsageRow.samples.filter fun r ↦ OfSession "acme" "s1" r)
        [⟨"eur", 100⟩, ⟨"usd", 100⟩] := by
  have hcosts :
      ∃ costs, costBySessions String.toList SessionUsageRow.samples "acme"
      ["s2", "s1"] = .ok costs ∧
      costs "s1" = [⟨"eur", 100⟩, ⟨"usd", 100⟩] := ⟨_, rfl, by decide⟩
  obtain ⟨costs, hok, hs1⟩ := hcosts
  have hs : summaryBySession String.toList SessionUsageRow.samples "acme" "s1" =
      .ok ⟨"s1", 20, 10, none, "", [⟨"eur", 100⟩, ⟨"usd", 100⟩], 2⟩ := rfl
  have hmem : "s1" ∈ ["s2", "s1"] := by decide
  have h :=
    session_costs_agree (fun _ _ ↦ String.toList_inj.mp) SessionUsageRow.samples "acme"
    hmem (by decide) hok hs
  rwa [hs1] at h

end Sessions

end UsageQuery
end Voxeltoad
