import Mathlib.Algebra.Order.Floor.Div
import Voxeltoad.Lib.Page
import Voxeltoad.Store.Sessions

/-!
# Paging through the sessions

The enterprise `ListSessions` orders sessions by `MAX(created_at) DESC` alone, and takes a page out
of them by offset.  Sessions that were last active at one time stand in no particular order, and
each page is a query of its own: `listSessionsWith` is the listing under one choice of what the
query leaves open (`SessionsPlan`).

`session_pages_complete_iff` says when the pages have every session once, whatever is chosen for
each of them: when sessions that were last active at one time are never on both sides of a border
between two pages.
-/

set_option autoImplicit false

namespace Voxeltoad
namespace RequestLogQuery

/-! ## The listing under a plan -/

/-- What the query of `ListSessions` leaves open: in which order rows of one time are aggregated,
for each session, and in which order sessions that were last seen at one time are listed. -/
structure SessionsPlan where
  agentTypes : String → Rank.Plan latestFirst
  userAgents : String → Rank.Plan latestFirst
  sessions : Rank.Plan byLastSeen

/-- `COALESCE((array_agg(col ORDER BY created_at DESC) FILTER (WHERE col <> ''))[1], '')`. -/
def aggregated (plan : Rank.Plan latestFirst) (col : RequestLogRow → String)
    (rows : List RequestLogRow) : String :=
  ((plan.order (rows.filter fun r ↦ col r ≠ "")).head?.map col).getD ""

/-- A session, from the rows of its group. -/
def summarizeWith (plan : SessionsPlan) (sessionID : String) (rows : List RequestLogRow) :
    SessionSummary :=
  { summarize sessionID rows with
    agentType := aggregated (plan.agentTypes sessionID) RequestLogRow.agentType rows
    userAgent := aggregated (plan.userAgents sessionID) RequestLogRow.userAgent rows }

/-- **`ListSessions`** under a plan. -/
def listSessionsWith (plan : SessionsPlan) (table : List RequestLogRow) (tenant : String)
    (f : SessionListFilter) (page pageSize : Int) : Option (List SessionSummary × Int) :=
  let w := sessionsWhere tenant f
  (Sql.countGroups RequestLogRow.sessionID table w.conds w.args).bind fun total ↦
    (Sql.grouped RequestLogRow.sessionID (summarizeWith plan) table w.conds
      (w.args ++ [.int (sessionPageSize pageSize), .int (sessionOffset page pageSize)])).bind
        fun (sessions, rest) ↦
          (Sql.window (plan.sessions.order sessions) rest).map fun sessions ↦ (sessions, total)

/-- Ties stay in the order of the table. -/
def SessionsPlan.stable : SessionsPlan := ⟨fun _ ↦ .stable, fun _ ↦ .stable, .stable⟩

theorem summarizeWith_stable : summarizeWith .stable = summarize := rfl

/-- The listing that keeps ties in the order of the table is one of them. -/
theorem listSessionsWith_stable (table : List RequestLogRow) (tenant : String)
    (f : SessionListFilter) (page pageSize : Int) :
    listSessionsWith .stable table tenant f page pageSize =
      listSessions table tenant f page pageSize := by
  rw [listSessionsWith, listSessions, summarizeWith_stable]
  rfl

/-! ## What is listed -/

section Found

variable (table : List RequestLogRow) (tenant : String) (f : SessionListFilter)

/-- The rows that match. -/
def foundRows : List RequestLogRow :=
  table.filter fun r ↦ (tenant ≠ "" → r.tenant = tenant) ∧ f.Matches r

/-- The sessions that have a row that matches. -/
def foundSessions : List String := ((foundRows table tenant f).map RequestLogRow.sessionID).dedup

/-- The rows of a session that match. -/
def rowsOf (k : String) : List RequestLogRow :=
  (foundRows table tenant f).filter fun r ↦ r.sessionID = k

/-- When a session was last seen, of two the later one first. -/
def lastSeenRank (k : String) : Intᵒᵈ := byLastSeen (summarize k (rowsOf table tenant f k))

/-- The sessions in the order of a plan. -/
def planned (plan : SessionsPlan) : List SessionSummary :=
  plan.sessions.order ((foundSessions table tenant f).map fun k ↦
    summarizeWith plan k (rowsOf table tenant f k))

variable {table tenant f}

theorem foundSessions_nodup : (foundSessions table tenant f).Nodup := List.nodup_dedup _

theorem mem_foundSessions {k : String} :
    k ∈ foundSessions table tenant f ↔ ∃ r ∈ foundRows table tenant f, r.sessionID = k := by
  rw [foundSessions, List.mem_dedup, List.mem_map]

theorem foundSessions_length_le : (foundSessions table tenant f).length ≤ table.length := by
  calc (foundSessions table tenant f).length
      ≤ ((foundRows table tenant f).map RequestLogRow.sessionID).length :=
        (List.dedup_sublist _).length_le
    _ = (foundRows table tenant f).length := List.length_map _
    _ ≤ table.length := List.length_filter_le ..

/-- **A page** is cut out of the sessions in the order of its plan. -/
theorem listSessionsWith_eq (plan : SessionsPlan) {page pageSize : Int}
    (hoffset : 0 ≤ sessionOffset page pageSize) :
    listSessionsWith plan table tenant f page pageSize =
      some (((planned table tenant f plan).drop (sessionOffset page pageSize).toNat).take
        (sessionPageSize pageSize).toNat, ((foundSessions table tenant f).length : Int)) := by
  have hsize : 0 ≤ sessionPageSize pageSize := by
    rw [sessionPageSize]
    split <;> omega
  have hw := sessionsWhere_means tenant f
  simp only [listSessionsWith, hw.countGroups, hw.grouped, Option.bind_some, Sql.window,
    if_pos (And.intro hsize hoffset), Option.map_some]
  rfl

/-- A session was last seen at `t` or later when one of its rows is of that time. -/
theorem lastSeenRank_le_iff {k : String} (hk : k ∈ foundSessions table tenant f) (t : Time) :
    lastSeenRank table tenant f k ≤ OrderDual.toDual t ↔
      ∃ r ∈ foundRows table tenant f, r.sessionID = k ∧ t ≤ r.createdAt := by
  have hrows : rowsOf table tenant f k ≠ [] := by
    obtain ⟨r, hr, hrk⟩ := mem_foundSessions.mp hk
    exact List.ne_nil_of_mem (List.mem_filter.mpr ⟨hr, decide_eq_true hrk⟩)
  obtain ⟨g, hg, hgle, hmax⟩ := exists_last hrows
  obtain ⟨hgfound, hgk⟩ := List.mem_filter.mp hg
  rw [lastSeenRank, byLastSeen, OrderDual.toDual_le_toDual, summarize, hmax]
  constructor
  · exact fun hle ↦ ⟨g, hgfound, of_decide_eq_true hgk, hle⟩
  · rintro ⟨r, hr, hrk, hle⟩
    exact hle.trans (hgle r (List.mem_filter.mpr ⟨hr, decide_eq_true hrk⟩))

/-- The names of the sessions, in the order of a plan. -/
theorem planned_orders (plan : SessionsPlan) :
    Rank.Orders (lastSeenRank table tenant f) (foundSessions table tenant f)
      ((planned table tenant f plan).map SessionSummary.sessionID) := by
  obtain ⟨hperm, hsorted⟩ := plan.sessions.orders ((foundSessions table tenant f).map fun k ↦
    summarizeWith plan k (rowsOf table tenant f k))
  have hnames : ((foundSessions table tenant f).map fun k ↦
      summarizeWith plan k (rowsOf table tenant f k)).map SessionSummary.sessionID =
        foundSessions table tenant f := by
    rw [List.map_map]
    exact List.map_id' _
  have hrank :
      ∀ s ∈ planned table tenant f plan,
      byLastSeen s = lastSeenRank table tenant f s.sessionID := by
    intro s hs
    obtain ⟨k, -, rfl⟩ := List.mem_map.mp (hperm.mem_iff.mp hs)
    rfl
  refine ⟨?_, List.pairwise_map.mpr (hsorted.imp_of_mem fun {a b} ha hb hab ↦ ?_)⟩
  · exact (hperm.map _).trans (List.Perm.of_eq hnames)
  · rwa [← hrank a ha, ← hrank b hb]

/-- Every order of the names comes from a plan. -/
theorem exists_planned {names : List String}
    (h : Rank.Orders (lastSeenRank table tenant f) (foundSessions table tenant f) names) :
    ∃ plan, (planned table tenant f plan).map SessionSummary.sessionID = names := by
  let summary (k : String) : SessionSummary := summarize k (rowsOf table tenant f k)
  have horders :
      Rank.Orders byLastSeen ((foundSessions table tenant f).map summary) (names.map summary) :=
    ⟨h.perm.map _, List.pairwise_map.mpr h.sorted⟩
  refine ⟨{ SessionsPlan.stable with sessions := .choosing horders }, ?_⟩
  have hplanned :
      planned table tenant f { SessionsPlan.stable with sessions := .choosing horders } =
      names.map summary := Rank.Plan.choosing_order horders
  rw [hplanned, List.map_map]
  exact List.map_id' _

end Found

/-! ## All pages -/

/-- The pages from 1 to `ceil(total / page size)`, each under a plan of its own. -/
def sessionPages (plans : Nat → SessionsPlan) (table : List RequestLogRow) (tenant : String)
    (f : SessionListFilter) (pageSize : Int) : List (Option (List SessionSummary × Int)) :=
  (List.range ((foundSessions table tenant f).length ⌈/⌉ (sessionPageSize pageSize).toNat)).map
  fun i ↦
    listSessionsWith (plans i) table tenant f (i + 1) pageSize

/-- **The listing is complete**: every page says how many sessions there are, and together the pages
have each of them once. -/
def PagesComplete (plans : Nat → SessionsPlan) (table : List RequestLogRow) (tenant : String)
    (f : SessionListFilter) (pageSize : Int) : Prop :=
  ∃ pages : List (List SessionSummary × Int),
    sessionPages plans table tenant f pageSize = pages.map some ∧
      (∀ p ∈ pages, p.2 = (foundSessions table tenant f).length) ∧
      ((pages.map Prod.fst).flatten.map SessionSummary.sessionID).Perm
      (foundSessions table tenant f)

/-- No sessions that were last active at one time are on both sides of a border between two pages:
for every border there is a time such that just the sessions before it have a row of that time or
later. -/
def TiesWithinPages (table : List RequestLogRow) (tenant : String) (f : SessionListFilter)
    (size : Nat) : Prop :=
  ∀ k, 0 < k * size → k * size < (foundSessions table tenant f).length →
    ∃ t : Time, ((foundSessions table tenant f).filter fun name ↦
      ∃ r ∈ foundRows table tenant f, r.sessionID = name ∧ t ≤ r.createdAt).length = k * size

section Pages

variable {table : List RequestLogRow} {tenant : String} {f : SessionListFilter} {pageSize : Int}

theorem sessionPageSize_pos (pageSize : Int) : 0 < sessionPageSize pageSize := by
  rw [sessionPageSize]
  split <;> omega

/-- The offsets of the pages are in range. -/
theorem sessionOffset_page {total : Nat} (htotal : total < 2 ^ 63) {i : Nat}
    (hi : i < total ⌈/⌉ (sessionPageSize pageSize).toNat) :
    sessionOffset (i + 1) pageSize = (i * (sessionPageSize pageSize).toNat : Nat) := by
  have hpos := sessionPageSize_pos pageSize
  obtain ⟨size, hsize⟩ : ∃ size : Nat, sessionPageSize pageSize = size :=
    Int.eq_ofNat_of_zero_le hpos.le
  rw [hsize, Int.toNat_natCast] at hi
  rw [hsize] at hpos
  have hlt : i * size < total := by
    rw [Nat.mul_comm]
    exact lt_of_not_ge fun hle ↦ absurd ((ceilDiv_le_iff_le_mul (by omega)).mpr hle) (by omega)
  have hile : i ≤ i * size := Nat.le_mul_of_pos_right i (by omega)
  have hfirst : firstPage (i + 1) - 1 = i := by
    rw [firstPage, if_neg (by omega)]
    omega
  have hi64 : int64 i = i := int64_of_range (by omega) (by omega)
  have hproduct : int64 ((i * size : Nat) : Int) = (i * size : Nat) :=
    int64_of_range (by omega) (by omega)
  rw [sessionOffset, hfirst, hi64, hsize, Int.toNat_natCast, ← Int.natCast_mul, hproduct]

/-- **All pages together**, as they are cut out of the orders of their plans. -/
theorem pagesComplete_iff (plans : Nat → SessionsPlan) (hlength : table.length < 2 ^ 63) :
    PagesComplete plans table tenant f pageSize ↔
      (Page.offsetPages (fun i ↦ (planned table tenant f (plans i)).map SessionSummary.sessionID)
        (sessionPageSize pageSize).toNat
        ((foundSessions table tenant f).length ⌈/⌉ (sessionPageSize pageSize).toNat)).Perm
          (foundSessions table tenant f) := by
  have htotal : (foundSessions table tenant f).length < 2 ^ 63 :=
    foundSessions_length_le.trans_lt hlength
  -- What the queries answer, page by page.
  let page (i : Nat) : List SessionSummary × Int :=
    (((planned table tenant f (plans i)).drop (i * (sessionPageSize pageSize).toNat)).take
      (sessionPageSize pageSize).toNat, (foundSessions table tenant f).length)
  have hpages : sessionPages plans table tenant f pageSize =
      ((List.range ((foundSessions table tenant f).length ⌈/⌉ (sessionPageSize pageSize).toNat)).map
        page).map some := by
    rw [sessionPages, List.map_map]
    refine List.map_congr_left fun i hi ↦ ?_
    have hoffset := sessionOffset_page htotal (List.mem_range.mp hi)
    rw [listSessionsWith_eq (plans i) (by rw [hoffset]; omega), hoffset, Int.toNat_natCast]
    rfl
  have hnames : ((((List.range ((foundSessions table tenant f).length ⌈/⌉
      (sessionPageSize pageSize).toNat)).map page).map Prod.fst).flatten.map
      SessionSummary.sessionID) =
        Page.offsetPages (fun i ↦ (planned table tenant f (plans i)).map SessionSummary.sessionID)
          (sessionPageSize pageSize).toNat
          ((foundSessions table tenant f).length ⌈/⌉ (sessionPageSize pageSize).toNat) := by
    rw [List.map_map, List.map_flatten, List.map_map, Page.offsetPages]
    refine congrArg List.flatten (List.map_congr_left fun i _ ↦ ?_)
    simp only [Function.comp_apply, page, List.map_take, List.map_drop]
  rw [← hnames]
  constructor
  · rintro ⟨pages, heq, -, hperm⟩
    rw [hpages] at heq
    rwa [List.map_injective_iff.mpr (Option.some_injective _) heq]
  · refine fun hperm ↦ ⟨_, hpages, fun p hp ↦ ?_, hperm⟩
    obtain ⟨i, -, rfl⟩ := List.mem_map.mp hp
    rfl

theorem border_iff (p : Nat) :
    Rank.Border (lastSeenRank table tenant f) (foundSessions table tenant f) p ↔
      ∃ t : Time, ((foundSessions table tenant f).filter fun name ↦
        ∃ r ∈ foundRows table tenant f, r.sessionID = name ∧ t ≤ r.createdAt).length = p := by
  have hseen : ∀ t : Time,
      ((foundSessions table tenant f).filter fun name ↦
        lastSeenRank table tenant f name ≤ OrderDual.toDual t) =
      (foundSessions table tenant f).filter fun name ↦
        ∃ r ∈ foundRows table tenant f, r.sessionID = name ∧ t ≤ r.createdAt :=
    fun t ↦ List.filter_congr fun k hk ↦ decide_eq_decide.mpr (lastSeenRank_le_iff hk t)
  constructor
  · rintro ⟨t, ht⟩
    exact ⟨OrderDual.ofDual t, hseen (OrderDual.ofDual t) ▸ ht⟩
  · rintro ⟨t, ht⟩
    exact ⟨OrderDual.toDual t, (hseen t).symm ▸ ht⟩

end Pages

/-- **When paging through the sessions is complete**, whatever order each query gives to sessions
that were last active at one time. -/
theorem session_pages_complete_iff (table : List RequestLogRow) (hlength : table.length < 2 ^ 63)
    (tenant : String) (f : SessionListFilter) (pageSize : Int) :
    (∀ plans, PagesComplete plans table tenant f pageSize) ↔
      TiesWithinPages table tenant f (sessionPageSize pageSize).toNat := by
  have hpos := sessionPageSize_pos pageSize
  have hn : (foundSessions table tenant f).length ≤
      ((foundSessions table tenant f).length ⌈/⌉ (sessionPageSize pageSize).toNat) *
        (sessionPageSize pageSize).toNat := by
    rw [Nat.mul_comm]
    exact (ceilDiv_le_iff_le_mul (by omega)).mp (le_refl _)
  have hborders : TiesWithinPages table tenant f (sessionPageSize pageSize).toNat ↔
      ∀ k, 0 < k * (sessionPageSize pageSize).toNat →
        k * (sessionPageSize pageSize).toNat < (foundSessions table tenant f).length →
        Rank.Border (lastSeenRank table tenant f) (foundSessions table tenant f)
          (k * (sessionPageSize pageSize).toNat) := by
    simp only [TiesWithinPages, border_iff]
  rw [hborders, ← Page.offsetPages_complete_iff foundSessions_nodup hn]
  constructor
  · intro hall orders horders
    choose plans hplans using fun i ↦ exists_planned (horders i)
    have hperm := (pagesComplete_iff plans hlength).mp (hall plans)
    simpa only [hplans] using hperm
  · intro hall plans
    exact (pagesComplete_iff plans hlength).mpr (hall _ fun i ↦ planned_orders (plans i))

/-- Two sessions, each with one request, and both at one time. -/
def tiedSessions : List RequestLogRow := [.inSession 1 "s1" 1000, .inSession 2 "s2" 1000]

/-- One page has them both. -/
theorem session_pages_complete_iff_sample :
    TiesWithinPages tiedSessions "acme" {} 2 ∧ ∀ plans,
    PagesComplete plans tiedSessions "acme" {} 2 := by
  have hties : TiesWithinPages tiedSessions "acme" {} 2 := by
    intro k hpos hlt
    have htotal : (foundSessions tiedSessions "acme" {}).length = 2 := by decide
    omega
  exact ⟨hties, (session_pages_complete_iff tiedSessions (by decide) "acme" {} 2).mpr hties⟩

/-- The two sessions the other way round. -/
def swappedPlan : SessionsPlan :=
  { SessionsPlan.stable with
    sessions := .choosing (l := (foundSessions tiedSessions "acme" {}).map fun k ↦
        summarize k (rowsOf tiedSessions "acme" {} k))
      ⟨List.reverse_perm _, by decide⟩ }

/-- With one session on a page, the second query may list last what the first one has listed
first. -/
theorem session_pages_repeat :
    ¬∀ (table : List RequestLogRow) (tenant : String) (f : SessionListFilter) (pageSize : Int),
      table.length < 2 ^ 63 → ∀ plans, PagesComplete plans table tenant f pageSize := by
  intro hall
  have hcomplete := hall tiedSessions "acme" {} 1 (by decide) fun i ↦ if i = 0 then .stable
    else swappedPlan
  exact absurd ((pagesComplete_iff _ (by decide)).mp hcomplete) (by decide)

end RequestLogQuery
end Voxeltoad
