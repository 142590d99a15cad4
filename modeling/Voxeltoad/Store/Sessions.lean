import Mathlib.Data.List.Dedup
import Voxeltoad.Store.RequestLog

/-!
# Session listings

`ListSessions`, of `internal/store/requestlog_query.go` for the enterprise gateway and of
`internal/desktopstore/query.go` for the desktop, which is to mirror it in SQLite.  Both group the
rows that match a filter by session and add them up.  The enterprise one takes the bounds of a
session and its agent from the rows of the group; the desktop one from subqueries, which see all the
rows of the session.

`sessions_agree_iff` says for which tables and filters that makes no difference.
-/

set_option autoImplicit false

namespace Voxeltoad

open RequestLogQuery (RequestLogRow)

/-- `SessionListFilter`. -/
structure SessionListFilter where
  agentType : String := ""
  fromTime : Time := zeroTime
  toTime : Time := zeroTime
  deriving DecidableEq, Repr

/-- `SessionSummary`, as both listings have it. -/
structure SessionSummary where
  sessionID : String
  agentType : String
  userAgent : String
  requestCount : Int
  promptTokens : Int
  completionTokens : Int
  totalTokens : Int
  durationMs : Int
  startedAt : Time
  lastSeen : Time
  hasErrors : Bool
  deriving DecidableEq, Repr

/-- The first value of a column that is not empty, in some order of the rows. -/
def firstNonempty {κ : Type} [LinearOrder κ] (rank : RequestLogRow → κ)
    (col : RequestLogRow → String) (rows : List RequestLogRow) : String :=
  ((Rank.first rank (rows.filter fun r ↦ col r ≠ "")).map col).getD ""

/-- `if page < 1 { page = 1 }`. -/
def firstPage (page : Int) : Int := if page < 1 then 1 else page

/-- `defaultSessionPageSize` for a size that is not positive. -/
def sessionPageSize (pageSize : Int) : Int := if pageSize < 1 then 20 else pageSize

/-- `(page - 1) * pageSize`. -/
def sessionOffset (page pageSize : Int) : Int :=
  int64 (int64 (firstPage page - 1) * sessionPageSize pageSize)

namespace RequestLogQuery

/-- The conditions of `ListSessions`. -/
def sessionsWhere (tenant : String) (f : SessionListFilter) : Sql.Where RequestLogRow :=
  (Sql.Where.start (.nonempty fun r ↦ .text r.sessionID) [])
    |>.addIf (tenant ≠ "") (.eq fun r ↦ .text r.tenant) [.text tenant]
    |>.addIf (f.agentType ≠ "") (.eq fun r ↦ .text r.agentType) [.text f.agentType]
    |>.addIf (f.fromTime ≠ zeroTime) (.atLeast fun r ↦ .time r.createdAt) [.time f.fromTime]
    |>.addIf (f.toTime ≠ zeroTime) (.below fun r ↦ .time r.createdAt) [.time f.toTime]

/-- `ORDER BY created_at DESC`. -/
def latestFirst (r : RequestLogRow) : Intᵒᵈ := OrderDual.toDual r.createdAt

/-- A session, from the rows of its group. -/
def summarize (sessionID : String) (rows : List RequestLogRow) : SessionSummary where
  sessionID := sessionID
  agentType := firstNonempty latestFirst RequestLogRow.agentType rows
  userAgent := firstNonempty latestFirst RequestLogRow.userAgent rows
  requestCount := rows.length
  promptTokens := (rows.map RequestLogRow.promptTokens).sum
  completionTokens := (rows.map RequestLogRow.completionTokens).sum
  totalTokens := (rows.map RequestLogRow.totalTokens).sum
  durationMs := (rows.map RequestLogRow.durationMs).sum
  startedAt := (rows.map RequestLogRow.createdAt).min?.getD zeroTime
  lastSeen := (rows.map RequestLogRow.createdAt).max?.getD zeroTime
  hasErrors := rows.any fun r ↦ r.errorType ≠ ""

/-- `ORDER BY MAX(created_at) DESC`. -/
def byLastSeen (s : SessionSummary) : Intᵒᵈ := OrderDual.toDual s.lastSeen

/-- `ListSessions`. -/
def listSessions (table : List RequestLogRow) (tenant : String) (f : SessionListFilter)
    (page pageSize : Int) : Option (List SessionSummary × Int) :=
  let w := sessionsWhere tenant f
  (Sql.countGroups RequestLogRow.sessionID table w.conds w.args).bind fun total ↦
    (Sql.grouped RequestLogRow.sessionID summarize table w.conds
      (w.args ++ [.int (sessionPageSize pageSize), .int (sessionOffset page pageSize)])).bind
        fun (sessions, rest) ↦
          (Sql.window (Rank.sortBy byLastSeen sessions) rest).map fun sessions ↦ (sessions, total)

end RequestLogQuery

namespace DesktopStore

/-- `SessionSummary` of the desktop. -/
structure SessionSummary extends Voxeltoad.SessionSummary where
  favorited : Bool
  deriving DecidableEq, Repr

/-- The conditions of `ListSessions`. -/
def sessionsWhere (f : SessionListFilter) : Sql.Where RequestLogRow :=
  (Sql.Where.start (.nonempty fun r ↦ .text r.sessionID) [])
    |>.addIf (f.agentType ≠ "") (.eq fun r ↦ .text r.agentType) [.text f.agentType]
    |>.addIf (f.fromTime ≠ zeroTime) (.atLeast fun r ↦ .time r.createdAt) [.time f.fromTime]
    |>.addIf (f.toTime ≠ zeroTime) (.below fun r ↦ .time r.createdAt) [.time f.toTime]

/-- `ORDER BY created_at ASC, id ASC`. -/
def oldestFirst (r : RequestLogRow) : Lex (Int × Int) := toLex (r.createdAt, r.id)

/-- `ORDER BY created_at DESC, id DESC`. -/
def newestRow (r : RequestLogRow) : Lex (Intᵒᵈ × Intᵒᵈ) :=
  newestFirst RequestLogRow.createdAt RequestLogRow.id r

/-- A session: the counts and sums are over the rows of its group, and the subqueries are over all
rows of the session in the table. -/
def summarize (table : List RequestLogRow) (favorites : List String) (sessionID : String)
    (rows : List RequestLogRow) : SessionSummary :=
  let session := table.filter fun r ↦ r.sessionID = sessionID
  { sessionID := sessionID
    agentType := firstNonempty newestRow RequestLogRow.agentType session
    userAgent := firstNonempty newestRow RequestLogRow.userAgent session
    requestCount := rows.length
    promptTokens := (rows.map RequestLogRow.promptTokens).sum
    completionTokens := (rows.map RequestLogRow.completionTokens).sum
    totalTokens := (rows.map RequestLogRow.totalTokens).sum
    durationMs := (rows.map RequestLogRow.durationMs).sum
    startedAt := ((Rank.first oldestFirst session).map RequestLogRow.createdAt).getD zeroTime
    lastSeen := ((Rank.first newestRow session).map RequestLogRow.createdAt).getD zeroTime
    hasErrors := rows.any fun r ↦ r.errorType ≠ ""
    favorited := favorites.contains sessionID }

/-- `ORDER BY favorited DESC, last_seen DESC`. -/
def byFavorite (s : SessionSummary) : Lex (Boolᵒᵈ × Intᵒᵈ) :=
  toLex (OrderDual.toDual s.favorited, OrderDual.toDual s.lastSeen)

/-- `ListSessions`. -/
def listSessions (table : List RequestLogRow) (favorites : List String) (f : SessionListFilter)
    (page pageSize : Int) : Option (List SessionSummary × Int) :=
  let w := sessionsWhere f
  (Sql.countGroups RequestLogRow.sessionID table w.conds w.args).bind fun total ↦
    (Sql.grouped RequestLogRow.sessionID (summarize table favorites) table w.conds
      (w.args ++ [.int (sessionPageSize pageSize), .int (sessionOffset page pageSize)])).bind
        fun (sessions, rest) ↦
          (Sql.lenientWindow (Rank.sortBy byFavorite sessions) rest).map fun sessions ↦
          (sessions, total)

end DesktopStore

/-! ## Which rows match -/

/-- A row belongs to a session and matches the filter. -/
def SessionListFilter.Matches (f : SessionListFilter) (r : RequestLogRow) : Prop :=
  r.sessionID ≠ "" ∧
  (f.agentType ≠ "" → r.agentType = f.agentType) ∧
  (f.fromTime ≠ zeroTime → f.fromTime ≤ r.createdAt) ∧
  (f.toTime ≠ zeroTime → r.createdAt < f.toTime)

instance (f : SessionListFilter) (r : RequestLogRow) : Decidable (f.Matches r) :=
  inferInstanceAs (Decidable (_ ∧ _ ∧ _ ∧ _))

theorem DesktopStore.sessionsWhere_means (f : SessionListFilter) :
    (DesktopStore.sessionsWhere f).Means fun r ↦ decide (f.Matches r) := by
  rw [DesktopStore.sessionsWhere]
  refine .congr (.addIf (.addIf (.addIf (.start rfl) _ rfl) _ rfl) _ rfl) fun r ↦ ?_
  rw [Bool.eq_iff_iff, decide_eq_true_iff]
  simp [SessionListFilter.Matches, and_assoc, or_iff_not_imp_left]

theorem RequestLogQuery.sessionsWhere_means (tenant : String) (f : SessionListFilter) :
    (RequestLogQuery.sessionsWhere tenant f).Means fun r ↦
      decide ((tenant ≠ "" → r.tenant = tenant) ∧ f.Matches r) := by
  rw [RequestLogQuery.sessionsWhere]
  refine .congr (.addIf (.addIf (.addIf (.addIf (.start rfl) _ rfl) _ rfl) _ rfl) _ rfl) fun r ↦ ?_
  rw [Bool.eq_iff_iff, decide_eq_true_iff]
  simp [SessionListFilter.Matches, and_assoc, or_iff_not_imp_left, and_left_comm]

/-- A table of one tenant's requests, no two of them at the same time. -/
structure SessionTable where
  rows : List RequestLogRow
  tenant : String
  tenant_eq : ∀ r ∈ rows, r.tenant = tenant
  distinct : Rank.Distinct RequestLogRow.createdAt rows
  length_lt : rows.length < 2 ^ 63

namespace SessionTable

variable (table : SessionTable) (f : SessionListFilter)

/-- The rows that match. -/
def found : List RequestLogRow := table.rows.filter fun r ↦ f.Matches r

/-- All rows of a session. -/
def session (k : String) : List RequestLogRow := table.rows.filter fun r ↦ r.sessionID = k

/-- The rows of a session that match. -/
def group (k : String) : List RequestLogRow := (table.found f).filter fun r ↦ r.sessionID = k

/-- The sessions that have a row that matches. -/
def keys : List String := ((table.found f).map RequestLogRow.sessionID).dedup

variable {table f}

theorem mem_session {k : String} {r : RequestLogRow} :
    r ∈ table.session k ↔ r ∈ table.rows ∧ r.sessionID = k := by
  simp [session]

theorem mem_group {k : String} {r : RequestLogRow} :
    r ∈ table.group f k ↔ r ∈ table.session k ∧ f.Matches r := by
  simp only [group, found, session, List.mem_filter, decide_eq_true_eq]
  exact and_right_comm

theorem mem_keys {k : String} : k ∈ table.keys f ↔ ∃ m, m ∈ table.group f k := by
  simp only [keys, List.mem_dedup, List.mem_map, group, List.mem_filter, decide_eq_true_eq]

/-- Two rows of one time are one row. -/
theorem eq_of_createdAt {a b : RequestLogRow} {k k' : String} (ha : a ∈ table.session k)
    (hb : b ∈ table.session k') (h : a.createdAt = b.createdAt) : a = b :=
  table.distinct.eq_of_rank (mem_session.mp ha).1 (mem_session.mp hb).1 h

end SessionTable

/-! ## Bounds -/

section Bounds

variable {rows rows' : List RequestLogRow}

theorem exists_earliest (h : rows ≠ []) : ∃ g ∈ rows, (∀ r ∈ rows, g.createdAt ≤ r.createdAt) ∧
    (rows.map RequestLogRow.createdAt).min?.getD zeroTime = g.createdAt := by
  obtain ⟨t, ht⟩ : ∃ t, (rows.map RequestLogRow.createdAt).min? = some t :=
    Option.isSome_iff_exists.mp (List.isSome_min?_of_ne_nil (by simpa using h))
  obtain ⟨hmem, hle⟩ := List.min?_eq_some_iff.mp ht
  obtain ⟨g, hg, rfl⟩ := List.mem_map.mp hmem
  exact ⟨g, hg, fun r hr ↦ hle _ (List.mem_map_of_mem hr), by rw [ht, Option.getD_some]⟩

theorem exists_last (h : rows ≠ []) : ∃ g ∈ rows, (∀ r ∈ rows, r.createdAt ≤ g.createdAt) ∧
    (rows.map RequestLogRow.createdAt).max?.getD zeroTime = g.createdAt := by
  obtain ⟨t, ht⟩ : ∃ t, (rows.map RequestLogRow.createdAt).max? = some t :=
    Option.isSome_iff_exists.mp (List.isSome_max?_of_ne_nil (by simpa using h))
  obtain ⟨hmem, hle⟩ := List.max?_eq_some_iff.mp ht
  obtain ⟨g, hg, rfl⟩ := List.mem_map.mp hmem
  exact ⟨g, hg, fun r hr ↦ hle _ (List.mem_map_of_mem hr), by rw [ht, Option.getD_some]⟩

/-- The first row in an order is one. -/
theorem exists_first {κ : Type} [LinearOrder κ] (rank : RequestLogRow → κ) (h : rows ≠ []) :
    ∃ g ∈ rows, (∀ r ∈ rows, rank g ≤ rank r) ∧ Rank.first rank rows = some g := by
  cases hfirst : Rank.first rank rows with
  | none => exact absurd (Rank.first_eq_none_iff.mp hfirst) h
  | some g => exact ⟨g, (Rank.first_spec hfirst).1, (Rank.first_spec hfirst).2, rfl⟩

theorem createdAt_le_of_oldestFirst {a b : RequestLogRow}
    (h : DesktopStore.oldestFirst a ≤ DesktopStore.oldestFirst b) : a.createdAt ≤ b.createdAt :=
  (Prod.Lex.toLex_le_toLex.mp h).elim le_of_lt fun h ↦ h.1.le

theorem createdAt_le_of_newestRow {a b : RequestLogRow}
    (h : DesktopStore.newestRow a ≤ DesktopStore.newestRow b) : b.createdAt ≤ a.createdAt :=
  (Prod.Lex.toLex_le_toLex.mp h).elim (fun h ↦ le_of_lt h) fun h ↦
  le_of_eq (OrderDual.toDual_inj.mp h.1).symm

/-- The first of more rows is at the same time if none of them is earlier than all of the others. -/
theorem startedAt_eq_iff (hsub : rows ⊆ rows') (h : rows ≠ []) :
    ((Rank.first DesktopStore.oldestFirst rows').map RequestLogRow.createdAt).getD zeroTime =
        (rows.map RequestLogRow.createdAt).min?.getD zeroTime ↔
      ∀ r ∈ rows', ∃ a ∈ rows, a.createdAt ≤ r.createdAt := by
  obtain ⟨g, hg, hgle, hmin⟩ := exists_earliest h
  obtain ⟨s, hs, hsle, hfirst⟩ :=
    exists_first DesktopStore.oldestFirst (List.ne_nil_of_mem (hsub hg))
  rw [hmin, hfirst, Option.map_some, Option.getD_some]
  constructor
  · exact fun heq r hr ↦ ⟨g, hg, heq ▸ createdAt_le_of_oldestFirst (hsle r hr)⟩
  · intro hearly
    obtain ⟨a, ha, has⟩ := hearly s hs
    exact le_antisymm (createdAt_le_of_oldestFirst (hsle g (hsub hg))) ((hgle a ha).trans has)

theorem lastSeen_eq_iff (hsub : rows ⊆ rows') (h : rows ≠ []) :
    ((Rank.first DesktopStore.newestRow rows').map RequestLogRow.createdAt).getD zeroTime =
        (rows.map RequestLogRow.createdAt).max?.getD zeroTime ↔
      ∀ r ∈ rows', ∃ b ∈ rows, r.createdAt ≤ b.createdAt := by
  obtain ⟨g, hg, hgle, hmax⟩ := exists_last h
  obtain ⟨s, hs, hsle, hfirst⟩ := exists_first DesktopStore.newestRow (List.ne_nil_of_mem (hsub hg))
  rw [hmax, hfirst, Option.map_some, Option.getD_some]
  constructor
  · exact fun heq r hr ↦ ⟨g, hg, heq ▸ createdAt_le_of_newestRow (hsle r hr)⟩
  · intro hlate
    obtain ⟨b, hb, hsb⟩ := hlate s hs
    exact le_antisymm (hsb.trans (hgle b hb)) (createdAt_le_of_newestRow (hsle g (hsub hg)))

end Bounds

/-! ## The latest value of a column -/

/-- The last row whose column is not empty. -/
def IsLatest (col : RequestLogRow → String) (rows : List RequestLogRow) (t : RequestLogRow) :
    Prop :=
  t ∈ rows ∧ col t ≠ "" ∧ ∀ r ∈ rows, col r ≠ "" → r.createdAt ≤ t.createdAt

instance (col : RequestLogRow → String) (rows : List RequestLogRow) (t : RequestLogRow) :
    Decidable (IsLatest col rows t) :=
  inferInstanceAs (Decidable (_ ∧ _ ∧ ∀ r ∈ rows, _))

section Latest

variable {col : RequestLogRow → String} {rows rows' : List RequestLogRow}

/-- What an order that puts later rows first finds. -/
theorem firstNonempty_cases {κ : Type} [LinearOrder κ] {rank : RequestLogRow → κ}
    (hrank : ∀ a b, rank a ≤ rank b → b.createdAt ≤ a.createdAt) (col : RequestLogRow → String)
    (rows : List RequestLogRow) :
    ((∀ r ∈ rows, col r = "") ∧ firstNonempty rank col rows = "") ∨
      ∃ t, IsLatest col rows t ∧ firstNonempty rank col rows = col t := by
  cases hfirst : Rank.first rank (rows.filter fun r ↦ col r ≠ "") with
  | none =>
    refine .inl ⟨fun r hr ↦ ?_, by rw [firstNonempty, hfirst]; rfl⟩
    simpa using List.filter_eq_nil_iff.mp (Rank.first_eq_none_iff.mp hfirst) r hr
  | some t =>
    obtain ⟨ht, hle⟩ := Rank.first_spec hfirst
    obtain ⟨htrows, htne⟩ := List.mem_filter.mp ht
    refine .inr ⟨t, ⟨htrows, of_decide_eq_true htne, fun r hr hne ↦ ?_⟩, by
      rw [firstNonempty, hfirst]; rfl⟩
    exact hrank t r (hle r (List.mem_filter.mpr ⟨hr, decide_eq_true hne⟩))

theorem IsLatest.eq (hdistinct : ∀ a ∈ rows, ∀ b ∈ rows, a.createdAt = b.createdAt → a = b)
    {t t' : RequestLogRow} (h : IsLatest col rows t) (h' : IsLatest col rows t') : t = t' :=
  hdistinct t h.1 t' h'.1 (le_antisymm (h'.2.2 t h.1 h.2.1) (h.2.2 t' h'.1 h'.2.1))

/-- The latest value among more rows is the same exactly if the row it is from has its like among
the fewer. -/
theorem firstNonempty_eq_iff {κ κ' : Type} [LinearOrder κ] [LinearOrder κ']
    {rank : RequestLogRow → κ} {rank' : RequestLogRow → κ'}
    (hrank : ∀ a b, rank a ≤ rank b → b.createdAt ≤ a.createdAt)
    (hrank' : ∀ a b, rank' a ≤ rank' b → b.createdAt ≤ a.createdAt) (hsub : rows ⊆ rows')
    (hdistinct : ∀ a ∈ rows', ∀ b ∈ rows', a.createdAt = b.createdAt → a = b) :
    firstNonempty rank' col rows' = firstNonempty rank col rows ↔
      ∀ t, IsLatest col rows' t → ∃ t', IsLatest col rows t' ∧ col t' = col t := by
  have hrows : ∀ a ∈ rows, ∀ b ∈ rows, a.createdAt = b.createdAt → a = b :=
    fun a ha b hb ↦ hdistinct a (hsub ha) b (hsub hb)
  rcases firstNonempty_cases hrank' col rows' with ⟨hnone, heq'⟩ | ⟨t, ht, heq'⟩
  · have hempty : firstNonempty rank col rows = "" := by
      rcases firstNonempty_cases hrank col rows with ⟨-, heq⟩ | ⟨t, ht, -⟩
      · exact heq
      · exact absurd (hnone t (hsub ht.1)) ht.2.1
    rw [heq', hempty]
    exact iff_of_true rfl fun t ht ↦ absurd (hnone t ht.1) ht.2.1
  · rw [heq']
    constructor
    · intro heq u hu
      obtain rfl := hu.eq hdistinct ht
      rcases firstNonempty_cases hrank col rows with ⟨-, hempty⟩ | ⟨t', ht', heq''⟩
      · exact absurd (heq.trans hempty) ht.2.1
      · exact ⟨t', ht', (heq.trans heq'').symm⟩
    · intro hlike
      obtain ⟨t', ht', hcol⟩ := hlike t ht
      rcases firstNonempty_cases hrank col rows with ⟨hnone, -⟩ | ⟨u, hu, heq''⟩
      · exact absurd (hnone t' ht'.1) ht'.2.1
      · rw [heq'', ← hcol, hu.eq hrows ht']

end Latest

/-! ## One session -/

/-- Every row of a session that has a row that matches lies between two that do. -/
def Spanned (rows : List RequestLogRow) (f : SessionListFilter) : Prop :=
  ∀ r ∈ rows, (∃ m ∈ rows, f.Matches m ∧ m.sessionID = r.sessionID) →
    (∃ a ∈ rows, f.Matches a ∧ a.sessionID = r.sessionID ∧ a.createdAt ≤ r.createdAt) ∧
      ∃ b ∈ rows, f.Matches b ∧ b.sessionID = r.sessionID ∧ r.createdAt ≤ b.createdAt

instance (rows : List RequestLogRow) (f : SessionListFilter) : Decidable (Spanned rows f) :=
  inferInstanceAs (Decidable (∀ r ∈ rows, _))

/-- The last row of a session that has a user agent has the same one as the last of those that
match. -/
def UserAgentsKept (rows : List RequestLogRow) (f : SessionListFilter) : Prop :=
  ∀ m ∈ rows, f.Matches m →
    ∀ t ∈ rows, IsLatest RequestLogRow.userAgent (rows.filter fun r ↦ r.sessionID = m.sessionID) t →
      ∃ t' ∈ rows, IsLatest RequestLogRow.userAgent
          (rows.filter fun r ↦ r.sessionID = m.sessionID ∧ f.Matches r) t' ∧
        t'.userAgent = t.userAgent

instance (rows : List RequestLogRow) (f : SessionListFilter) : Decidable (UserAgentsKept rows f) :=
  inferInstanceAs (Decidable (∀ m ∈ rows, _))

namespace SessionTable

variable {table : SessionTable} {f : SessionListFilter} {k : String}

theorem group_subset : table.group f k ⊆ table.session k := fun _ hr ↦ (mem_group.mp hr).1

theorem group_ne_nil (hk : k ∈ table.keys f) : table.group f k ≠ [] := by
  obtain ⟨m, hm⟩ := mem_keys.mp hk
  exact List.ne_nil_of_mem hm

variable (table f k) in
/-- The rows of a session lie between two that match. -/
def Bounded : Prop :=
  (∀ r ∈ table.session k, ∃ a ∈ table.group f k, a.createdAt ≤ r.createdAt) ∧
    ∀ r ∈ table.session k, ∃ b ∈ table.group f k, r.createdAt ≤ b.createdAt

variable (table f k) in
/-- The latest value of a column is from a row that matches, or is the same there. -/
def Kept (col : RequestLogRow → String) : Prop :=
  ∀ t, IsLatest col (table.session k) t → ∃ t', IsLatest col (table.group f k) t' ∧ col t' = col t

theorem firstNonempty_kept_iff {col : RequestLogRow → String} :
    firstNonempty DesktopStore.newestRow col (table.session k) =
      firstNonempty RequestLogQuery.latestFirst col (table.group f k) ↔ table.Kept f k col :=
  firstNonempty_eq_iff (fun _ _ h ↦ OrderDual.toDual_le_toDual.mp h)
    (fun _ _ h ↦ createdAt_le_of_newestRow h) group_subset
    fun _ ha _ hb h ↦ eq_of_createdAt ha hb h

/-- **When a session's summaries are the same.** -/
theorem summarize_eq_iff (hk : k ∈ table.keys f) (favorites : List String) :
    (DesktopStore.summarize table.rows favorites k (table.group f k)).toSessionSummary =
        RequestLogQuery.summarize k (table.group f k) ↔
      table.Bounded f k ∧ table.Kept f k RequestLogRow.agentType ∧
        table.Kept f k RequestLogRow.userAgent := by
  have hstarted := startedAt_eq_iff group_subset (group_ne_nil hk)
  have hlast := lastSeen_eq_iff group_subset (group_ne_nil hk)
  rw [Bounded, ← hstarted, ← hlast, ← firstNonempty_kept_iff, ← firstNonempty_kept_iff]
  simp only [DesktopStore.summarize, RequestLogQuery.summarize, SessionSummary.mk.injEq, session]
  tauto

/-- A session between rows that match keeps its agent: the filter asks for one agent, or every row
matches. -/
theorem Bounded.agentType (h : table.Bounded f k) : table.Kept f k RequestLogRow.agentType := by
  intro t ht
  have hsession := mem_session.mp ht.1
  obtain ⟨a, ha, hat⟩ := h.1 t ht.1
  obtain ⟨b, hb, htb⟩ := h.2 t ht.1
  obtain ⟨hasession, haf⟩ := mem_group.mp ha
  obtain ⟨hbsession, hbf⟩ := mem_group.mp hb
  have hmatches : f.Matches t := by
    by_cases hagent : f.agentType = ""
    · refine ⟨?_, fun h ↦ absurd hagent h, fun hfrom ↦ ?_, fun hto ↦ ?_⟩
      · rw [hsession.2, ← (mem_session.mp hasession).2]
        exact haf.1
      · exact (haf.2.2.1 hfrom).trans hat
      · exact htb.trans_lt (hbf.2.2.2 hto)
    · -- the row after it has the agent of the filter, so it is that row
      have hbne : b.agentType ≠ "" := by
        rw [hbf.2.1 hagent]
        exact hagent
      have heq : t = b := eq_of_createdAt ht.1 hbsession (le_antisymm htb (ht.2.2 b hbsession hbne))
      rw [heq]
      exact hbf
  exact ⟨t, ⟨mem_group.mpr ⟨ht.1, hmatches⟩, ht.2.1, fun r hr ↦ ht.2.2 r (group_subset hr)⟩, rfl⟩

theorem forall_bounded_iff : (∀ k ∈ table.keys f, table.Bounded f k) ↔ Spanned table.rows f := by
  constructor
  · rintro h r hr ⟨m, hm, hmf, hmk⟩
    have hk : r.sessionID ∈ table.keys f :=
      mem_keys.mpr ⟨m, mem_group.mpr ⟨mem_session.mpr ⟨hm, hmk⟩, hmf⟩⟩
    have hrk : r ∈ table.session r.sessionID := mem_session.mpr ⟨hr, rfl⟩
    obtain ⟨a, ha, har⟩ := (h _ hk).1 r hrk
    obtain ⟨b, hb, hrb⟩ := (h _ hk).2 r hrk
    obtain ⟨hasession, haf⟩ := mem_group.mp ha
    obtain ⟨hbsession, hbf⟩ := mem_group.mp hb
    exact ⟨⟨a, (mem_session.mp hasession).1, haf, (mem_session.mp hasession).2, har⟩,
      b, (mem_session.mp hbsession).1, hbf, (mem_session.mp hbsession).2, hrb⟩
  · intro h k hk
    obtain ⟨m, hm⟩ := mem_keys.mp hk
    obtain ⟨hmsession, hmf⟩ := mem_group.mp hm
    obtain ⟨hmrows, rfl⟩ := mem_session.mp hmsession
    have hspan : ∀ r ∈ table.session m.sessionID, _ := fun r hr ↦
      h r (mem_session.mp hr).1 ⟨m, hmrows, hmf, (mem_session.mp hr).2.symm⟩
    refine ⟨fun r hr ↦ ?_, fun r hr ↦ ?_⟩
    · obtain ⟨a, ha, haf, hak, har⟩ := (hspan r hr).1
      exact ⟨a, mem_group.mpr ⟨mem_session.mpr ⟨ha, hak.trans (mem_session.mp hr).2⟩, haf⟩, har⟩
    · obtain ⟨b, hb, hbf, hbk, hrb⟩ := (hspan r hr).2
      exact ⟨b, mem_group.mpr ⟨mem_session.mpr ⟨hb, hbk.trans (mem_session.mp hr).2⟩, hbf⟩, hrb⟩

theorem forall_kept_iff :
    (∀ k ∈ table.keys f, table.Kept f k RequestLogRow.userAgent) ↔ UserAgentsKept table.rows f := by
  have hgroup : ∀ k, table.group f k = table.rows.filter fun r ↦ r.sessionID = k ∧ f.Matches r := by
    intro k
    rw [group, found, List.filter_filter]
    exact List.filter_congr fun r _ ↦ (Bool.decide_and ..).symm
  constructor
  · intro h m hm hmf t _ ht
    have hk : m.sessionID ∈ table.keys f :=
      mem_keys.mpr ⟨m, mem_group.mpr ⟨mem_session.mpr ⟨hm, rfl⟩, hmf⟩⟩
    obtain ⟨t', ht', heq⟩ := h _ hk t ht
    rw [hgroup] at ht'
    exact ⟨t', List.mem_of_mem_filter ht'.1, ht', heq⟩
  · intro h k hk t ht
    obtain ⟨m, hm⟩ := mem_keys.mp hk
    obtain ⟨hmsession, hmf⟩ := mem_group.mp hm
    obtain ⟨hmrows, rfl⟩ := mem_session.mp hmsession
    obtain ⟨t', -, ht', heq⟩ := h m hmrows hmf t (mem_session.mp ht.1).1 ht
    exact ⟨t', (hgroup _).symm ▸ ht', heq⟩

/-- **When the summaries of all sessions are the same.** -/
theorem forall_summarize_iff (table : SessionTable) (f : SessionListFilter)
    (favorites : List String) : (∀ k ∈ table.keys f,
      (DesktopStore.summarize table.rows favorites k (table.group f k)).toSessionSummary =
        RequestLogQuery.summarize k (table.group f k)) ↔
      Spanned table.rows f ∧ UserAgentsKept table.rows f := by
  rw [← forall_bounded_iff, ← forall_kept_iff]
  constructor
  · intro h
    exact ⟨fun k hk ↦ ((summarize_eq_iff hk favorites).mp (h k hk)).1,
      fun k hk ↦ ((summarize_eq_iff hk favorites).mp (h k hk)).2.2⟩
  · rintro ⟨hbounded, hkept⟩ k hk
    exact (summarize_eq_iff hk favorites).mpr ⟨hbounded k hk, (hbounded k hk).agentType, hkept k hk⟩

/-! ## All sessions -/

variable (table f)

/-- The sessions of the enterprise gateway, in order. -/
def enterprise : List SessionSummary :=
  Rank.sortBy RequestLogQuery.byLastSeen
    ((table.keys f).map fun k ↦ RequestLogQuery.summarize k (table.group f k))

/-- The sessions of the desktop, in order. -/
def desktop (favorites : List String) : List DesktopStore.SessionSummary :=
  Rank.sortBy DesktopStore.byFavorite
    ((table.keys f).map fun k ↦ DesktopStore.summarize table.rows favorites k (table.group f k))

variable {table f}

/-- No two sessions were last seen at the same time. -/
theorem distinct_lastSeen : Rank.Distinct RequestLogQuery.byLastSeen
    ((table.keys f).map fun k ↦ RequestLogQuery.summarize k (table.group f k)) := by
  rw [Rank.Distinct, List.map_map]
  refine List.Nodup.map_on (fun k hk k' hk' h ↦ ?_) (List.nodup_dedup _)
  obtain ⟨g, hg, -, hmax⟩ := exists_last (group_ne_nil hk)
  obtain ⟨g', hg', -, hmax'⟩ := exists_last (group_ne_nil hk')
  have htime : g.createdAt = g'.createdAt :=
    hmax.symm.trans ((OrderDual.toDual_inj.mp h).trans hmax')
  have hsame : g = g' := eq_of_createdAt (group_subset hg) (group_subset hg') htime
  rw [← (mem_session.mp (group_subset hg)).2, ← (mem_session.mp (group_subset hg')).2, hsame]

/-- **The sessions are the same, in the same order, exactly if every session's summary is.** -/
theorem desktop_eq_iff {favorites : List String}
    (hfavorites : ∀ r ∈ table.rows, r.sessionID ∉ favorites) :
    (table.desktop f favorites).map DesktopStore.SessionSummary.toSessionSummary =
      table.enterprise f ↔
      ∀ k ∈ table.keys f,
        (DesktopStore.summarize table.rows favorites k (table.group f k)).toSessionSummary =
          RequestLogQuery.summarize k (table.group f k) := by
  constructor
  · intro h k hk
    have hmem : DesktopStore.summarize table.rows favorites k (table.group f k) ∈
        table.desktop f favorites := Rank.mem_sortBy.mpr (List.mem_map.mpr ⟨k, hk, rfl⟩)
    have hmem' := List.mem_map_of_mem (f := DesktopStore.SessionSummary.toSessionSummary) hmem
    rw [h] at hmem'
    obtain ⟨k', hk', heq⟩ := List.mem_map.mp (Rank.mem_sortBy.mp hmem')
    obtain rfl : k' = k := congrArg SessionSummary.sessionID heq
    exact heq.symm
  · intro h
    have hmap : ((table.keys f).map fun k ↦
        DesktopStore.summarize table.rows favorites k (table.group f k)).map
          DesktopStore.SessionSummary.toSessionSummary =
        (table.keys f).map fun k ↦ RequestLogQuery.summarize k (table.group f k) := by
      rw [List.map_map]
      exact List.map_congr_left h
    have hplain : ∀ s ∈ table.desktop f favorites, s.favorited = false := by
      intro s hs
      obtain ⟨k, hk, rfl⟩ := List.mem_map.mp (Rank.mem_sortBy.mp hs)
      obtain ⟨m, hm⟩ := mem_keys.mp hk
      obtain ⟨hmrows, rfl⟩ := mem_session.mp (group_subset hm)
      simpa [DesktopStore.summarize] using hfavorites m hmrows
    refine Rank.sortBy_unique distinct_lastSeen ?_ ?_
    · rw [← hmap]
      exact (Rank.sortBy_perm _).map _
    · refine List.pairwise_map.mpr ((Rank.pairwise_sortBy _).imp_of_mem fun {a b} ha hb hab ↦ ?_)
      rcases Prod.Lex.toLex_le_toLex.mp hab with hlt | ⟨-, hle⟩
      · rw [hplain a ha, hplain b hb] at hlt
        exact absurd hlt (lt_irrefl _)
      · exact hle

/-- The page, its size and the offset it starts at fit `int64`.  The handlers keep far below
that. -/
def PageInRange (page pageSize : Int) : Prop :=
  Int64Range page ∧ Int64Range pageSize ∧ (firstPage page - 1) * sessionPageSize pageSize < 2 ^ 63

theorem PageInRange.offset {page pageSize : Int} (h : PageInRange page pageSize) :
    sessionOffset page pageSize = (firstPage page - 1) * sessionPageSize pageSize ∧
      0 ≤ sessionOffset page pageSize ∧ 0 < sessionPageSize pageSize := by
  obtain ⟨hpage, -, hlt⟩ := h
  have hsize : 0 < sessionPageSize pageSize := by
    rw [sessionPageSize]
    split <;> omega
  have hfirst : 0 ≤ firstPage page - 1 ∧ firstPage page - 1 < 2 ^ 63 := by
    have hlt := hpage.2
    rw [firstPage]
    split <;> omega
  have hoffset : 0 ≤ (firstPage page - 1) * sessionPageSize pageSize :=
    Int.mul_nonneg hfirst.1 hsize.le
  have heq : sessionOffset page pageSize = (firstPage page - 1) * sessionPageSize pageSize := by
    rw [sessionOffset, int64_of_range hfirst.1 hfirst.2, int64_of_range hoffset hlt]
  exact ⟨heq, heq ▸ hoffset, hsize⟩

/-- A page of a list, with the number of sessions. -/
def pageOf {σ : Type} (sessions : List σ) (total : Nat) (page pageSize : Int) : List σ × Int :=
  ((sessions.drop (sessionOffset page pageSize).toNat).take (sessionPageSize pageSize).toNat, total)

theorem listSessions_enterprise {tenant : String} (htenant : tenant = "" ∨ tenant = table.tenant)
    {page pageSize : Int} (h : PageInRange page pageSize) :
    RequestLogQuery.listSessions table.rows tenant f page pageSize =
      some (pageOf (table.enterprise f) (table.keys f).length page pageSize) := by
  obtain ⟨-, hoffset, hsize⟩ := h.offset
  have hw := RequestLogQuery.sessionsWhere_means tenant f
  have hfound : (table.rows.filter fun r ↦
      decide ((tenant ≠ "" → r.tenant = tenant) ∧ f.Matches r)) = table.found f := by
    refine List.filter_congr fun r hr ↦
      decide_eq_decide.mpr ⟨And.right, fun hf ↦ ⟨fun hne ↦ ?_, hf⟩⟩
    rw [table.tenant_eq r hr, ← htenant.resolve_left hne]
  simp only [RequestLogQuery.listSessions, hw.countGroups, hw.grouped, hfound,
    Option.bind_some, Sql.window, if_pos (And.intro hsize.le hoffset), Option.map_some]
  rfl

theorem listSessions_desktop (favorites : List String) {page pageSize : Int}
    (h : PageInRange page pageSize) :
    DesktopStore.listSessions table.rows favorites f page pageSize =
      some (pageOf (table.desktop f favorites) (table.keys f).length page pageSize) := by
  obtain ⟨-, -, hsize⟩ := h.offset
  have hw := DesktopStore.sessionsWhere_means f
  simp only [DesktopStore.listSessions, hw.countGroups, hw.grouped, Option.bind_some,
    Sql.lenientWindow, if_pos hsize.le, Option.map_some]
  rfl

end SessionTable

/-- What both listings say of every page whose offset fits `int64`, to the repository of the tenant
and to the one of all tenants. -/
def SessionsAgree (table : SessionTable) (favorites : List String) (f : SessionListFilter) : Prop :=
  ∀ tenant, tenant = "" ∨ tenant = table.tenant → ∀ page pageSize,
  SessionTable.PageInRange page pageSize →
    (DesktopStore.listSessions table.rows favorites f page pageSize).map (fun (sessions, total) ↦
        (sessions.map DesktopStore.SessionSummary.toSessionSummary, total)) =
      RequestLogQuery.listSessions table.rows tenant f page pageSize

/-- **The session listings agree on every page exactly if every row of a listed session lies between
two that match, and the latest user agent is that of a row that matches.** -/
theorem sessions_agree_iff (table : SessionTable) (favorites : List String)
    (hfavorites : ∀ r ∈ table.rows, r.sessionID ∉ favorites) (f : SessionListFilter) :
    SessionsAgree table favorites f ↔ Spanned table.rows f ∧ UserAgentsKept table.rows f := by
  rw [← SessionTable.forall_summarize_iff table f favorites,
    ← SessionTable.desktop_eq_iff hfavorites]
  constructor
  · intro h
    -- one page that has all sessions
    let size : Int := max 1 (table.keys f).length
    have hkeys : (table.keys f).length < 2 ^ 63 := by
      have hdedup := (List.dedup_sublist ((table.found f).map RequestLogRow.sessionID)).length_le
      have hfilter : (table.found f).length ≤ table.rows.length := List.length_filter_le ..
      have hrows := table.length_lt
      rw [List.length_map] at hdedup
      exact (hdedup.trans hfilter).trans_lt hrows
    have hrange : SessionTable.PageInRange 1 size := by
      refine ⟨by decide, ⟨by omega, by omega⟩, ?_⟩
      show (firstPage 1 - 1) * sessionPageSize size < 2 ^ 63
      rw [show firstPage 1 - 1 = 0 by rfl, Int.zero_mul]
      decide
    have hpage := h "" (.inl rfl) 1 size hrange
    rw [SessionTable.listSessions_desktop favorites hrange,
      SessionTable.listSessions_enterprise (.inl rfl) hrange, Option.map_some] at hpage
    have hsize : (sessionPageSize size).toNat = max 1 (table.keys f).length := by
      rw [sessionPageSize, if_neg (by omega)]
      omega
    have hoffset : (sessionOffset 1 size).toNat = 0 := by
      rw [hrange.offset.1, show firstPage 1 - 1 = 0 by rfl, Int.zero_mul]
      rfl
    have hall := congrArg Prod.fst (Option.some.inj hpage)
    simp only [SessionTable.pageOf, hoffset, hsize, List.drop_zero] at hall
    have hlength : (table.desktop f favorites).length = (table.keys f).length := by
      rw [SessionTable.desktop, (Rank.sortBy_perm _).length_eq, List.length_map]
    have hlength' : (table.enterprise f).length = (table.keys f).length := by
      rw [SessionTable.enterprise, (Rank.sortBy_perm _).length_eq, List.length_map]
    rwa [List.take_of_length_le (by omega), List.take_of_length_le (by omega)] at hall
  · intro h tenant htenant page pageSize hrange
    rw [SessionTable.listSessions_desktop favorites hrange,
      SessionTable.listSessions_enterprise htenant hrange, Option.map_some]
    simp only [SessionTable.pageOf, List.map_take, List.map_drop, h]

/-- A request of tenant `acme` by one agent. -/
def RequestLogQuery.RequestLogRow.inSession (id : Int) (sessionID : String) (createdAt : Time) :
    RequestLogRow :=
  { RequestLogRow.sample id createdAt "codex" with
    sessionID := sessionID, userAgent := "codex-cli" }

/-- A session with two requests, and one with one. -/
def SessionTable.sample : SessionTable where
  rows := [.inSession 1 "s1" 1000, .inSession 2 "s2" 2000, .inSession 3 "s1" 3000]
  tenant := "acme"
  tenant_eq := by decide
  distinct := by decide
  length_lt := by decide

theorem sessions_agree_iff_sample : SessionsAgree .sample [] { agentType := "codex" } :=
  (sessions_agree_iff .sample [] (fun _ _ ↦ List.not_mem_nil) { agentType := "codex" }).mpr
    ⟨by decide, by decide⟩

/-- The desktop lets a session begin before the window that was asked for. -/
theorem sessions_straddle_window : ¬ SessionsAgree .sample [] { fromTime := 1500 } := by
  intro h
  have hpage := h "acme" (.inr rfl) 1 20 ⟨by decide, by decide, by decide⟩
  exact absurd hpage (by decide)

end Voxeltoad
