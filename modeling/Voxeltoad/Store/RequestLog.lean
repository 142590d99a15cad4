import Voxeltoad.Store.Listing

/-!
# The request log

`RequestLogQueryRepo` of `internal/store/requestlog_query.go`: `buildWhere`, and the two listings
over it, `List` by cursor and `ListPage` by number.

`RequestLogFilter` has a field for the agent type that `buildWhere` does not translate, so both
listings are those of the filter without it (`buildWhere_means`).  `honoursFilter_iff` says when
that is the same.
-/

set_option autoImplicit false

namespace Voxeltoad
namespace RequestLogQuery

/-- `RequestLogRow`. -/
structure RequestLogRow where
  id : Int
  tenant : String
  groupName : String
  apiKeyID : String
  applicationID : Option Int
  environment : String
  provider : String
  modelRequested : String
  modelResolved : String
  stream : Bool
  promptTokens : Int
  completionTokens : Int
  totalTokens : Int
  ttftMs : Int
  durationMs : Int
  errorType : String
  blockedBy : String
  fallback : Bool
  requestID : String
  clientRequestID : String
  sessionID : String
  traceID : String
  sessionSource : String
  agentType : String
  userAgent : String
  ingressProtocol : String
  providerEndpoint : String
  cacheHit : Bool
  cacheTier : String
  cacheSource : String
  cachedPromptTokens : Int
  upstreamRequestID : String
  createdAt : Time
  deriving DecidableEq, Repr

/-- `RequestLogFilter`; a field that is left empty is not looked at. -/
structure RequestLogFilter where
  applicationID : Option Int := none
  environment : String := ""
  unattributed : Bool := false
  provider : String := ""
  modelRequested : String := ""
  errorType : String := ""
  blockedBy : String := ""
  tenant : String := ""
  groupName : String := ""
  apiKeyID : String := ""
  stream : Option Bool := none
  fallback : Option Bool := none
  agentType : String := ""
  ingressProtocol : String := ""
  providerEndpoint : String := ""
  sessionID : String := ""
  requestID : String := ""
  clientRequestID : String := ""
  upstreamRequestID : String := ""
  fromTime : Time := zeroTime
  toTime : Time := zeroTime
  deriving DecidableEq, Repr

abbrev Table := TimeTable RequestLogRow.createdAt RequestLogRow.id

/-! ## Queries -/

/-- `buildWhere`. -/
def buildWhere (tenant : String) (f : RequestLogFilter) : Sql.Where RequestLogRow :=
  (Sql.Where.start .always [])
    |>.addIf (tenant ≠ "") (.eq fun r ↦ .text r.tenant) [.text tenant]
    |>.addSome f.applicationID (.eq fun r ↦ .nullable .int r.applicationID) .int
    |>.addIf f.unattributed (.isNull fun r ↦ .nullable .int r.applicationID) []
    |>.addIf (f.environment ≠ "") (.eq fun r ↦ .text r.environment) [.text f.environment]
    |>.addIf (f.provider ≠ "") (.eq fun r ↦ .text r.provider) [.text f.provider]
    |>.addIf (f.modelRequested ≠ "") (.eq fun r ↦ .text r.modelRequested) [.text f.modelRequested]
    |>.addIf (f.errorType ≠ "") (.eq fun r ↦ .text r.errorType) [.text f.errorType]
    |>.addIf (f.blockedBy ≠ "") (.eq fun r ↦ .text r.blockedBy) [.text f.blockedBy]
    -- the filter's tenant counts for a repository that is not bound to one
    |>.addIf (tenant = "" ∧ f.tenant ≠ "") (.eq fun r ↦ .text r.tenant) [.text f.tenant]
    |>.addIf (f.groupName ≠ "") (.eq fun r ↦ .text r.groupName) [.text f.groupName]
    |>.addIf (f.apiKeyID ≠ "") (.eq fun r ↦ .text r.apiKeyID) [.text f.apiKeyID]
    |>.addSome f.stream (.eq fun r ↦ .bool r.stream) .bool
    |>.addSome f.fallback (.eq fun r ↦ .bool r.fallback) .bool
    |>.addIf (f.sessionID ≠ "") (.eq fun r ↦ .text r.sessionID) [.text f.sessionID]
    |>.addIf (f.requestID ≠ "") (.eq fun r ↦ .text r.requestID) [.text f.requestID]
    |>.addIf (f.clientRequestID ≠ "") (.eq fun r ↦ .text r.clientRequestID)
    [.text f.clientRequestID]
    |>.addIf (f.upstreamRequestID ≠ "") (.eq fun r ↦ .text r.upstreamRequestID)
      [.text f.upstreamRequestID]
    |>.addIf (f.ingressProtocol ≠ "") (.eq fun r ↦ .text r.ingressProtocol)
    [.text f.ingressProtocol]
    |>.addIf (f.providerEndpoint ≠ "") (.eq fun r ↦ .text r.providerEndpoint)
    [.text f.providerEndpoint]
    |>.addIf (f.fromTime ≠ zeroTime) (.atLeast fun r ↦ .time r.createdAt) [.time f.fromTime]
    |>.addIf (f.toTime ≠ zeroTime) (.below fun r ↦ .time r.createdAt) [.time f.toTime]

/-- `List`. -/
def list (table : List RequestLogRow) (tenant : String) (f : RequestLogFilter) (cursor : String)
    (limit : Int) : Option (List RequestLogRow × String) :=
  listByTime RequestLogRow.createdAt RequestLogRow.id table (buildWhere tenant f) cursor limit

/-- `ListPage`: a page by its number, and how many rows there are. -/
def listPage (table : List RequestLogRow) (tenant : String) (f : RequestLogFilter)
    (page pageSize : Int) : Option (List RequestLogRow × Int) :=
  let pageSize := defaultLimit pageSize
  let page := if page < 1 then 1 else page
  let w := buildWhere tenant f
  let offset := int64 (int64 (page - 1) * pageSize)
  (Sql.count table w.conds w.args).bind fun total ↦
    (Sql.limitOffset (newestFirst RequestLogRow.createdAt RequestLogRow.id) table w.conds
      (w.args ++ [.int pageSize, .int offset])).map fun rows ↦ (rows, total)

/-! ## What a filter says -/

/-- The fields of a filter that are texts, each with the column it is about. -/
def texts (f : RequestLogFilter) (r : RequestLogRow) : List (String × String) :=
  [(f.agentType, r.agentType), (f.environment, r.environment), (f.provider, r.provider),
    (f.modelRequested, r.modelRequested),
    (f.errorType, r.errorType), (f.blockedBy, r.blockedBy), (f.groupName, r.groupName),
    (f.apiKeyID, r.apiKeyID), (f.ingressProtocol, r.ingressProtocol),
    (f.providerEndpoint, r.providerEndpoint), (f.sessionID, r.sessionID),
    (f.requestID, r.requestID), (f.clientRequestID, r.clientRequestID),
    (f.upstreamRequestID, r.upstreamRequestID)]

/-- A row is in the repository's tenant, or else in the filter's, and matches every other field of
the filter that is not empty. -/
def Matches (tenant : String) (f : RequestLogFilter) (r : RequestLogRow) : Prop :=
  (tenant ≠ "" → r.tenant = tenant) ∧
  (tenant = "" → f.tenant ≠ "" → r.tenant = f.tenant) ∧
  (∀ p ∈ texts f r, p.1 ≠ "" → p.2 = p.1) ∧
  (∀ a ∈ f.applicationID, r.applicationID = some a) ∧
  (f.unattributed → r.applicationID = none) ∧
  (∀ b ∈ f.stream, r.stream = b) ∧
  (∀ b ∈ f.fallback, r.fallback = b) ∧
  (f.fromTime ≠ zeroTime → f.fromTime ≤ r.createdAt) ∧
  (f.toTime ≠ zeroTime → r.createdAt < f.toTime)

instance (tenant : String) (f : RequestLogFilter) (r : RequestLogRow) :
    Decidable (Matches tenant f r) :=
  inferInstanceAs (Decidable (_ ∧ _ ∧ _ ∧ _ ∧ _ ∧ _ ∧ _ ∧ _ ∧ _))

/-- A filter without its agent type. -/
def RequestLogFilter.anyAgent (f : RequestLogFilter) : RequestLogFilter :=
  { f with agentType := "" }

theorem matches_iff (tenant : String) (f : RequestLogFilter) (r : RequestLogRow) :
    Matches tenant f r ↔ Matches tenant f.anyAgent r ∧
    (f.agentType ≠ "" → r.agentType = f.agentType) := by
  have htexts : (∀ p ∈ texts f r, p.1 ≠ "" → p.2 = p.1) ↔
      (f.agentType ≠ "" → r.agentType = f.agentType) ∧ ∀ p ∈ texts f.anyAgent r, p.1 ≠ "" →
      p.2 = p.1 := by
    simp [texts, RequestLogFilter.anyAgent]
  rw [Matches, htexts]
  constructor
  · rintro ⟨h₁, h₂, ⟨hagent, h₃⟩, h₄⟩
    exact ⟨⟨h₁, h₂, h₃, h₄⟩, hagent⟩
  · rintro ⟨⟨h₁, h₂, h₃, h₄⟩, hagent⟩
    exact ⟨h₁, h₂, ⟨hagent, h₃⟩, h₄⟩

/-- **`buildWhere` selects what the filter says, but for the agent type.** -/
theorem buildWhere_means (tenant : String) (f : RequestLogFilter) :
    (buildWhere tenant f).Means fun r ↦ decide (Matches tenant f.anyAgent r) := by
  rw [buildWhere]
  refine .congr
    (.addIf (.addIf (.addIf (.addIf (.addIf (.addIf (.addIf (.addIf (.addSome (.addSome (.addIf
    (.addIf (.addIf (.addIf (.addIf (.addIf (.addIf (.addIf (.addIf (.addSome (.addIf (.start rfl)
    _ rfl) _ rfl) _ rfl) _ rfl) _ rfl) _ rfl) _ rfl) _ rfl) _ rfl) _ rfl) _ rfl) _ rfl) _ rfl)
        _ rfl) _ rfl)
    _ rfl) _ rfl) _ rfl) _ rfl) _ rfl) _ rfl) fun r ↦ ?_
  rw [Bool.eq_iff_iff, decide_eq_true_iff, Matches]
  simp only [texts, RequestLogFilter.anyAgent, List.forall_mem_cons,
    Option.mem_def, Sql.Cond.always_holds, Sql.Cond.eq_holds, Sql.Cond.isNull_holds,
    Sql.Cond.atLeast_time_holds, Sql.Cond.below_holds, Sql.Value.eq_text, Sql.Value.nullable_int_eq,
    Sql.Value.nullable_int_eq_null, Sql.Value.eq_bool, Sql.Value.lt_time, Option.all_eq_true,
    Bool.and_eq_true, Bool.or_eq_true, Bool.not_eq_true', decide_eq_true_eq,
    decide_eq_false_iff_not, or_iff_not_imp_left, not_not, and_imp]
  grind

/-! ## Both listings -/

theorem list_complete (table : Table) (tenant : String) (f : RequestLogFilter) {limit : Int}
    (hlimit : limit < 2 ^ 63 - 1) :
    Page.Complete (fun cursor ↦ list table.rows tenant f cursor limit) "" (defaultLimit limit).toNat
      (table.sorted (Matches tenant f.anyAgent)) :=
  listByTime_complete table (buildWhere_means tenant f) hlimit

/-- A page that does not begin beyond the largest `int64`. -/
theorem listPage_eq (table : Table) (tenant : String) (f : RequestLogFilter)
    (pageSize : Int) {p : Nat} (hp : p * (defaultLimit pageSize).toNat < 2 ^ 63) :
    listPage table.rows tenant f (p + 1) pageSize =
      some (((table.sorted (Matches tenant f.anyAgent)).drop
          (p * (defaultLimit pageSize).toNat)).take (defaultLimit pageSize).toNat,
        ((table.sorted (Matches tenant f.anyAgent)).length : Int)) := by
  have hw := buildWhere_means tenant f
  have hfirst : ¬ (p : Int) + 1 < 1 := by omega
  obtain ⟨size, hsize⟩ : ∃ size : Nat, defaultLimit pageSize = size :=
    ⟨(defaultLimit pageSize).toNat, by have := defaultLimit_pos pageSize; omega⟩
  have hpos : 0 < size := by
    have := defaultLimit_pos pageSize
    omega
  rw [hsize, Int.toNat_natCast] at hp
  have hple : p ≤ p * size := Nat.le_mul_of_pos_right p hpos
  have hpage : int64 ((p : Int) + 1 - 1) = p := by
    rw [Int.add_sub_cancel]
    exact int64_of_range (by omega) (by omega)
  have hoffset : int64 ((p : Int) * size) = (p * size : Nat) := by
    rw [← Nat.cast_mul]
    exact int64_of_range (by omega) (by omega)
  simp only [listPage, if_neg hfirst, hsize, hpage, hoffset, hw.count, Option.bind_some,
    hw.limitOffset _ _ (Int.natCast_nonneg _) (Int.natCast_nonneg _), Int.toNat_natCast,
    Option.map_some, TimeTable.sorted, (Rank.sortBy_perm _).length_eq]

theorem listPage_numbered (table : Table) (tenant : String) (f : RequestLogFilter)
    (pageSize : Int) :
    Page.Numbered (fun p ↦ listPage table.rows tenant f (p + 1) pageSize)
    (defaultLimit pageSize).toNat
      (2 ^ 63 - 1) (table.sorted (Matches tenant f.anyAgent)) :=
  Page.numbered_of_offset fun p hp ↦ listPage_eq table tenant f pageSize (by omega)

/-- Both listings give exactly the rows that the filter says. -/
def HonoursFilter (table : Table) (tenant : String) (f : RequestLogFilter) (limit pageSize : Int) :
    Prop :=
  Page.Complete (fun cursor ↦ list table.rows tenant f cursor limit) "" (defaultLimit limit).toNat
      (table.sorted (Matches tenant f)) ∧
    Page.Numbered (fun p ↦ listPage table.rows tenant f (p + 1) pageSize)
    (defaultLimit pageSize).toNat
      (2 ^ 63 - 1) (table.sorted (Matches tenant f))

/-- The filter has no agent type, or every row it selects otherwise has it. -/
def AgentTypeMet (table : Table) (tenant : String) (f : RequestLogFilter) : Prop :=
  f.agentType = "" ∨ ∀ r ∈ table.rows, Matches tenant f.anyAgent r → r.agentType = f.agentType

theorem sorted_eq_iff (table : Table) (tenant : String) (f : RequestLogFilter) :
    table.sorted (Matches tenant f.anyAgent) = table.sorted (Matches tenant f) ↔
      AgentTypeMet table tenant f := by
  constructor
  · intro h
    refine or_iff_not_imp_left.mpr fun hagent r hr hmatches ↦ ?_
    have hmem : r ∈ table.sorted (Matches tenant f.anyAgent) :=
      Rank.mem_sortBy.mpr (List.mem_filter.mpr ⟨hr, decide_eq_true hmatches⟩)
    rw [h] at hmem
    have hf : Matches tenant f r :=
      of_decide_eq_true (List.mem_filter.mp (Rank.mem_sortBy.mp hmem)).2
    exact ((matches_iff tenant f r).mp hf).2 hagent
  · intro h
    refine congrArg _ (List.filter_congr fun r hr ↦ decide_eq_decide.mpr ?_)
    rw [matches_iff tenant f r]
    refine ⟨fun hmatches ↦ ⟨hmatches, fun hagent ↦ ?_⟩, And.left⟩
    exact (h.resolve_left hagent) r hr hmatches

/-- **The listings honour a filter exactly if its agent type would not have left out a row.** -/
theorem honoursFilter_iff (table : Table) (tenant : String) (f : RequestLogFilter)
    (limit pageSize : Int) (hlimit : limit < 2 ^ 63 - 1) :
    HonoursFilter table tenant f limit pageSize ↔ AgentTypeMet table tenant f := by
  have hlist := list_complete table tenant f hlimit
  rw [← sorted_eq_iff]
  constructor
  · exact fun h ↦ hlist.unique h.1
  · intro h
    rw [HonoursFilter, ← h]
    exact ⟨hlist, listPage_numbered table tenant f pageSize⟩

/-- A row of tenant `acme`. -/
def RequestLogRow.sample (id : Int) (createdAt : Time) (agentType : String) : RequestLogRow :=
  ⟨id, "acme", "research", "k1", none, "", "openai", "gpt-4o", "gpt-4o-2024", false, 10, 5, 15,
    80, 900, "", "", false, "r1", "", "s1", "", "header", agentType, "", "openai", "", false, "",
    "", 0, "", createdAt⟩

/-- Requests of two agents. -/
def Table.sample : Table where
  rows := [.sample 1 1000 "claude-code", .sample 2 2000 "codex"]
  distinct := by decide
  createdAt_range := by decide
  id_range := by decide

theorem honoursFilter_iff_sample : HonoursFilter .sample "acme" { provider := "openai" } 50 50 :=
  (honoursFilter_iff .sample "acme" { provider := "openai" } 50 50 (by decide)).mpr (.inl rfl)

/-- Asked for the requests of one agent, both listings give those of the other too. -/
theorem agentType_ignored : ¬ HonoursFilter .sample "acme" { agentType := "codex" } 50 50 := by
  intro h
  have hall := list_complete .sample "acme" { agentType := "codex" }
    (show (50 : Int) < 2 ^ 63 - 1 by decide)
  exact absurd (hall.unique h.1) (by decide)

end RequestLogQuery
end Voxeltoad
