import Mathlib.Algebra.Order.Round
import Mathlib.Data.Rat.Floor
import Voxeltoad.Billing.Plugin

/-!
# Costs as they should be

What a usage costs, in rational numbers: the rate of cached tokens is rounded half up, and so is the
cost of everything together.  `checkedCost_exact` says that `checkedCost` is that wherever it
accepts its input, that `Cost` is the same as long as no `int64` overflows, and how the cost depends
on the counts.

The discount that is recorded with a settlement is the difference between two amounts, one of which
is computed in `int64`.  `recorded_discount_iff` says when it is right.
-/

set_option autoImplicit false

namespace Voxeltoad

/-! ## Rounding -/

/-- `perMillion` rounds half up. -/
theorem perMillion_eq_round {x : Int} (h : 0 ≤ x) : perMillion x = round ((x : ℚ) / 1000000) := by
  have hhalf : (x : ℚ) / 1000000 + 1 / 2 = ((x + 500000 : ℤ) : ℚ) / ((1000000 : ℕ) : ℚ) := by
    push_cast
    ring
  rw [perMillion, Int.tdiv_eq_ediv_of_nonneg (by omega), round_eq, hhalf,
    Rat.floor_intCast_div_natCast]
  rfl

/-- A rate at full price is not rounded. -/
theorem perMillion_mul_million {x : Int} (h : 0 ≤ x) : perMillion (x * 1000000) = x := by
  rw [perMillion, Int.tdiv_eq_ediv_of_nonneg (by omega)]
  omega

/-! ## Exact costs -/

/-- The rate of cached prompt tokens. -/
def Pricing.exactCachedRate (p : Pricing) : Int :=
  round ((p.promptPer1M * p.multiplier : ℚ) / 1000000)

namespace Usage

/-- What the usage costs. -/
def exactCost (u : Usage) (p : Pricing) : Int :=
  round (((u.promptTokens - u.cached) * p.promptPer1M + u.cached * p.exactCachedRate +
    u.completionTokens * p.completionPer1M : ℚ) / 1000000)

/-- What it would cost without a cache discount. -/
def exactFullCost (u : Usage) (p : Pricing) : Int :=
  round ((u.promptTokens * p.promptPer1M + u.completionTokens * p.completionPer1M : ℚ) / 1000000)

/-- More of everything but cached tokens. -/
def AtMost (u v : Usage) : Prop :=
  u.promptTokens ≤ v.promptTokens ∧ u.completionTokens ≤ v.completionTokens ∧
    v.cachedPromptTokens ≤ u.cachedPromptTokens

end Usage

/-! ## `Cost` -/

/-- **`Cost`**, in `int64`. -/
def cost (u : Option Usage) (p : Pricing) : Int :=
  match u with
  | none => 0
  | some u =>
    let cached := max (min u.cachedPromptTokens u.promptTokens) 0
    let nonCached := int64 (u.promptTokens - cached)
    let cachedRate := (int64 (int64 (p.promptPer1M * p.multiplier) + 500000)).tdiv 1000000
    let micros := int64 (int64 (int64 (nonCached * p.promptPer1M) + int64 (cached * cachedRate)) +
      int64 (u.completionTokens * p.completionPer1M))
    (int64 (micros + 500000)).tdiv 1000000

/-- The values of the expressions in `Cost`, over the integers. -/
def Usage.intermediates (u : Usage) (p : Pricing) : List Int :=
  let cached := max (min u.cachedPromptTokens u.promptTokens) 0
  let nonCached := u.promptTokens - cached
  let cachedRate := (p.promptPer1M * p.multiplier + 500000).tdiv 1000000
  let prompt := nonCached * p.promptPer1M + cached * cachedRate
  let micros := prompt + u.completionTokens * p.completionPer1M
  [nonCached, p.promptPer1M * p.multiplier, p.promptPer1M * p.multiplier + 500000,
    nonCached * p.promptPer1M, cached * cachedRate, prompt, u.completionTokens * p.completionPer1M,
    micros, micros + 500000]

theorem int64_of_fits {x : Int} (h : Bigint.Fits x) : int64 x = x := by
  obtain ⟨hlow, hhigh⟩ := h
  exact int64_of_bounds (by omega) (by omega)

/-- Where nothing overflows, `Cost` is what it says. -/
theorem cost_of_fits {u : Usage} {p : Pricing} (h : ∀ x ∈ u.intermediates p, Bigint.Fits x) :
    cost (some u) p =
      let cached := max (min u.cachedPromptTokens u.promptTokens) 0
      perMillion ((u.promptTokens - cached) * p.promptPer1M + cached * p.cachedRate +
        u.completionTokens * p.completionPer1M) := by
  simp only [Usage.intermediates, List.forall_mem_cons] at h
  obtain ⟨h₁, h₂, h₃, h₄, h₅, h₆, h₇, h₈, h₉, -⟩ := h
  simp only [cost, perMillion, Pricing.cachedRate]
  rw [int64_of_fits h₂, int64_of_fits h₃, int64_of_fits h₁, int64_of_fits h₄, int64_of_fits h₅,
    int64_of_fits h₆, int64_of_fits h₇, int64_of_fits h₈, int64_of_fits h₉]

/-! ## What is accepted -/

section Accepted

variable {u v : Usage} {p : Pricing}

/-- Counts and rates that `checkedCost` takes. -/
structure Takes (u : Usage) (p : Pricing) : Prop where
  prompt : 0 ≤ u.promptTokens
  completion : 0 ≤ u.completionTokens
  cached : 0 ≤ u.cachedPromptTokens
  promptRate : 0 ≤ p.promptPer1M
  completionRate : 0 ≤ p.completionPer1M
  multiplier : 0 ≤ p.cacheHitMultiplier
  multiplier_le : p.cacheHitMultiplier ≤ 1000000

theorem takes_iff : Takes u p ↔ ¬ (u.Invalid ∨ p.Invalid) := by
  simp only [Usage.Invalid, Pricing.Invalid, not_or, Int.not_lt]
  constructor
  · rintro ⟨h₁, h₂, h₃, h₄, h₅, h₆, h₇⟩
    exact ⟨⟨h₁, h₂, h₃⟩, h₄, h₅, h₆, h₇⟩
  · rintro ⟨⟨h₁, h₂, h₃⟩, h₄, h₅, h₆, h₇⟩
    exact ⟨h₁, h₂, h₃, h₄, h₅, h₆, h₇⟩

/-- The millionths that are rounded at the end. -/
def Usage.micros (u : Usage) (p : Pricing) : Int :=
  (u.promptTokens - u.cached) * p.promptPer1M + u.cached * p.cachedRate +
    u.completionTokens * p.completionPer1M

theorem Takes.cached_bounds (h : Takes u p) : 0 ≤ u.cached ∧ u.cached ≤ u.promptTokens := by
  have hprompt := h.prompt
  have hcached := h.cached
  rw [Usage.cached]
  omega

theorem Takes.multiplier_bounds (h : Takes u p) : 0 ≤ p.multiplier ∧ p.multiplier ≤ 1000000 := by
  have hlow := h.multiplier
  have hhigh := h.multiplier_le
  rw [Pricing.multiplier]
  split <;> omega

/-- A cached token costs something between nothing and the full rate. -/
theorem Takes.cachedRate_bounds (h : Takes u p) :
    0 ≤ p.cachedRate ∧ p.cachedRate ≤ p.promptPer1M := by
  obtain ⟨hlow, hhigh⟩ := h.multiplier_bounds
  refine ⟨perMillion_nonneg (Int.mul_nonneg h.promptRate hlow), ?_⟩
  calc p.cachedRate ≤ perMillion (p.promptPer1M * 1000000) :=
        perMillion_mono (Int.mul_le_mul_of_nonneg_left hhigh h.promptRate)
    _ = p.promptPer1M := perMillion_mul_million h.promptRate

theorem Takes.micros_nonneg (h : Takes u p) : 0 ≤ u.micros p := by
  have h₁ := Int.mul_nonneg (Int.sub_nonneg.mpr h.cached_bounds.2) h.promptRate
  have h₂ := Int.mul_nonneg h.cached_bounds.1 h.cachedRate_bounds.1
  have h₃ := Int.mul_nonneg h.completion h.completionRate
  rw [Usage.micros]
  omega

/-- The rate and the amount are rounded half up. -/
theorem Takes.exactCost_eq (h : Takes u p) : u.exactCost p = perMillion (u.micros p) := by
  have hrate : p.exactCachedRate = p.cachedRate := by
    rw [Pricing.cachedRate, perMillion_eq_round (Int.mul_nonneg h.promptRate h.multiplier_bounds.1)]
    push_cast
    rfl
  rw [perMillion_eq_round h.micros_nonneg, Usage.exactCost, hrate, Usage.micros]
  push_cast
  rfl

/-- The millionths at full price. -/
def Usage.fullMicros (u : Usage) (p : Pricing) : Int :=
  u.promptTokens * p.promptPer1M + u.completionTokens * p.completionPer1M

theorem Takes.fullMicros_nonneg (h : Takes u p) : 0 ≤ u.fullMicros p :=
  Int.add_nonneg (Int.mul_nonneg h.prompt h.promptRate)
  (Int.mul_nonneg h.completion h.completionRate)

theorem Takes.exactFullCost_eq (h : Takes u p) :
    u.exactFullCost p = perMillion (u.fullMicros p) := by
  rw [perMillion_eq_round h.fullMicros_nonneg, Usage.exactFullCost, Usage.fullMicros]
  push_cast
  rfl

/-- What `checkedCost` computes, before it is rounded, is what the full price is less what the cache
saves. -/
theorem Usage.micros_eq (u : Usage) (p : Pricing) : u.micros p =
    u.promptTokens * p.promptPer1M - u.cached * (p.promptPer1M - p.cachedRate) +
      u.completionTokens * p.completionPer1M := by
  rw [Usage.micros]
  ring

theorem Takes.micros_le (h : Takes u p) : u.micros p ≤ u.fullMicros p := by
  have hsaved := Int.mul_nonneg h.cached_bounds.1 (Int.sub_nonneg.mpr h.cachedRate_bounds.2)
  rw [Usage.micros_eq, Usage.fullMicros]
  omega

theorem Takes.exactCost_le (h : Takes u p) : u.exactCost p ≤ u.exactFullCost p := by
  rw [h.exactCost_eq, h.exactFullCost_eq]
  exact perMillion_mono h.micros_le

/-- More prompt tokens add at least as much as they can move into the cache. -/
theorem Takes.micros_mono (h : Takes u p) (hle : u.AtMost v) : u.micros p ≤ v.micros p := by
  obtain ⟨hprompt, hcompletion, hcached⟩ := hle
  obtain ⟨hlow, hhigh⟩ := h.cachedRate_bounds
  have hmoved : v.cached ≤ u.cached + (v.promptTokens - u.promptTokens) := by
    rw [Usage.cached, Usage.cached]
    omega
  have hsaved : v.cached * (p.promptPer1M - p.cachedRate) ≤
      (u.cached + (v.promptTokens - u.promptTokens)) * (p.promptPer1M - p.cachedRate) :=
    Int.mul_le_mul_of_nonneg_right hmoved (Int.sub_nonneg.mpr hhigh)
  have hadded : 0 ≤ (v.promptTokens - u.promptTokens) * p.cachedRate :=
    Int.mul_nonneg (Int.sub_nonneg.mpr hprompt) hlow
  have hmore : u.completionTokens * p.completionPer1M ≤ v.completionTokens * p.completionPer1M :=
    Int.mul_le_mul_of_nonneg_right hcompletion h.completionRate
  rw [Usage.micros_eq, Usage.micros_eq]
  linarith

/-- When `checkedCost` accepts, and what it returns then. -/
theorem checkedCost_eq_ok_iff {actual : Int} : checkedCost (some u) p = .ok actual ↔
    Takes u p ∧ actual = perMillion (u.micros p) ∧ Bigint.Fits actual := by
  rw [takes_iff, checkedCost]
  split
  · rename_i hinvalid
    exact iff_of_false (fun h ↦ by cases h) fun h ↦ h.1 hinvalid
  · rename_i hvalid
    change (if Bigint.Fits (perMillion (u.micros p)) then _ else _) = _ ↔ _
    split
    · rename_i hfits
      rw [Except.ok.injEq]
      exact ⟨fun h ↦ ⟨hvalid, h.symm, h ▸ hfits⟩, fun h ↦ h.2.1.symm⟩
    · rename_i hfits
      exact iff_of_false (fun h ↦ by cases h) fun h ↦ hfits (h.2.1 ▸ h.2.2)

end Accepted

/-- **What `checkedCost` refuses, and what it is where it does not refuse.** -/
theorem checkedCost_exact (p : Pricing) :
    (∀ u : Option Usage, (∃ e, checkedCost u p = .error e) ↔
      u = none ∨ ∃ v, u = some v ∧ (v.Invalid ∨ p.Invalid ∨ ¬ Bigint.Fits (v.exactCost p))) ∧
    ∀ (u : Usage) (actual : Int), checkedCost (some u) p = .ok actual →
      0 ≤ actual ∧ actual = u.exactCost p ∧ actual ≤ u.exactFullCost p ∧
      ((∀ x ∈ u.intermediates p, Bigint.Fits x) → cost (some u) p = actual) ∧
      ∀ (v : Usage) (more : Int), checkedCost (some v) p = .ok more → u.AtMost v →
      actual ≤ more := by
  constructor
  · rintro (_ | u)
    · exact iff_of_true ⟨_, rfl⟩ (.inl rfl)
    have hok : (∃ e, checkedCost (some u) p = .error e) ↔ ¬ ∃ actual,
        checkedCost (some u) p = .ok actual := by
      cases checkedCost (some u) p <;> simp
    rw [hok]
    simp only [checkedCost_eq_ok_iff, reduceCtorEq, Option.some.injEq, exists_eq_left', false_or]
    rw [← or_assoc, ← not_iff_not, not_not, not_or, ← takes_iff, not_not]
    constructor
    · rintro ⟨actual, htakes, rfl, hfits⟩
      exact ⟨htakes, htakes.exactCost_eq ▸ hfits⟩
    · rintro ⟨htakes, hfits⟩
      exact ⟨_, htakes, rfl, htakes.exactCost_eq ▸ hfits⟩
  · intro u actual hok
    obtain ⟨htakes, hactual, -⟩ := checkedCost_eq_ok_iff.mp hok
    refine ⟨checkedCost_nonneg hok, ?_, ?_, fun hfits ↦ ?_, fun v more hmore hle ↦ ?_⟩
    · rw [hactual, htakes.exactCost_eq]
    · rw [hactual, ← htakes.exactCost_eq]
      exact htakes.exactCost_le
    · have hclamp : max (min u.cachedPromptTokens u.promptTokens) 0 = u.cached :=
        max_eq_left htakes.cached_bounds.1
      rw [cost_of_fits hfits, hclamp, hactual, Usage.micros]
    · obtain ⟨-, hmore, -⟩ := checkedCost_eq_ok_iff.mp hmore
      rw [hactual, hmore]
      exact perMillion_mono (htakes.micros_mono hle)

/-- A usage that is mostly cached, at a tenth of the price, and the same usage without the cache. -/
theorem checkedCost_exact_sample :
    let p : Pricing := ⟨2500000, 10000000, "usd", 100000⟩
    let u : Usage := ⟨1000, 200, 1200, 900⟩
    checkedCost (some u) p = .ok 2475 ∧ 2475 ≤ u.exactFullCost p ∧
      checkedCost (some { u with cachedPromptTokens := 0 }) p = .ok 4500 ∧ (2475 : Int) ≤ 4500 := by
  intro p u
  have hcost : checkedCost (some u) p = .ok 2475 := by decide
  have hmore : checkedCost (some { u with cachedPromptTokens := 0 }) p = .ok 4500 := by decide
  obtain ⟨-, -, hle, -, hmono⟩ := (checkedCost_exact p).2 u 2475 hcost
  exact ⟨hcost, hle, hmore, hmono _ 4500 hmore ⟨by decide, by decide, by decide⟩⟩

/-! ## The discount that is recorded -/

section Discount

variable {u : Usage} {p : Pricing} {actual : Int}

/-- `FullCost` takes the sum as it is in 64 bits. -/
theorem fullCost_eq (u : Usage) (p : Pricing) :
    fullCost (some u) p = (int64 (u.fullMicros p + 500000)).tdiv 1000000 := by
  have hsum :
      int64
      (int64 (u.promptTokens * p.promptPer1M) + int64 (u.completionTokens * p.completionPer1M)) =
      int64 (u.fullMicros p) := by
    rw [int64_add, Int.add_comm, int64_add, Int.add_comm, Usage.fullMicros]
  rw [fullCost, hsum, int64_add]

/-- Once the sum overflows, `FullCost` is below the full price and away from it by less than the
range. -/
theorem Takes.fullCost_lt (h : Takes u p) (hover : 2 ^ 63 ≤ u.fullMicros p + 500000) :
    fullCost (some u) p < u.exactFullCost p ∧ -2 ^ 44 ≤ fullCost (some u) p ∧
    fullCost (some u) p < 2 ^ 44 := by
  obtain ⟨hlow, hhigh, hlost⟩ := int64_wraps hover
  have hnonneg : 0 ≤ u.fullMicros p + 500000 := by omega
  rw [fullCost_eq, h.exactFullCost_eq, perMillion, Int.tdiv_eq_ediv_of_nonneg hnonneg]
  generalize int64 (u.fullMicros p + 500000) = w at *
  rcases Int.le_total 0 w with hw | hw
  · rw [Int.tdiv_eq_ediv_of_nonneg hw]
    omega
  · have hneg : w.tdiv 1000000 = -((-w) / 1000000) := by
      rw [← Int.tdiv_eq_ediv_of_nonneg (by omega), Int.neg_tdiv, Int.neg_neg]
    rw [hneg]
    omega

/-- Where the full price is computed as it is, so is the discount. -/
theorem Takes.cacheDiscount_of_lt (h : Takes u p) (hcached : 0 < u.cachedPromptTokens)
    (hfits : Bigint.Fits (u.exactFullCost p)) (hactual : 0 ≤ actual)
    (hle : actual ≤ u.exactFullCost p) (hlt : u.fullMicros p + 500000 < 2 ^ 63) :
    BillingPlugin.cacheDiscount u actual p = u.exactFullCost p - actual := by
  have hnonneg := h.fullMicros_nonneg
  have hfull : fullCost (some u) p = u.exactFullCost p := by
    rw [fullCost_eq, int64_of_range (by omega) hlt, h.exactFullCost_eq, perMillion]
  have hdiff : int64 (u.exactFullCost p - actual) = u.exactFullCost p - actual :=
    int64_of_range (by omega) (by have := hfits.2; omega)
  rw [BillingPlugin.cacheDiscount, if_pos hcached, hfull, hdiff]
  omega

/-- Where the full price overflows, only a discount of nothing is right, and that one only while the
difference does not wrap back into credit. -/
theorem Takes.cacheDiscount_of_le (h : Takes u p) (hcached : 0 < u.cachedPromptTokens)
    (hfits : Bigint.Fits (u.exactFullCost p)) (hactual : 0 ≤ actual)
    (hle : actual ≤ u.exactFullCost p) (hover : 2 ^ 63 ≤ u.fullMicros p + 500000) :
    BillingPlugin.cacheDiscount u actual p = u.exactFullCost p - actual ↔
      u.exactFullCost p = actual ∧ actual - fullCost (some u) p ≤ 2 ^ 63 := by
  obtain ⟨hlt, hlow, hhigh⟩ := h.fullCost_lt hover
  have hmax := hfits.2
  rw [BillingPlugin.cacheDiscount, if_pos hcached]
  rcases le_or_gt (actual - fullCost (some u) p) (2 ^ 63) with hle' | hwrap
  · have hdiff : int64 (fullCost (some u) p - actual) = fullCost (some u) p - actual :=
      int64_of_fits ⟨by omega, by omega⟩
    rw [hdiff]
    omega
  · have hdiff : int64 (fullCost (some u) p - actual) = fullCost (some u) p - actual + 2 ^ 64 := by
      rw [int64_eq, Int.bmod_def]
      omega
    rw [hdiff]
    omega

/-- What is settled for a priced usage, and the discount in its record. -/
theorem record_of_classify {live : Dynamic} {c : PluginContext} {r : UsageRecord}
    (husage : BillingPlugin.usageOf c = some u)
    (hpricing : BillingPlugin.pricingFor live c = some p)
    (hcost : checkedCost (some u) p = .ok actual)
    (hr : (BillingPlugin.classify live c).2.usage = some r) :
    (BillingPlugin.classify live c).2.actual = actual ∧
      r.cacheDiscountMicros = BillingPlugin.cacheDiscount u actual p := by
  simp only [BillingPlugin.classify, husage, hpricing, BillingPlugin.priceUsage, hcost,
    BillingPlugin.recordOf] at hr ⊢
  split at hr
  · rename_i hknown
    cases hr
    exact ⟨if_pos hknown, rfl⟩
  · cases hr

/-- **When the recorded discount is right**: while the full price is computed without overflow, or
where the cache saves nothing and the overflow does not show. -/
theorem recorded_discount_iff {live : Dynamic} {c : PluginContext} {r : UsageRecord}
    (husage : BillingPlugin.usageOf c = some u)
    (hpricing : BillingPlugin.pricingFor live c = some p)
    (hcost : checkedCost (some u) p = .ok actual) (hcached : 0 < u.cachedPromptTokens)
    (hfits : Bigint.Fits (u.exactFullCost p))
    (hr : (BillingPlugin.classify live c).2.usage = some r) :
    r.cacheDiscountMicros = u.exactFullCost p - (BillingPlugin.classify live c).2.actual ∧
        0 ≤ u.exactFullCost p - (BillingPlugin.classify live c).2.actual ↔
      u.fullMicros p + 500000 < 2 ^ 63 ∨ u.exactFullCost p = u.exactCost p ∧
        u.exactFullCost p - ((u.fullMicros p + 500000).bmod (2 ^ 64)).tdiv 1000000 ≤ 2 ^ 63 := by
  obtain ⟨htakes, hactual, -⟩ := checkedCost_eq_ok_iff.mp hcost
  have hexact : actual = u.exactCost p := hactual.trans htakes.exactCost_eq.symm
  have hnonneg := checkedCost_nonneg hcost
  have hle : actual ≤ u.exactFullCost p := hexact ▸ htakes.exactCost_le
  obtain ⟨hsettled, hdiscount⟩ := record_of_classify husage hpricing hcost hr
  rw [hsettled, hdiscount, and_iff_left (by omega)]
  rcases lt_or_ge (u.fullMicros p + 500000) (2 ^ 63) with hlt | hover
  · exact iff_of_true (htakes.cacheDiscount_of_lt hcached hfits hnonneg hle hlt) (.inl hlt)
  · rw [htakes.cacheDiscount_of_le hcached hfits hnonneg hle hover, fullCost_eq, int64_eq, ← hexact,
      or_iff_right (by omega)]
    exact and_congr_right fun h ↦ by rw [h]

end Discount

/-- A request for `m` that provider `a` has answered with the usage `u`, at the price `p`. -/
def PluginContext.answered (u : Usage) (p : Pricing) : PluginContext where
  tenant := "t"
  group := ""
  apiKeyID := "k"
  applicationID := none
  environment := ""
  pricingSnapshot := some { Dynamic.sample with models := [⟨"m", [⟨"a", "u", 0, p⟩]⟩] }
  reservationID := "x"
  billingDone := false
  chargePossible := true
  billingUncertain := false
  billingAttemptRisk := false
  beforeUpstream := some "x"
  billingFinalize := true
  request := ⟨"m", false, none⟩
  response := some ⟨"m", some u⟩
  provider := "a"
  providerEndpoint := "openai"
  requestID := "r"
  sessionID := ""
  traceID := ""
  stop := false
  blockedBy := ""
  rejectStatus := 0
  reserved := 0

/-- The product of the tokens and the rate is more than 64 bits hold, the full price is not: nine
tenths of it are saved, and none of that is recorded. -/
theorem recorded_discount_lost :
    let u : Usage := ⟨1000000000000, 0, 1000000000000, 1000000000000⟩
    let p : Pricing := ⟨10000000, 0, "usd", 100000⟩
    let settlement := (BillingPlugin.classify .sample (.answered u p)).2
    checkedCost (some u) p = .ok settlement.actual ∧ 0 < u.cachedPromptTokens ∧
    Bigint.Fits (u.exactFullCost p) ∧
      u.exactFullCost p - settlement.actual = 9000000000000 ∧
      ∃ r, settlement.usage = some r ∧ r.cacheDiscountMicros = 0 := by
  intro u p settlement
  have hfull : u.exactFullCost p = 10000000000000 := by
    rw [Takes.exactFullCost_eq (takes_iff.mpr (by decide))]
    decide
  rw [hfull]
  decide

/-- The usage and the price of a usual request. -/
theorem recorded_discount_iff_sample :
    let u : Usage := ⟨1000, 200, 1200, 900⟩
    let p : Pricing := ⟨2500000, 10000000, "usd", 100000⟩
    let settlement := (BillingPlugin.classify .sample (.answered u p)).2
    ∃ r, settlement.usage = some r ∧ r.cacheDiscountMicros = u.exactFullCost p - settlement.actual ∧
      0 ≤ u.exactFullCost p - settlement.actual := by
  intro u p settlement
  obtain ⟨r, hr⟩ : ∃ r, settlement.usage = some r := Option.isSome_iff_exists.mp (by decide)
  have hcost : checkedCost (some u) p = .ok 2475 := by decide
  have hfull : u.exactFullCost p = 4500 := by
    rw [Takes.exactFullCost_eq (takes_iff.mpr (by decide))]
    decide
  have hfits : Bigint.Fits (u.exactFullCost p) := hfull ▸ by decide
  exact ⟨r, hr, (recorded_discount_iff rfl rfl hcost (by decide) hfits hr).mpr (.inl (by decide))⟩

end Voxeltoad
