import Mathlib.Algebra.Group.Nat.Defs
import Voxeltoad.Billing.Accounting
import Voxeltoad.Config.Dynamic

/-!
# What a request costs

`internal/billing/cost.go`, for requests that go through durable accounting.  `checkedCost` is the
amount that is settled: it is computed with big integers, and usage or prices that make no sense
are refused.  `fullCost` only reports what a cache hit saved; it is computed in `int64`, which
wraps.

Go's integer division rounds towards zero (`Int.tdiv`).  On the amounts that `checkedCost` gets to
divide that is the same as rounding down, so adding half a million first rounds half up.
-/

set_option autoImplicit false

namespace Voxeltoad

/-! ## Machine integers -/

/-- The value of an `int64` expression: arithmetic wraps. -/
def int64 (x : Int) : Int := (Int64.ofInt x).toInt

theorem int64_eq (x : Int) : int64 x = x.bmod (2 ^ 64) := by
  rw [int64, Int64.toInt_ofInt]
  rfl

theorem int64_of_bounds {x : Int} (h₀ : -2 ^ 63 ≤ x) (h : x < 2 ^ 63) : int64 x = x := by
  rw [int64_eq]
  exact Int.bmod_eq_of_le (by omega) (by omega)

theorem int64_of_range {x : Int} (h₀ : 0 ≤ x) (h : x < 2 ^ 63) : int64 x = x :=
  int64_of_bounds (by omega) h

/-- What is left of a sum in 64 bits, and how much of it is lost. -/
theorem int64_wraps {x : Int} (h : 2 ^ 63 ≤ x) :
    -2 ^ 63 ≤ int64 x ∧ int64 x < 2 ^ 63 ∧ int64 x + 2 ^ 64 ≤ x := by
  rw [int64_eq, Int.bmod_def]
  omega

theorem int64_sub (x y : Int) : int64 (int64 x - y) = int64 (x - y) := by
  rw [int64_eq, int64_eq, int64_eq, Int.bmod_sub_bmod]

theorem int64_add (x y : Int) : int64 (int64 x + y) = int64 (x + y) := by
  rw [int64_eq, int64_eq, int64_eq, Int.bmod_add_bmod]

/-- Micro-units per million tokens, rounded half up. -/
def perMillion (x : Int) : Int := (x + 500000).tdiv 1000000

theorem perMillion_mono {x y : Int} (h : x ≤ y) : perMillion x ≤ perMillion y :=
  Int.tdiv_le_tdiv (by decide) (by omega)

theorem perMillion_nonneg {x : Int} (h : 0 ≤ x) : 0 ≤ perMillion x :=
  Int.tdiv_nonneg (by omega) (by decide)

/-! ## Usage -/

/-- `adapter.Usage`: the token counts an upstream reports. -/
structure Usage where
  promptTokens : Int
  completionTokens : Int
  totalTokens : Int
  cachedPromptTokens : Int
  deriving DecidableEq, Repr

/-- Why `checkedCost` refuses. -/
inductive CostError where
  /-- `invalid usage or pricing` -/
  | invalid
  /-- `usage cost exceeds supported monetary range` -/
  | exceeds
  deriving DecidableEq, Repr

/-- A multiplier that is not configured is full price. -/
def Pricing.multiplier (p : Pricing) : Int :=
  if p.cacheHitMultiplier = 0 then 1000000 else p.cacheHitMultiplier

/-- The rate of cached prompt tokens. -/
def Pricing.cachedRate (p : Pricing) : Int := perMillion (p.promptPer1M * p.multiplier)

/-- The prompt tokens that are billed at the cached rate. -/
def Usage.cached (u : Usage) : Int := min u.cachedPromptTokens u.promptTokens

/-- A rate or a count that `checkedCost` refuses to price with. -/
def Pricing.Invalid (p : Pricing) : Prop :=
  p.promptPer1M < 0 ∨ p.completionPer1M < 0 ∨ p.cacheHitMultiplier < 0 ∨
    1000000 < p.cacheHitMultiplier

instance (p : Pricing) : Decidable p.Invalid := inferInstanceAs (Decidable (_ ∨ _))

def Usage.Invalid (u : Usage) : Prop :=
  u.promptTokens < 0 ∨ u.completionTokens < 0 ∨ u.cachedPromptTokens < 0

instance (u : Usage) : Decidable u.Invalid := inferInstanceAs (Decidable (_ ∨ _))

/-- **`checkedCost`** validates untrusted provider usage before it reaches durable accounting. -/
def checkedCost (u : Option Usage) (p : Pricing) : Except CostError Int :=
  match u with
  | none => .error .invalid
  | some u =>
    if u.Invalid ∨ p.Invalid then .error .invalid
    else
      let amount := perMillion ((u.promptTokens - u.cached) * p.promptPer1M +
        u.cached * p.cachedRate + u.completionTokens * p.completionPer1M)
      if Bigint.Fits amount then .ok amount else .error .exceeds

/-- **`FullCost`**: what the usage would cost without a cache discount. -/
def fullCost (u : Option Usage) (p : Pricing) : Int :=
  match u with
  | none => 0
  | some u =>
    let micros := int64 (int64 (u.promptTokens * p.promptPer1M) +
      int64 (u.completionTokens * p.completionPer1M))
    (int64 (micros + 500000)).tdiv 1000000

/-- An amount that is settled is never negative: every term of it is a product of numbers that
were checked. -/
theorem checkedCost_nonneg {u : Option Usage} {p : Pricing} {actual : Int}
    (h : checkedCost u p = .ok actual) : 0 ≤ actual := by
  rcases u with _ | u
  · cases h
  simp only [checkedCost] at h
  split at h
  · cases h
  rename_i hvalid
  split at h
  swap
  · cases h
  cases h
  simp only [Usage.Invalid, Pricing.Invalid, not_or, Int.not_lt] at hvalid
  obtain ⟨⟨hprompt, hcompletion, hcached⟩, hrate, hcrate, hmul, -⟩ := hvalid
  have hmultiplier : 0 ≤ p.multiplier := by
    rw [Pricing.multiplier]
    split <;> omega
  have hcachedRate : 0 ≤ p.cachedRate := perMillion_nonneg (Int.mul_nonneg hrate hmultiplier)
  have hc : 0 ≤ u.cached ∧ u.cached ≤ u.promptTokens := by
    rw [Usage.cached]
    omega
  have h₁ := Int.mul_nonneg (Int.sub_nonneg.mpr hc.2) hrate
  have h₂ := Int.mul_nonneg hc.1 hcachedRate
  have h₃ := Int.mul_nonneg hcompletion hcrate
  exact perMillion_nonneg (by omega)

end Voxeltoad
