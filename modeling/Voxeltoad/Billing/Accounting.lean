import Mathlib.Algebra.Group.Int.Defs
import Mathlib.Data.List.Basic
import Mathlib.Tactic.TypeStar

/-!
# The accounting vocabulary

The types of `internal/billing/accounting.go` and the `UsageRecord` of `internal/billing/store.go`:
what the data plane hands to the accounting store when it reserves, dispatches and settles a
request, and what the admin plane hands to it when it changes a budget or resolves a reservation.

Money is an `Int` of micro-units.  The columns it is stored in are `BIGINT`, and PostgreSQL refuses
a write that does not fit rather than wrapping it.  `Bigint.Fits` and `Integer.Fits` are the ranges,
and every write that could leave the range of its column checks it.
-/

set_option autoImplicit false

namespace Voxeltoad

/-- An instant, in nanoseconds since the Unix epoch. -/
abbrev Time := Int

/-! ## Errors -/

/-- The sentinel errors of the package, with the text that is wrapped around them, and the two
ways the database itself refuses a statement. -/
inductive AccountingError where
  /-- `ErrInsufficient` -/
  | insufficient (detail : String)
  /-- `ErrCurrencyMismatch` -/
  | currencyMismatch (detail : String)
  /-- `ErrReservationConflict` -/
  | reservationConflict
  /-- `ErrInvalidPolicy` -/
  | invalidPolicy (detail : String)
  /-- `ErrNotFound` -/
  | notFound (detail : String)
  /-- A value does not fit its column. -/
  | outOfRange
  /-- A `CHECK` constraint of the schema does not hold. -/
  | checkViolation
  deriving DecidableEq, Repr

/-! ## Column types -/

/-- The range of a `BIGINT` column. -/
def Bigint.Fits (x : Int) : Prop := -2 ^ 63 ≤ x ∧ x < 2 ^ 63

instance (x : Int) : Decidable (Bigint.Fits x) := inferInstanceAs (Decidable (_ ∧ _))

/-- The range of an `INTEGER` column. -/
def Integer.Fits (x : Int) : Prop := -2 ^ 31 ≤ x ∧ x < 2 ^ 31

instance (x : Int) : Decidable (Integer.Fits x) := inferInstanceAs (Decidable (_ ∧ _))

/-! ## Currency labels

Two letters outside ASCII have a lower case letter of ASCII, and two fold to one.  What Go makes of
the other letters outside ASCII is left out: it stays outside ASCII, where no currency is. -/

/-- `unicode.ToLower`: of the Kelvin sign and of the dotted capital I too. -/
def lowerChar (c : Char) : Char :=
  if c = '\u212A' then 'k' else if c = '\u0130' then 'i' else c.toLower

/-- `strings.ToLower`. -/
def toLower (s : String) : String := String.ofList (s.toList.map lowerChar)

/-- The letter that stands for those that `strings.EqualFold` does not tell apart: the Kelvin sign
is a `k`, and the long s an `s`. -/
def foldChar (c : Char) : Char :=
  if c = '\u212A' then 'k' else if c = '\u017F' then 's' else c.toLower

/-- `strings.EqualFold`. -/
def equalFold (a b : String) : Bool := a.toList.map foldChar = b.toList.map foldChar

/-- A label that is ASCII text. -/
def AsciiLabel (s : String) : Prop := ∀ c ∈ s.toList, c.toNat < 128

/-- `lower` of PostgreSQL, on a label that is ASCII text. -/
def lower (s : String) : String := String.ofList (s.toList.map Char.toLower)

/-- `validCurrency`: three letters `a`–`z`. -/
def validCurrency (currency : String) : Bool :=
  currency.toList.length = 3 && currency.toList.all fun c ↦ 'a' ≤ c && c ≤ 'z'

/-- The letters of a currency. -/
theorem bounds_of_validCurrency {s : String} (h : validCurrency s = true) {c : Char}
    (hc : c ∈ s.toList) : 97 ≤ c.toNat ∧ c.toNat ≤ 122 := by
  simp only [validCurrency, Bool.and_eq_true, List.all_eq_true, decide_eq_true_eq] at h
  exact h.2 c hc

theorem ascii_of_validCurrency {s : String} (h : validCurrency s = true) : AsciiLabel s :=
  fun _ hc ↦ Nat.lt_of_le_of_lt (bounds_of_validCurrency h hc).2 (by decide)

theorem Char.toLower_of_le {c : Char} (h : 97 ≤ c.toNat) : c.toLower = c := by
  refine dif_neg ?_
  rintro ⟨-, hz⟩
  rw [UInt32.le_iff_toNat_le] at hz
  exact absurd (Nat.le_trans h hz) (by decide)

theorem foldChar_of_ascii {c : Char} (h : c.toNat < 128) : foldChar c = c.toLower := by
  have hkelvin : c ≠ '\u212A' := by
    rintro rfl
    exact absurd h (by decide)
  have hlong : c ≠ '\u017F' := by
    rintro rfl
    exact absurd h (by decide)
  rw [foldChar, if_neg hkelvin, if_neg hlong]

theorem lower_of_validCurrency {s : String} (h : validCurrency s = true) : lower s = s := by
  have hmap : s.toList.map Char.toLower = s.toList :=
    (List.map_congr_left (g := id) fun c hc ↦
      Char.toLower_of_le (bounds_of_validCurrency h hc).1).trans (List.map_id _)
  rw [lower, hmap, String.ofList_toList]

/-- A label that Go takes for a currency is that currency to PostgreSQL. -/
theorem lower_of_equalFold {label currency : String} (hlabel : AsciiLabel label)
    (hcurrency : validCurrency currency = true) (h : equalFold label currency = true) :
    lower label = currency := by
  rw [equalFold, decide_eq_true_eq,
    List.map_congr_left fun c hc ↦ foldChar_of_ascii (hlabel c hc),
    List.map_congr_left fun c hc ↦ foldChar_of_ascii (ascii_of_validCurrency hcurrency c hc)] at h
  rw [lower, h]
  exact lower_of_validCurrency hcurrency

/-! ## Reservations -/

/-- A `json.RawMessage` field as the store sees it: absent (length zero), a text `json.Marshal`
refuses, or a JSON value, written here as its canonical text. -/
inductive RawMessage where
  | absent
  | malformed
  | value (canonical : String)
  deriving DecidableEq, Repr

/-- `ReservationRequest` freezes authenticated identity and pricing before dispatch. -/
structure ReservationRequest where
  id : String
  requestID : String
  tenant : String
  group : String
  apiKeyID : String
  applicationID : Option Int
  environment : String
  currency : String
  estimate : Int
  priceSnapshot : RawMessage
  deriving DecidableEq, Repr

/-- One billable request, as it is written to `usage_records`. -/
structure UsageRecord where
  applicationID : Option Int
  environment : String
  currency : String
  tenant : String
  group : String
  apiKeyID : String
  provider : String
  providerEndpoint : String
  model : String
  promptTokens : Int
  completionTokens : Int
  cost : Int
  cachedPromptTokens : Int
  cacheDiscountMicros : Int
  requestID : String
  sessionID : String
  traceID : String
  deriving DecidableEq, Repr

/-- The outcome of a settlement.  The source has a string; `other` stands for the texts
`validateSettlement` refuses. -/
inductive Outcome where
  | known
  | released
  | unknown
  | other (text : String)
  deriving DecidableEq, Repr

/-- What is known about the charge of a reservation once its request has ended. -/
structure Settlement where
  reservationID : String
  outcome : Outcome
  actual : Int
  reason : String
  attemptRisk : Bool
  usage : Option UsageRecord
  deriving DecidableEq, Repr

/-! ## Budgets -/

/-- What a budget policy applies to. -/
inductive ScopeKind where
  | tenant
  | group
  | application
  | applicationEnv
  | key
  deriving DecidableEq, Repr

/-- The calendar period of a budget. -/
inductive Period where
  | daily
  | weekly
  | monthly
  deriving DecidableEq, Repr

/-- Whether a budget blocks (`enforce`) or only reports (`soft`). -/
inductive Mode where
  | soft
  | enforce
  deriving DecidableEq, Repr

/-- A policy as the admin plane submits it.  The three enumerations arrive as text; `none` is a
text that names no member. -/
structure BudgetSpec where
  name : String
  scopeKind : Option ScopeKind
  scopeRef : String
  environment : String
  period : Option Period
  timezone : String
  currency : String
  limit : Int
  mode : Option Mode
  thresholds : List Int
  deriving DecidableEq, Repr

/-- The part of a policy that can be changed after its creation. -/
structure BudgetPatch where
  version : Int
  limit : Option Int
  enabled : Option Bool
  deriving DecidableEq, Repr

/-- What an operator can do about a reservation whose charge is unknown.  `other` stands for the
texts `Resolve` refuses. -/
inductive Action where
  | settle
  | release
  | releaseUnknown
  | other (text : String)
  deriving DecidableEq, Repr

/-- An operator's decision about an unknown reservation. -/
structure Resolution where
  version : Int
  action : Action
  actual : Option Int
  reason : String
  evidence : String
  operatorID : Int
  deriving DecidableEq, Repr

end Voxeltoad
