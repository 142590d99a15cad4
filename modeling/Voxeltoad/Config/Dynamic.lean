import Mathlib.Algebra.Group.Int.Defs
import Mathlib.Data.List.Basic
import Mathlib.Tactic.TypeStar

/-!
# The dynamic configuration

The part of `internal/config/schema.go` that routing, preparation and billing read: providers with
their endpoints, models with their upstreams and prices, and routes.  `ResolveModel` is here too;
the preparer and the billing plugin both go through it, over different configurations.

Rates are `int64` micro-units per million tokens.  They are `Int` here, and nothing in the schema
bounds them: what refuses a negative one is the code that prices with it.
-/

set_option autoImplicit false

namespace Voxeltoad

/-- `Pricing`: the rates of one upstream.  A multiplier of zero means full price. -/
structure Pricing where
  promptPer1M : Int
  completionPer1M : Int
  currency : String
  cacheHitMultiplier : Int
  deriving DecidableEq, Repr

/-- `ModelUpstream`: one provider's realization of a model alias. -/
structure ModelUpstream where
  provider : String
  upstreamModel : String
  defaultMaxTokens : Int
  pricing : Pricing
  deriving DecidableEq, Repr

/-- `Model`: a client-facing alias and who serves it. -/
structure Model where
  modelAlias : String
  upstreams : List ModelUpstream
  deriving DecidableEq, Repr

/-- `ProviderEndpoint`. -/
structure ProviderEndpoint where
  id : String
  adapter : String
  deriving DecidableEq, Repr

/-- `EndpointID`: the explicit id, or one derived from the adapter. -/
def ProviderEndpoint.endpointID (e : ProviderEndpoint) : String :=
  if e.id ≠ "" then e.id else if e.adapter = "claude" then "anthropic" else e.adapter

/-- `Provider`. -/
structure Provider where
  name : String
  endpoints : List ProviderEndpoint
  deriving DecidableEq, Repr

/-- `RouteProvider`. -/
structure RouteProvider where
  name : String
  weight : Int
  deriving DecidableEq, Repr

/-- The selection strategy of a route.  `priority` is also what an unknown text means. -/
inductive Strategy where
  | priority
  | roundRobin
  | weighted
  | sessionAffinity
  deriving DecidableEq, Repr

/-- `Route`: the candidate providers of an alias, in order. -/
structure Route where
  modelAlias : String
  providers : List RouteProvider
  strategy : Strategy
  deriving DecidableEq, Repr

/-- `Dynamic`: one version of the configuration. -/
structure Dynamic where
  version : String
  providers : List Provider
  models : List Model
  routes : List Route
  deriving DecidableEq, Repr

/-- An upstream that charges `rate` for a million completion tokens. -/
def ModelUpstream.sample (provider : String) (rate : Int) : ModelUpstream where
  provider := provider
  upstreamModel := "u"
  defaultMaxTokens := 0
  pricing := ⟨0, rate, "usd", 0⟩

/-- A model `m` that two providers serve, tried in order. -/
def Dynamic.sample : Dynamic where
  version := "1"
  providers := [⟨"a", [⟨"", "openai"⟩]⟩, ⟨"b", [⟨"", "openai"⟩]⟩]
  models := [⟨"m", [.sample "a" 3, .sample "b" 4]⟩]
  routes := [⟨"m", [⟨"a", 1⟩, ⟨"b", 1⟩], .priority⟩]

namespace Dynamic

/-- **`ResolveModel`**: the first upstream of the provider, over all models with the alias. -/
def resolveModel (d : Dynamic) (modelAlias provider : String) : Option ModelUpstream :=
  d.models.findSome? fun m ↦
    if m.modelAlias = modelAlias then m.upstreams.find? fun u ↦ u.provider = provider else none

/-- The upstreams of an alias, over all models with it. -/
def upstreamsOf (d : Dynamic) (modelAlias : String) : List ModelUpstream :=
  (d.models.filter fun m ↦ m.modelAlias = modelAlias).flatMap Model.upstreams

/-- Resolving an alias is a search through its upstreams. -/
theorem resolveModel_eq_find (d : Dynamic) (modelAlias provider : String) :
    d.resolveModel modelAlias provider =
      (d.upstreamsOf modelAlias).find? fun u ↦ u.provider = provider := by
  rw [resolveModel, upstreamsOf]
  induction d.models with
  | nil => rfl
  | cons m ms ih =>
    rw [List.findSome?_cons, List.filter_cons]
    by_cases hm : m.modelAlias = modelAlias
    · rw [if_pos hm, if_pos (by simpa using hm), List.flatMap_cons, List.find?_append, ← ih]
      cases m.upstreams.find? fun u ↦ u.provider = provider <;> rfl
    · rw [if_neg hm, if_neg (by simpa using hm), ih]

theorem mem_of_resolveModel {d : Dynamic} {modelAlias provider : String} {mu : ModelUpstream}
    (h : d.resolveModel modelAlias provider = some mu) : mu ∈ d.upstreamsOf modelAlias := by
  rw [resolveModel_eq_find] at h
  exact List.mem_of_find?_eq_some h

end Dynamic

end Voxeltoad
