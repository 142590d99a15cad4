import Mathlib.Data.List.Sort
import Voxeltoad.Billing.Cost
import Voxeltoad.Proxy.Breaker

/-!
# Candidate selection

`internal/proxy/router_select.go`, and `hrwOrder` of `affinity.go`: which providers a request is
tried on, and in what order.  A route orders its providers by its strategy, and the circuit breaker
takes out the ones whose endpoint it considers unhealthy, unless that would leave none.

The hash of `hrwOrder` and the random source of `weightedOrder` are parameters.  `randn k n` is the
value that is drawn when `k` providers remain and their weights sum to `n`; the number of remaining
providers tells the draws of one call apart.
-/

set_option autoImplicit false

namespace Voxeltoad

/-! ## Orderings -/

/-- `rotate`, from a cursor. -/
def rotate (start : Nat) (ps : List RouteProvider) : List RouteProvider :=
  ps.drop start ++ ps.take start

/-- `weightOf`. -/
def weightOf (p : RouteProvider) : Int := if p.weight ≤ 0 then 1 else p.weight

/-- The sum of the weights. -/
def totalWeight (ps : List RouteProvider) : Int :=
  ps.foldl (fun total p ↦ int64 (total + weightOf p)) 0

/-- The position of the first provider whose cumulated weight exceeds `pick`, or the first position
of all when there is none. -/
def pickIndex (pick : Int) : Int → Nat → List RouteProvider → Nat
  | _, _, [] => 0
  | cum, i, p :: ps =>
    let cum := int64 (cum + weightOf p)
    if pick < cum then i else pickIndex pick cum (i + 1) ps

/-- The head of a weighted ordering. -/
def weightedHead (randn : Nat → Int → Int) (ps : List RouteProvider) : Nat :=
  pickIndex (randn ps.length (totalWeight ps)) 0 0 ps

/-- `weightedOrder`: random selection without replacement.  There is a head as long as something
remains. -/
def weightedOrder (randn : Nat → Int → Int) (ps : List RouteProvider) : List RouteProvider :=
  match h : ps[weightedHead randn ps]? with
  | none => []
  | some p =>
    have : (ps.eraseIdx (weightedHead randn ps)).length < ps.length := by
      obtain ⟨hlt, -⟩ := List.getElem?_eq_some_iff.mp h
      rw [List.length_eraseIdx_of_lt hlt]
      omega
    p :: weightedOrder randn (ps.eraseIdx (weightedHead randn ps))
termination_by ps.length

/-- Whether `p` comes before `q` for a session: by score, and by name where the scores tie. -/
def hrwBefore (score : String → UInt64) (p q : RouteProvider) : Bool :=
  score q.name < score p.name ∨ (score p.name = score q.name ∧ p.name < q.name)

/-- `hrwOrder`; the sort is stable. -/
def hrwOrder (score : String → UInt64) (ps : List RouteProvider) : List RouteProvider :=
  ps.insertionSort fun p q ↦ hrwBefore score q p = false

/-! ## The router -/

/-- `router`.  Of two routes for an alias the later one is in force. -/
structure Router where
  routes : List Route
  rrIndex : String → Nat
  randn : Nat → Int → Int
  hrwScore : String → String → UInt64

namespace Router

def wildcardAlias : String := "*"

/-- The entry of the route map. -/
def lookup (r : Router) (modelAlias : String) : Option Route :=
  r.routes.reverse.find? fun rt ↦ rt.modelAlias = modelAlias

/-- The route of an alias, or the wildcard route. -/
def route (r : Router) (modelAlias : String) : Option Route :=
  (r.lookup modelAlias).or (r.lookup wildcardAlias)

/-- The route's providers in the order of its strategy. -/
def order (r : Router) (modelAlias sessionKey : String) (rt : Route) : List RouteProvider :=
  match rt.strategy with
  | .roundRobin => rotate (r.rrIndex modelAlias % rt.providers.length) rt.providers
  | .weighted => weightedOrder r.randn rt.providers
  | .sessionAffinity => hrwOrder (r.hrwScore sessionKey) rt.providers
  | .priority => rt.providers

/-- The round-robin cursor moves on. -/
def advance (r : Router) (modelAlias : String) (rt : Route) : Router :=
  if rt.strategy = .roundRobin ∧ rt.providers ≠ [] then
    { r with rrIndex := fun a ↦
        if a = modelAlias then (r.rrIndex modelAlias + 1) % rt.providers.length else r.rrIndex a }
  else r

/-- `filterHealthy`: all of them when none is healthy. -/
def filterHealthy (healthy : String → Bool) (names : List String) : List String :=
  if names.filter healthy = [] then names else names.filter healthy

/-- **`Candidates`**: `none` when there is no route. -/
def candidates (r : Router) (healthy : String → Bool) (modelAlias sessionKey : String) :
    Option (List String) × Router :=
  match r.route modelAlias with
  | none => (none, r)
  | some rt =>
    (some (filterHealthy healthy ((r.order modelAlias sessionKey rt).map RouteProvider.name)),
      r.advance modelAlias rt)

end Router

/-! ## Candidates come from the route -/

theorem mem_rotate {start : Nat} {ps : List RouteProvider} {p : RouteProvider} :
    p ∈ rotate start ps ↔ p ∈ ps := by
  rw [rotate, List.mem_append, or_comm, ← List.mem_append, List.take_append_drop]

theorem mem_of_mem_weightedOrder {randn : Nat → Int → Int} {ps : List RouteProvider}
    {p : RouteProvider} (h : p ∈ weightedOrder randn ps) : p ∈ ps := by
  induction ps using weightedOrder.induct randn with
  | case1 ps hnone =>
    rw [weightedOrder] at h
    split at h <;> simp_all
  | case2 ps q hsome _ ih =>
    rw [weightedOrder] at h
    split at h
    · simp at h
    · rename_i q' hsome'
      rcases List.mem_cons.mp h with rfl | h
      · exact List.mem_of_getElem? hsome'
      · exact List.mem_of_mem_eraseIdx (ih h)

theorem mem_order {r : Router} {modelAlias sessionKey : String} {rt : Route} {p : RouteProvider}
    (h : p ∈ r.order modelAlias sessionKey rt) : p ∈ rt.providers := by
  rw [Router.order] at h
  split at h
  · exact mem_rotate.mp h
  · exact mem_of_mem_weightedOrder h
  · exact (List.perm_insertionSort _ _).mem_iff.mp h
  · exact h

theorem mem_of_mem_filterHealthy {healthy : String → Bool} {names : List String} {n : String}
    (h : n ∈ Router.filterHealthy healthy names) : n ∈ names := by
  rw [Router.filterHealthy] at h
  split at h
  · exact h
  · exact List.mem_of_mem_filter h

/-- Every candidate is a provider of the route that is in force. -/
theorem mem_candidates {r : Router} {healthy : String → Bool} {modelAlias sessionKey : String}
    {names : List String} {n : String}
    (h : (r.candidates healthy modelAlias sessionKey).1 = some names) (hn : n ∈ names) :
    ∃ rt, r.route modelAlias = some rt ∧ ∃ p ∈ rt.providers, p.name = n := by
  rw [Router.candidates] at h
  split at h
  · cases h
  · rename_i rt hrt
    cases h
    obtain ⟨p, hp, rfl⟩ := List.mem_map.mp (mem_of_mem_filterHealthy hn)
    exact ⟨rt, hrt, p, mem_order hp, rfl⟩

end Voxeltoad
