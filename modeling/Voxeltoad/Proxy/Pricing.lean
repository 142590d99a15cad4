import Voxeltoad.Proxy.Request

/-!
# Pricing and routing agree

The configuration is walked four times for a request: the router picks providers from the route,
the preparer resolves the alias at each of them, billing takes the largest rate among the upstreams
in the request's snapshot to reserve, and resolves the alias at the provider that was hit to settle.
This file says that the four walks agree on every provider that is tried.

The snapshot leaves out the upstreams a route does not reach, and the effective token bound of the
estimate is taken over it, not over the whole alias (`estimate_not_covering`).
-/

set_option autoImplicit false

namespace Voxeltoad

/-! ## What was tried -/

section Attempts

variable {σ α : Type} {send : Forwarder → Exchange → Except UpstreamError α} {d : Dispatcher}
  {store : AccountingStore σ} {net : Upstreams σ} {req : UnifiedRequest}

/-- An attempt on one of the given candidates. -/
structure Attempt.On (d : Dispatcher) (req : UnifiedRequest) (keys : List EndpointKey)
    (a : Attempt) : Prop where
  candidate : a.key ∈ keys
  forwarder : (d.forwarders a.key).isSome = true
  prepared : d.prepare req a.key = .ok a.req

/-- The invariant of the loop over the candidates. -/
structure Trying.On (d : Dispatcher) (req : UnifiedRequest) (keys rest : List EndpointKey)
    (s : Trying σ) : Prop where
  left : ∀ key ∈ rest, key ∈ keys
  made : ∀ a ∈ s.attempts, a.On d req keys

/-- Every call is on the candidate whose turn it is. -/
theorem Trying.On.call {keys rest : List EndpointKey} {key : EndpointKey} {s : Trying σ}
    {f : Forwarder} {preq : UnifiedRequest} (h : s.On d req keys (key :: rest))
    (hf : d.forwarders key = some f) (hp : d.prepare req key = .ok preq) (x : Exchange) :
    ∀ a ∈ s.attempts ++ [⟨key, preq, x⟩], a.On d req keys := by
  refine List.forall_mem_append.mpr ⟨h.made, ?_⟩
  rw [List.forall_mem_singleton]
  exact ⟨h.left key (List.mem_cons_self ..), by simp [hf], hp⟩

theorem attempts_tryCandidates (total i : Nat) (keys : List EndpointKey) (s : Trying σ)
    (h : ∀ a ∈ s.attempts, a.On d req keys) :
    ∀ a ∈ (tryCandidates send d store net req total i keys s).1.attempts, a.On d req keys := by
  refine tryCandidates_rec send d store net (Trying.On d req keys)
    (fun s _ ↦ ∀ a ∈ s.attempts, a.On d req keys) ?_ ?_ (fun s hP ↦ hP.made)
    ⟨fun key hkey ↦ hkey, h⟩
  · intro i key rest s s' hP hstep
    refine ⟨fun k hk ↦ hP.left k (List.mem_cons_of_mem _ hk), ?_⟩
    cases hstep with
    | noForwarder hf => exact hP.made
    | notPrepared hf hp => exact hP.made
    | retried hf hp hb hx he hr => exact hP.call hf hp _
  · intro i key rest s s' r hP hstep
    cases hstep with
    | refused hf hp hb => exact hP.made
    | won hf hp hb hx ha => exact hP.call hf hp _
    | failed hf hp hb hx he hr => exact hP.call hf hp _

/-- A provider that is tried is one of the route's, it has a forwarder at the endpoint the request
uses, and the alias was resolved at it. -/
theorem attempt_dispatch {modelAlias sessionKey protocol : String} {s : Session σ} {a : Attempt}
    (h : a ∈ (dispatch send d store net modelAlias sessionKey protocol req s).attempts) :
    (∃ rt, d.router.route modelAlias = some rt ∧ ∃ p ∈ rt.providers, p.name = a.key.provider) ∧
      a.key.endpoint = d.endpointFor a.key.provider protocol ∧
      (d.forwarders a.key).isSome = true ∧ d.prepare req a.key = .ok a.req := by
  rw [dispatch] at h
  split at h
  · simp at h
  · rename_i names router hnames
    have hon := attempts_tryCandidates _ _ _ _ (by simp) a h
    obtain ⟨name, hname, hkey⟩ := List.mem_map.mp hon.candidate
    have hroute := mem_candidates (by rw [hnames]) hname
    refine ⟨?_, ?_, hon.forwarder, hon.prepared⟩
    · rw [← hkey]
      exact hroute
    · rw [← hkey]

end Attempts

/-! ## The snapshot -/

section Snapshot

variable {d : Dispatcher} {dyn snapshot : Dynamic} {modelAlias protocol : String}

/-- The snapshot has the upstreams of the alias that are reachable. -/
theorem upstreamsOf_accountingSnapshot (hd : d.preparer = some dyn)
    (hsnapshot : d.accountingSnapshot modelAlias protocol = some snapshot) :
    snapshot.upstreamsOf modelAlias = (dyn.upstreamsOf modelAlias).filter fun u ↦
      d.reachable modelAlias protocol u.provider := by
  rw [Dispatcher.accountingSnapshot, hd, Option.map_some, Option.some.injEq] at hsnapshot
  rw [← hsnapshot, Dynamic.upstreamsOf, Dynamic.upstreamsOf, List.filter_flatMap, List.filter_map,
    List.flatMap_map]
  simp only [Function.comp_def]
  rw [List.filter_filter]
  simp

/-- The snapshot resolves a provider that is reachable as the configuration does. -/
theorem resolveModel_accountingSnapshot (hd : d.preparer = some dyn)
    (hsnapshot : d.accountingSnapshot modelAlias protocol = some snapshot) {provider : String}
    (h : d.reachable modelAlias protocol provider = true) :
    snapshot.resolveModel modelAlias provider = dyn.resolveModel modelAlias provider := by
  rw [Dynamic.resolveModel_eq_find, Dynamic.resolveModel_eq_find,
    upstreamsOf_accountingSnapshot hd hsnapshot, List.find?_filter]
  congr 1
  funext u
  by_cases hu : u.provider = provider
  · simp [hu, h]
  · simp [hu]

/-- A provider that is tried is reachable. -/
theorem reachable_of_attempt {σ α : Type}
    {send : Forwarder → Exchange → Except UpstreamError α} {store : AccountingStore σ}
    {net : Upstreams σ} {req : UnifiedRequest} {sessionKey : String} {s : Session σ} {a : Attempt}
    (h : a ∈ (dispatch send d store net modelAlias sessionKey protocol req s).attempts) :
    d.reachable modelAlias protocol a.key.provider = true := by
  obtain ⟨⟨rt, hrt, p, hp, hname⟩, hendpoint, hforwarder, -⟩ := attempt_dispatch h
  have hkey : (⟨a.key.provider, d.endpointFor a.key.provider protocol⟩ : EndpointKey) = a.key := by
    rw [← hendpoint]
  rw [Dispatcher.reachable, hkey, hforwarder, hrt, Option.map_some, Option.getD_some,
    Bool.and_true, List.any_eq_true]
  exact ⟨p, hp, by simpa using hname⟩

end Snapshot

/-! ## The estimate -/

section Estimate

variable {σ : Type} {p : BillingPlugin σ} {live snapshot : Dynamic} {c : PluginContext}

theorem le_foldl_max {ι : Type} (f : ι → Int) (l : List ι) (b : Int) :
    b ≤ l.foldl (fun m i ↦ max m (f i)) b ∧ ∀ i ∈ l, f i ≤ l.foldl (fun m i ↦ max m (f i)) b := by
  induction l generalizing b with
  | nil => simp
  | cons j l ih =>
    obtain ⟨hb, hl⟩ := ih (max b (f j))
    rw [List.foldl_cons]
    refine ⟨by omega, ?_⟩
    intro i hi
    rcases List.mem_cons.mp hi with rfl | hi
    · omega
    · exact hl i hi

theorem completionPer1M_le_maxRate {modelAlias : String} {mu : ModelUpstream}
    (h : mu ∈ snapshot.upstreamsOf modelAlias) :
    mu.pricing.completionPer1M ≤ BillingPlugin.maxRate snapshot modelAlias :=
  (le_foldl_max (fun u : ModelUpstream ↦ u.pricing.completionPer1M) _ 0).2 mu h

/-- An estimate that is not rejected is what the effective tokens cost at the largest rate. -/
theorem estimate_eq (hpriced : c.pricingSnapshot = some snapshot)
    (h : 0 ≤ p.estimate live c) :
    0 ≤ p.effTokens snapshot c.request ∧ 0 ≤ BillingPlugin.maxRate snapshot c.request.model ∧
      p.estimate live c = perMillion
        (p.effTokens snapshot c.request * BillingPlugin.maxRate snapshot c.request.model) := by
  simp only [BillingPlugin.estimate, hpriced, Option.getD_some] at h ⊢
  split at h
  · omega
  · rename_i hvalid
    rw [if_neg hvalid]
    simp only [not_or, Int.not_lt] at hvalid
    exact ⟨hvalid.1, hvalid.2.1, rfl⟩

/-- The completion part of a cost. -/
def completionPart (u : Usage) (pricing : Pricing) : Int :=
  perMillion (u.completionTokens * pricing.completionPer1M)

/-- The estimate covers the completion part of every usage within the effective tokens, unless a
negative count meets a negative rate. -/
theorem completionPart_le_estimate (hpriced : c.pricingSnapshot = some snapshot)
    (h : 0 ≤ p.estimate live c) {mu : ModelUpstream}
    (hmu : mu ∈ snapshot.upstreamsOf c.request.model) {u : Usage}
    (hu : u.completionTokens ≤ p.effTokens snapshot c.request)
    (hsign : 0 ≤ u.completionTokens ∨ 0 ≤ mu.pricing.completionPer1M) :
    completionPart u mu.pricing ≤ p.estimate live c := by
  obtain ⟨heff, hrate, heq⟩ := estimate_eq hpriced h
  rw [heq, completionPart]
  refine perMillion_mono ?_
  have hle := completionPer1M_le_maxRate hmu
  have hcover := Int.mul_nonneg heff hrate
  rcases Int.le_total 0 mu.pricing.completionPer1M with hpos | hneg
  · calc u.completionTokens * mu.pricing.completionPer1M
        ≤ p.effTokens snapshot c.request * mu.pricing.completionPer1M :=
          Int.mul_le_mul_of_nonneg_right hu hpos
      _ ≤ _ := Int.mul_le_mul_of_nonneg_left hle heff
  · rcases hsign with htokens | hpos
    · have := Int.mul_nonpos_of_nonneg_of_nonpos htokens hneg
      omega
    · have hzero : mu.pricing.completionPer1M = 0 := by omega
      rw [hzero, Int.mul_zero]
      exact hcover

end Estimate

/-! ## The agreement -/

/-- **Pricing and routing agree.**  A provider that is tried resolves in the snapshot, to the
upstream its request was prepared with, and an estimate that was not rejected covers the completion
part of the cost at that provider. -/
theorem pricing_and_routing_agree {σ α : Type} (p : BillingPlugin σ)
    (send : Forwarder → Exchange → Except UpstreamError α) (d : Dispatcher) (dyn : Dynamic)
    (hd : d.preparer = some dyn) (net : Upstreams σ) (sessionKey protocol : String)
    (req : UnifiedRequest) (s : Session σ) :
    ∃ snapshot, d.accountingSnapshot req.model protocol = some snapshot ∧
      ∀ a ∈ (dispatch send d p.accounting net req.model sessionKey protocol req s).attempts,
        ∃ mu, snapshot.resolveModel req.model a.key.provider = some mu ∧
          dyn.resolveModel req.model a.key.provider = some mu ∧ a.req = mu.prepared req ∧
          ∀ live c, c.pricingSnapshot = some snapshot → c.request = req → 0 ≤ p.estimate live c →
            ∀ u : Usage, u.completionTokens ≤ p.effTokens snapshot req →
              0 ≤ u.completionTokens ∨ 0 ≤ mu.pricing.completionPer1M →
              completionPart u mu.pricing ≤ p.estimate live c := by
  obtain ⟨snapshot, hsnapshot⟩ : ∃ snapshot,
      d.accountingSnapshot req.model protocol = some snapshot := by
    rw [Dispatcher.accountingSnapshot, hd]
    exact ⟨_, rfl⟩
  refine ⟨snapshot, hsnapshot, fun a ha ↦ ?_⟩
  obtain ⟨-, -, -, hprepared⟩ := attempt_dispatch ha
  have hresolve := resolveModel_accountingSnapshot hd hsnapshot (reachable_of_attempt ha)
  simp only [Dispatcher.prepare, hd] at hprepared
  split at hprepared
  · cases hprepared
  rename_i mu hmu
  have hreq : a.req = mu.prepared req := (Except.ok.inj hprepared).symm
  have hmu' : snapshot.resolveModel req.model a.key.provider = some mu := hresolve.trans hmu
  refine ⟨mu, hmu', hmu, hreq, ?_⟩
  intro live c hpriced hrequest hestimate u hu hsign
  subst hrequest
  exact completionPart_le_estimate hpriced hestimate (Dynamic.mem_of_resolveModel hmu') hu hsign

/-! ## A route that does not reach every upstream -/

/-- The alias `m` is served by `b` with a default of one token, and by `a` with a default of two,
but its route names `b` only. -/
def Dynamic.unreached (rate : Int) : Dynamic :=
  { Dynamic.sample with
    models := [⟨"m", [⟨"b", "u", 1, ⟨0, rate, "usd", 0⟩⟩, ⟨"a", "u", 2, ⟨0, rate, "usd", 0⟩⟩]⟩]
    routes := [⟨"m", [⟨"b", 1⟩], .priority⟩] }

/-- A request of it that does not bound its tokens. -/
def Call.unbounded : Call := { Call.sample false with request := ⟨"m", false, none⟩ }

/-- The dispatch of the request. -/
def unreachedDispatch (rate : Int) : Dispatched Nat UnifiedResponse :=
  (Dispatcher.sample (.unreached rate)).forward .sample Gateway.sample.billing.accounting
    Gateway.sample.net "m" "" "openai" Call.unbounded.request
    ⟨pricedContext (.sample (.unreached rate)) .unbounded, 0, []⟩

/-- The estimate of the request. -/
def unreachedEstimate (rate : Int) : Int :=
  Gateway.sample.billing.estimate .sample (pricedContext (.sample (.unreached rate)) .unbounded)

/-- The estimate is not bounded by the defaults of the whole alias: `b` is selected, and two tokens
of it cost more than what is reserved for one.  And a negative number of tokens at a negative rate
costs more than the nothing that is reserved. -/
theorem estimate_not_covering :
    ((unreachedDispatch 1000000).result.provider = "b" ∧ 0 ≤ unreachedEstimate 1000000 ∧
      (2 : Int) ≤ Gateway.sample.billing.effTokens (.unreached 1000000) Call.unbounded.request ∧
      ¬ completionPart ⟨0, 2, 2, 0⟩ ⟨0, 1000000, "usd", 0⟩ ≤ unreachedEstimate 1000000) ∧
    ((unreachedDispatch (-1000000)).result.provider = "b" ∧ 0 ≤ unreachedEstimate (-1000000) ∧
      (-1 : Int) ≤ Gateway.sample.billing.effTokens (.unreached (-1000000))
        Call.unbounded.request ∧
      ¬ completionPart ⟨0, -1, -1, 0⟩ ⟨0, -1000000, "usd", 0⟩ ≤ unreachedEstimate (-1000000)) := by
  decide

/-- One token of `b` is within the estimate. -/
theorem pricing_and_routing_agree_sample :
    ∃ snapshot mu, (Dispatcher.sample (.unreached 1000000)).accountingSnapshot "m" "openai" =
        some snapshot ∧
      snapshot.resolveModel "m" "b" = some mu ∧
      mu.prepared ⟨"m", false, none⟩ = ⟨"u", false, some 1⟩ ∧
      completionPart ⟨0, 1, 1, 0⟩ mu.pricing ≤ unreachedEstimate 1000000 := by
  obtain ⟨snapshot, hsnapshot, hagree⟩ := pricing_and_routing_agree Gateway.sample.billing
    (Forwarder.forward .sample) (.sample (.unreached 1000000)) (.unreached 1000000) rfl
    Gateway.sample.net "" "openai" Call.unbounded.request
    ⟨pricedContext (.sample (.unreached 1000000)) .unbounded, 0, []⟩
  obtain rfl : snapshot = ((Dispatcher.sample (.unreached 1000000)).accountingSnapshot
      Call.unbounded.request.model "openai").getD .sample := by
    rw [hsnapshot, Option.getD_some]
  obtain ⟨mu, hmu, -, hreq, hcover⟩ := hagree
    ⟨⟨"b", "openai"⟩, ⟨"u", false, some 1⟩, .answered 200 ⟨payloadOne, .eof⟩⟩ (by decide)
  exact ⟨_, mu, hsnapshot, hmu, hreq.symm,
    hcover .sample _ hsnapshot rfl (by decide) ⟨0, 1, 1, 0⟩ (by decide)
      (.inl (by decide))⟩

end Voxeltoad
