import Mathlib.Logic.Function.Iterate
import Voxeltoad.Billing.Settle
import Voxeltoad.Proxy.Request

/-!
# How a request is settled

The flags that `settle` decides by are set in four places, and it is the whole of a request that
makes them mean something.  This file says what: the settlement of a request is a function of the
exchanges its attempts had, and every way out of the request issues it.

The argument follows the request.  While candidates are tried, the flags say whether one of the
attempts so far may have been charged (`Ended`).  What the winning attempt delivers, at once or as a
stream, fixes the context that is settled (`classified_won`, `classified_lost`).  Everything after
that is covered by the invariant of settling.
-/

set_option autoImplicit false

namespace Voxeltoad

/-! ## Attempts and their flags -/

/-- Whether one of the attempts may have been charged. -/
def mayCharge (stream : Bool) (attempts : List Attempt) : Bool :=
  attempts.any fun a ↦ a.exchange.mayCharge stream

/-- What an attempt returned, if it succeeded. -/
def Attempt.answer {α : Type} (send : Forwarder → Exchange → Except UpstreamError α)
    (d : Dispatcher) (a : Attempt) : Option α :=
  (d.forwarders a.key).bind fun f ↦ (send f a.exchange).toOption

/-- A context with its three billing flags set. -/
def PluginContext.flagged (pc : PluginContext) (charge uncertain risk : Bool) : PluginContext :=
  { pc with chargePossible := charge, billingUncertain := uncertain, billingAttemptRisk := risk }

section Loop

variable {σ α : Type} {send : Forwarder → Exchange → Except UpstreamError α} {stream : Bool}
  {d : Dispatcher} {store : AccountingStore σ} {net : Upstreams σ} {pc : PluginContext}

theorem mayCharge_concat (attempts : List Attempt) (a : Attempt) :
    mayCharge stream (attempts ++ [a]) =
      (mayCharge stream attempts || a.exchange.mayCharge stream) := by
  simp [mayCharge]

/-- A failed attempt adds to the doubt exactly when it may have been charged. -/
theorem accountUpstreamResult_error (hsend : Faithful stream send) {f : Forwarder} {x : Exchange}
    {e : UpstreamError} (he : send f x = .error e) (charged : Bool) :
    accountUpstreamResult (send f x) (pc.flagged charged charged false) =
      pc.flagged (charged || x.mayCharge stream) (charged || x.mayCharge stream) false := by
  have hdefinite : e.definite = true ↔ x.mayCharge stream = false := by
    rw [hsend f x, he]
    simp
  rw [he]
  simp only [accountUpstreamResult]
  cases hd : e.definite with
  | true =>
    rw [hdefinite.mp hd]
    simp
  | false =>
    have hx : x.mayCharge stream = true := by
      cases hx : x.mayCharge stream with
      | true => rfl
      | false => rw [hdefinite.mpr hx] at hd; cases hd
    rw [hx]
    simp [PluginContext.flagged]

theorem accountUpstreamResult_ok (a : α) (charged : Bool) :
    accountUpstreamResult (.ok a : Except UpstreamError α) (pc.flagged charged charged false) =
      pc.flagged true false charged := by
  cases charged <;> rfl

/-- While candidates are tried, every attempt has failed, and the flags say whether one of them
may have been charged. -/
structure Failing (send : Forwarder → Exchange → Except UpstreamError α) (stream : Bool)
    (d : Dispatcher) (pc : PluginContext) (attempts : List Attempt) (pc' : PluginContext) :
    Prop where
  lost : ∀ a ∈ attempts, a.answer send d = none
  flags : pc' = pc.flagged (mayCharge stream attempts) (mayCharge stream attempts) false

theorem Failing.concat {attempts : List Attempt} {pc' : PluginContext}
    (h : Failing send stream d pc attempts pc') (hsend : Faithful stream send) {key : EndpointKey}
    {f : Forwarder} (hf : d.forwarders key = some f) {x : Exchange} {e : UpstreamError}
    (he : send f x = .error e) (preq : UnifiedRequest) :
    Failing send stream d pc (attempts ++ [⟨key, preq, x⟩])
      (accountUpstreamResult (send f x) pc') where
  lost := List.forall_mem_append.mpr ⟨h.lost, by simp [Attempt.answer, hf, he, Except.toOption]⟩
  flags := by
    rw [mayCharge_concat, h.flags]
    exact accountUpstreamResult_error hsend he _

/-- What a dispatch ends with: an attempt that won, after others that failed, or none. -/
inductive Ended (send : Forwarder → Exchange → Except UpstreamError α) (stream : Bool)
    (d : Dispatcher) (pc : PluginContext) :
    List Attempt → PluginContext → Except DispatchError α → DispatchResult → Prop
  | won (earlier : List Attempt) (last : Attempt) {a : α} {dr : DispatchResult}
      (ha : last.answer send d = some a) (hprovider : dr.provider = last.key.provider) :
    Ended send stream d pc (earlier ++ [last]) (pc.flagged true false (mayCharge stream earlier))
      (.ok a) dr
  | lost {attempts : List Attempt} {pc' : PluginContext} {e : DispatchError} {dr : DispatchResult}
      (h : Failing send stream d pc attempts pc') :
    Ended send stream d pc attempts pc' (.error e) dr

theorem ended_tryCandidates (hsend : Faithful stream send) (req : UnifiedRequest) (total i : Nat)
    (keys : List EndpointKey) (world : σ) (breaker : CircuitBreaker)
    (hpc : pc = pc.flagged false false false) :
    let r := tryCandidates send d store net req total i keys ⟨pc, world, breaker, none, 0, []⟩
    Ended send stream d pc r.1.attempts r.1.pc r.2.1 r.2.2 := by
  refine tryCandidates_rec send d store net
    (fun _ s ↦ Failing send stream d pc s.attempts s.pc)
    (fun s r ↦ Ended send stream d pc s.attempts s.pc r.1 r.2) ?_ ?_ ?_ ⟨by simp, hpc⟩
  · intro i key keys s s' h hstep
    cases hstep with
    | noForwarder hf => exact h
    | notPrepared hf hp => exact h
    | @retried f preq world world' x e hf hp hb hx he hr => exact h.concat hsend hf he preq
  · intro i key keys s s' r h hstep
    cases hstep with
    | refused hf hp hb => exact .lost h
    | @won f preq world world' x a hf hp hb hx ha =>
      have hanswer : (⟨key, preq, x⟩ : Attempt).answer send d = some a := by
        simp [Attempt.answer, hf, ha, Except.toOption]
      have hflags : accountUpstreamResult (send f x) s.pc =
          pc.flagged true false (mayCharge stream s.attempts) := by
        rw [ha, h.flags]
        exact accountUpstreamResult_ok _ _
      simp only [Trying.record, hflags]
      exact .won s.attempts _ hanswer rfl
    | @failed f preq world world' x e hf hp hb hx he hr =>
      exact .lost (h.concat hsend hf he preq)
  · exact fun s h ↦ .lost h

/-- A dispatch does not touch the settlements of its request. -/
theorem ended_dispatch (d : Dispatcher) (store : AccountingStore σ) (net : Upstreams σ)
    (hsend : Faithful stream send) (modelAlias sessionKey protocol : String)
    (req : UnifiedRequest) (s : Session σ) (hpc : s.pc = s.pc.flagged false false false) :
    let r := dispatch send d store net modelAlias sessionKey protocol req s
    r.session.finishes = s.finishes ∧
      Ended send stream d s.pc r.attempts r.session.pc r.outcome r.result := by
  rw [dispatch]
  split
  · exact ⟨rfl, .lost ⟨by simp, hpc⟩⟩
  · exact ⟨rfl, ended_tryCandidates hsend req _ _ _ s.world d.breaker hpc⟩

end Loop

/-! ## What was delivered -/

/-- What the winning attempt of a request delivered. -/
structure Delivery where
  provider : String
  usage : Option Usage
  /-- The stream ended with an error of `Recv`. -/
  recvError : Bool
  deriving DecidableEq, Repr

section Spec

variable (json : Json) (d : Dispatcher) (call : Call)

/-- What an attempt delivered, if it won. -/
def Attempt.delivery (a : Attempt) : Option Delivery :=
  if call.request.stream then
    (a.answer Forwarder.forwardStream d).map fun sr ↦
      ⟨a.key.provider, sr.usage json call.delivers, sr.recvError json call.delivers⟩
  else
    (a.answer (Forwarder.forward json) d).map fun resp ↦ ⟨a.key.provider, resp.usage, false⟩

/-- What a request's attempts delivered: only the last one can have won. -/
def delivered (attempts : List Attempt) : Option Delivery :=
  attempts.getLast?.bind (Attempt.delivery json d call)

/-- The delivered usage is confirmed, and costs `actual` at the hit provider's price. -/
def Confirmed (snapshot : Dynamic) (model : String) (delivery : Option Delivery) (actual : Int) :
    Prop :=
  ∃ dl u mu, delivery = some dl ∧ dl.usage = some u ∧ dl.recvError = false ∧
    snapshot.resolveModel model dl.provider = some mu ∧ checkedCost (some u) mu.pricing = .ok actual

/-- **The classification of a request.**  It depends on what its attempts came to, and on nothing
else. -/
structure Classified (snapshot : Dynamic) (attempts : List Attempt) (s : Settlement) : Prop where
  /-- Released: no attempt can have been charged, and there is no usage. -/
  released : s.outcome = .released ↔
    (∀ a ∈ attempts, a.exchange.mayCharge call.request.stream = false) ∧
      (delivered json d call attempts).bind Delivery.usage = none
  /-- Known: the usage of the winning attempt is confirmed and has a price. -/
  known : ∀ actual, (s.outcome = .known ∧ s.actual = actual) ↔
    Confirmed snapshot call.request.model (delivered json d call attempts) actual
  outcome : s.outcome = .released ∨ s.outcome = .known ∨ s.outcome = .unknown
  /-- What is not known is not an amount. -/
  zero : s.outcome ≠ .known → s.actual = 0
  /-- The residual risk: the charge is known, and an earlier attempt may have been charged too. -/
  attemptRisk : s.attemptRisk = true ↔ s.outcome = .known ∧
    ∃ a ∈ attempts.dropLast, a.exchange.mayCharge call.request.stream = true

end Spec

section Context

variable {json : Json} {d : Dispatcher} {call : Call} {snapshot : Dynamic} {pc : PluginContext}

theorem mayCharge_eq_false {stream : Bool} {attempts : List Attempt} :
    mayCharge stream attempts = false ↔ ∀ a ∈ attempts, a.exchange.mayCharge stream = false := by
  simp [mayCharge]

theorem mayCharge_eq_true {stream : Bool} {attempts : List Attempt} :
    mayCharge stream attempts = true ↔ ∃ a ∈ attempts, a.exchange.mayCharge stream = true := by
  simp [mayCharge]

/-- The price of the provider in the context. -/
theorem charge_iff (hpriced : pc.pricingSnapshot = some snapshot)
    (hrequest : pc.request = call.request) (live : Dynamic) (usage : Option Usage) (actual : Int)
    (uncertain : Bool) :
    (uncertain = false ∧
      BillingPlugin.Charge usage (BillingPlugin.pricingFor live pc) actual) ↔
      Confirmed snapshot call.request.model (some ⟨pc.provider, usage, uncertain⟩) actual := by
  rw [BillingPlugin.pricingFor, hpriced, hrequest, Option.getD_some]
  constructor
  · rintro ⟨hu, u, pr, rfl, hp, hcost⟩
    obtain ⟨mu, hmu, rfl⟩ := Option.map_eq_some_iff.mp hp
    exact ⟨_, u, mu, rfl, rfl, hu, hmu, hcost⟩
  · rintro ⟨dl, u, mu, hdl, husage, hu, hmu, hcost⟩
    cases hdl
    exact ⟨hu, u, mu.pricing, husage, by simp [hmu], hcost⟩

/-- A request whose attempts all failed, or that never got to make one. -/
theorem classified_lost {attempts : List Attempt} (live : Dynamic)
    (hdelivered : delivered json d call attempts = none)
    (husage : BillingPlugin.usageOf pc = none)
    (hcharge : pc.chargePossible = mayCharge call.request.stream attempts) :
    Classified json d call snapshot attempts (BillingPlugin.classify live pc).2 := by
  have h := BillingPlugin.classify_decided live pc
  rw [husage] at h
  have hunknown : (BillingPlugin.classify live pc).2.outcome ≠ .known := by
    intro hk
    exact ((h.known _).mp ⟨hk, rfl⟩).2.usage_ne_none rfl
  refine ⟨?_, fun actual ↦ ?_, h.outcome, h.zero, ?_⟩
  · rw [h.released, hcharge, mayCharge_eq_false, hdelivered]
    simp
  · rw [hdelivered]
    refine ⟨fun hk ↦ absurd hk.1 hunknown, ?_⟩
    rintro ⟨dl, -, -, hdl, -⟩
    cases hdl
  · rw [h.attemptRisk]
    exact ⟨fun hk ↦ absurd hk.1 hunknown, fun hk ↦ absurd hk.1 hunknown⟩

/-- A request whose last attempt won. -/
theorem classified_won {earlier : List Attempt} {last : Attempt} {usage : Option Usage}
    (live : Dynamic) (hpriced : pc.pricingSnapshot = some snapshot)
    (hrequest : pc.request = call.request)
    (hdelivered : last.delivery json d call = some ⟨pc.provider, usage, pc.billingUncertain⟩)
    (hlast : last.exchange.mayCharge call.request.stream = true)
    (husage : BillingPlugin.usageOf pc = usage) (hcharge : pc.chargePossible = true)
    (hrisk : pc.billingAttemptRisk = mayCharge call.request.stream earlier) :
    Classified json d call snapshot (earlier ++ [last]) (BillingPlugin.classify live pc).2 := by
  have h := BillingPlugin.classify_decided live pc
  have hdelivered' : delivered json d call (earlier ++ [last]) =
      some ⟨pc.provider, usage, pc.billingUncertain⟩ := by
    rw [delivered, List.getLast?_concat, Option.bind_some, hdelivered]
  refine ⟨?_, fun actual ↦ ?_, h.outcome, h.zero, ?_⟩
  · rw [h.released, hcharge]
    simp [hlast]
  · rw [h.known, husage, hdelivered']
    exact charge_iff hpriced hrequest live usage actual pc.billingUncertain
  · rw [h.attemptRisk, hrisk, mayCharge_eq_true, List.dropLast_concat]

theorem delivered_eq_none {attempts : List Attempt}
    (h : ∀ a ∈ attempts, a.delivery json d call = none) :
    delivered json d call attempts = none := by
  rw [delivered]
  cases hlast : attempts.getLast? with
  | none => rfl
  | some a => exact h a (List.mem_of_getLast? hlast)

end Context

/-! ## The chain -/

theorem hexEncode_ne_empty (id : Vector UInt8 16) : BillingPlugin.hexEncode id ≠ "" := by
  intro h
  have hlist := congrArg String.toList h
  rw [BillingPlugin.hexEncode, String.toList_ofList] at hlist
  have hlength := congrArg List.length hlist
  simp [List.length_flatMap] at hlength

section Chain

variable {σ : Type} {p : BillingPlugin σ}

/-- The Post phase settles, or leaves it to the finalizer. -/
theorem settling_runPostPhase {snapshot : Dynamic} {t : Settlement} {s : Session σ}
    (h : BillingPlugin.Settling snapshot t s) (chain : Chain) :
    BillingPlugin.Settling snapshot t (chain.runPostPhase p s) := by
  rw [Chain.runPostPhase]
  split
  · rename_i pc hpass
    cases runOthers_pass hpass
    have hsettle := h.settle (p := p)
    split
    · rename_i heq
      rw [heq] at hsettle
      exact hsettle.1
    · rename_i s' heq
      rw [heq] at hsettle
      obtain ⟨stop, blockedBy, hafter⟩ := runOthers_snd OtherPlugin.post chain.after s'.pc
      rw [hafter]
      exact hsettle.1.mark stop blockedBy
  · rename_i v pc hv heq
    obtain ⟨stop, blockedBy, hbefore⟩ := runOthers_snd OtherPlugin.post chain.before s.pc
    rw [heq] at hbefore
    cases hbefore
    exact h.mark stop blockedBy

end Chain

/-! ## The whole request -/

section Serve

variable {σ : Type} {g : Gateway σ} {d : Dispatcher} {chain : Chain} {call : Call}
  {snapshot : Dynamic} {pc : PluginContext}

/-- A request that has been reserved and not been dispatched yet. -/
structure Reserved (call : Call) (snapshot : Dynamic) (pc : PluginContext) : Prop where
  reservation : pc.reservationID ≠ ""
  finalize : pc.billingFinalize = true
  priced : pc.pricingSnapshot = some snapshot
  request : pc.request = call.request
  response : pc.response = none
  done : pc.billingDone = false
  flags : pc = pc.flagged false false false

/-- The settlement of the request is decided, and it is what its attempts call for. -/
def Concluded (g : Gateway σ) (d : Dispatcher) (call : Call) (snapshot : Dynamic)
    (served : Served σ) : Prop :=
  ∃ t, Classified g.json d call snapshot served.attempts t ∧
    BillingPlugin.Settling snapshot t served.session

/-- A request that ends without a delivery, and without having been through Post. -/
theorem Reserved.concluded_lost (h : Reserved call snapshot pc) {served : Served σ}
    (hpc : served.session.pc = pc.flagged (mayCharge call.request.stream served.attempts)
      (mayCharge call.request.stream served.attempts) false)
    (hfinishes : served.session.finishes = [])
    (hlost : ∀ a ∈ served.attempts, a.delivery g.json d call = none) :
    Concluded g d call snapshot served := by
  rcases served with ⟨⟨pc', world, finishes⟩, d', attempts⟩
  simp only at hpc hfinishes hlost
  subst hpc hfinishes
  refine ⟨_, classified_lost snapshot (delivered_eq_none hlost) ?_ rfl,
    .init world h.reservation h.finalize h.priced h.done⟩
  simp [BillingPlugin.usageOf, PluginContext.flagged, h.response]

/-- Post settles what its context decides. -/
theorem Reserved.settling_runPost (h : Reserved call snapshot pc) (charge uncertain risk : Bool)
    {s : Session σ} (hpc : s.pc = pc.flagged charge uncertain risk) (hfinishes : s.finishes = [])
    (resp : UnifiedResponse) (dr : DispatchResult) :
    BillingPlugin.Settling snapshot
      (BillingPlugin.classify snapshot ((pc.flagged charge uncertain risk).posted resp dr)).2
      (chain.runPost g.billing s resp dr) := by
  rcases s with ⟨pc', world, finishes⟩
  simp only at hpc hfinishes
  subst hpc hfinishes
  have hinit : BillingPlugin.Settling snapshot
      (BillingPlugin.classify snapshot ((pc.flagged charge uncertain risk).posted resp dr)).2
      ⟨(pc.flagged charge uncertain risk).posted resp dr, world, []⟩ :=
    .init world h.reservation h.finalize h.priced h.done
  exact settling_runPostPhase hinit chain

/-- An attempt that won may have been charged. -/
theorem mayCharge_of_answer {α : Type} {send : Forwarder → Exchange → Except UpstreamError α}
    {stream : Bool} (hsend : Faithful stream send) {a : Attempt} {r : α}
    (h : a.answer send d = some r) : a.exchange.mayCharge stream = true := by
  obtain ⟨f, hf, hr⟩ := Option.bind_eq_some_iff.mp h
  cases hx : a.exchange.mayCharge stream with
  | true => rfl
  | false =>
    obtain ⟨e, he, -⟩ := (hsend f a.exchange).mp hx
    rw [he] at hr
    cases hr

/-- A request that ends with a delivery. -/
theorem Reserved.concluded_won (h : Reserved call snapshot pc) {earlier : List Attempt}
    {last : Attempt} {resp : UnifiedResponse} {recvError : Bool} {s : Session σ}
    {dr : DispatchResult} (hprovider : dr.provider = last.key.provider)
    (hdelivery : last.delivery g.json d call = some ⟨last.key.provider, resp.usage, recvError⟩)
    (hlast : last.exchange.mayCharge call.request.stream = true)
    (hpc : s.pc = pc.flagged true recvError (mayCharge call.request.stream earlier))
    (hfinishes : s.finishes = []) (d' : Dispatcher) :
    Concluded g d call snapshot
      ⟨chain.runPost g.billing s resp dr, d', earlier ++ [last]⟩ := by
  rw [← hprovider] at hdelivery
  refine ⟨_, ?_, h.settling_runPost _ _ _ hpc hfinishes resp dr⟩
  exact classified_won snapshot h.priced h.request hdelivery hlast rfl rfl rfl

theorem Reserved.chatCompletions (h : Reserved call snapshot pc)
    (hstream : call.request.stream = false) (world : σ) :
    Concluded g d call snapshot (chatCompletions g d chain call ⟨pc, world, []⟩) := by
  have hended := ended_dispatch d g.billing.accounting g.net (forward_faithful g.json)
    call.request.model call.sessionKey call.protocol call.request ⟨pc, world, []⟩ h.flags
  simp only [Voxeltoad.chatCompletions, Dispatcher.forward]
  generalize dispatch (Forwarder.forward g.json) d g.billing.accounting g.net call.request.model
    call.sessionKey call.protocol call.request ⟨pc, world, []⟩ = r at hended
  rcases r with ⟨session, d', attempts, outcome, dr⟩
  obtain ⟨hfinishes, hended⟩ := hended
  simp only at hended hfinishes ⊢
  have hanswer (a : Attempt) : a.delivery g.json d call =
      (a.answer (Forwarder.forward g.json) d).map fun resp ↦
        ⟨a.key.provider, resp.usage, false⟩ := by
    rw [Attempt.delivery, hstream, if_neg Bool.false_ne_true]
  generalize hpc : session.pc = pc' at hended
  rw [← hstream] at hended
  rcases hended with ⟨earlier, last, ha, hprovider⟩ | ⟨hlost⟩
  · refine h.concluded_won hprovider ?_ ?_ hpc hfinishes d'
    · rw [hanswer, ha, Option.map_some]
    · rw [hstream]
      exact mayCharge_of_answer (forward_faithful g.json) ha
  · refine ⟨_, ?_, h.settling_runPost _ _ _ (hpc.trans hlost.flags) hfinishes _ dr⟩
    refine classified_lost snapshot (delivered_eq_none fun a ha ↦ ?_) rfl rfl
    rw [hanswer, hlost.lost a ha, Option.map_none]

theorem Reserved.streamChatCompletions (h : Reserved call snapshot pc)
    (hstream : call.request.stream = true) (world : σ) :
    Concluded g d call snapshot (streamChatCompletions g d chain call ⟨pc, world, []⟩) := by
  have hended := ended_dispatch d g.billing.accounting g.net forwardStream_faithful
    call.request.model call.sessionKey call.protocol call.request ⟨pc, world, []⟩ h.flags
  simp only [Voxeltoad.streamChatCompletions, Dispatcher.forwardStream]
  split
  · exact h.concluded_lost h.flags rfl (by simp)
  generalize dispatch Forwarder.forwardStream d g.billing.accounting g.net call.request.model
    call.sessionKey call.protocol call.request ⟨pc, world, []⟩ = r at hended
  rcases r with ⟨session, d', attempts, outcome, dr⟩
  obtain ⟨hfinishes, hended⟩ := hended
  simp only at hended hfinishes ⊢
  have hanswer (a : Attempt) : a.delivery g.json d call =
      (a.answer Forwarder.forwardStream d).map fun sr ↦
        ⟨a.key.provider, sr.usage g.json call.delivers, sr.recvError g.json call.delivers⟩ := by
    rw [Attempt.delivery, hstream, if_pos rfl]
  generalize hpc : session.pc = pc' at hended
  rw [← hstream] at hended
  rcases hended with ⟨earlier, last, ha, hprovider⟩ | ⟨hlost⟩
  · simp only [relayStream, relay_start, hpc]
    refine h.concluded_won hprovider ?_ ?_ rfl ?_ d'
    · rw [hanswer, ha, Option.map_some]
      rfl
    · rw [hstream]
      exact mayCharge_of_answer forwardStream_faithful ha
    · exact hfinishes
  · refine h.concluded_lost (hpc.trans hlost.flags) hfinishes fun a ha ↦ ?_
    rw [hanswer, hlost.lost a ha, Option.map_none]

theorem Reserved.afterPre (h : Reserved call snapshot pc) (verdict : Verdict) (world : σ) :
    Concluded g d call snapshot (afterPre g d chain call verdict ⟨pc, world, []⟩) := by
  by_cases hpass : verdict = .pass
  · rw [hpass, Voxeltoad.afterPre]
    split
    · exact h.streamChatCompletions ‹_› world
    · exact h.chatCompletions (Bool.eq_false_iff.mpr ‹_›) world
  · rw [afterPre_of_ne_pass hpass]
    exact h.concluded_lost h.flags rfl (List.forall_mem_nil _)

/-- The context that Pre leaves armed is reserved. -/
theorem reserved_armed (id : Vector UInt8 16) (reserved : Int) (stop : Bool) (blockedBy : String) :
    Reserved call snapshot
      { BillingPlugin.armed (BillingPlugin.hexEncode id)
        { pricedContext d call with pricingSnapshot := some snapshot, reserved := reserved } with
          stop := stop, blockedBy := blockedBy } where
  reservation := hexEncode_ne_empty id
  finalize := rfl
  priced := rfl
  request := rfl
  response := rfl
  done := rfl
  flags := rfl

/-- The finalizer settles what was concluded. -/
theorem Concluded.finalize {served : Served σ} (h : Concluded g d call snapshot served) :
    Concluded g d call snapshot
      { served with session := Voxeltoad.finalize g served.session } ∧
    (Voxeltoad.finalize g served.session).finishes ≠ [] := by
  obtain ⟨t, hclassified, hsettling⟩ := h
  rw [Voxeltoad.finalize, if_pos hsettling.finalize]
  exact ⟨⟨t, hclassified, hsettling.settle.1⟩, hsettling.settle.2⟩

theorem concluded_serveChat (g : Gateway σ) (d : Dispatcher) (chain : Chain) (call : Call)
    (world : σ) (h : (serveChat g d chain call world).session.pc.reservationID ≠ "") :
    ∃ snapshot, Concluded g d call snapshot (serveChat g d chain call world) ∧
      (serveChat g d chain call world).session.finishes ≠ [] := by
  have hpre := runPre_cases g.billing chain (pricedContext d call) world
  simp only [serveChat] at h ⊢
  split at h
  · exact absurd rfl h
  rcases hr : chain.runPre g.billing (pricedContext d call) world with ⟨verdict, pc, world'⟩
  rw [hr] at hpre h
  rcases hpre with ⟨hverdict, hid, hfinalize⟩ | ⟨snapshot, reserved, id, stop, blockedBy, hpc⟩
  · -- Pre did not reserve, so it did not let the request pass, and there is nothing to finalize.
    have hfinalize' : pc.billingFinalize = false := hfinalize
    simp only [afterPre_of_ne_pass hverdict, Voxeltoad.finalize, hfinalize'] at h
    exact absurd hid h
  · rw [if_neg ‹_›]
    simp only at hpc
    subst hpc
    exact ⟨snapshot, ((reserved_armed id reserved stop blockedBy).afterPre verdict world').finalize⟩

/-- **How a request is settled.**  `t` is the settlement its attempts call for at its frozen prices;
the store has been asked for it, and it is what every further run of the billing step issues. -/
structure SettledAs (g : Gateway σ) (d : Dispatcher) (call : Call) (served : Served σ)
    (t : Settlement) : Prop where
  classified : ∃ snapshot, served.session.pc.pricingSnapshot = some snapshot ∧
    Classified g.json d call snapshot served.attempts t
  finished : served.session.finishes ≠ []
  issued : ∀ n, BillingPlugin.Issued g.billing t
    ((fun s ↦ (g.billing.settle s).2)^[n] served.session)

/-- **Settlement classification.**  Whatever its attempts come to and whichever way it ends, a
request for which `Reserve` succeeded is settled, with exactly one settlement. -/
theorem settlement_classification (g : Gateway σ) (d : Dispatcher) (chain : Chain) (call : Call)
    (world : σ) (h : (serveChat g d chain call world).session.pc.reservationID ≠ "") :
    ∃! t, SettledAs g d call (serveChat g d chain call world) t := by
  obtain ⟨snapshot, ⟨t, hclassified, hsettling⟩, hfinished⟩ :=
    concluded_serveChat g d chain call world h
  refine ⟨t, ⟨⟨snapshot, hsettling.priced, hclassified⟩, hfinished, fun n ↦ ?_⟩, ?_⟩
  · have hn : BillingPlugin.Settling snapshot t ((fun s ↦ (g.billing.settle s).2)^[n]
        (serveChat g d chain call world).session) := by
      induction n with
      | zero => exact hsettling
      | succ n ih =>
        rw [Function.iterate_succ_apply']
        exact ih.settle.1
    exact hn.issued
  · -- The store has been asked for one settlement at least, and only for one.
    intro t' h'
    obtain ⟨f, hf⟩ := List.exists_mem_of_ne_nil _ hfinished
    rw [← (h'.issued 0).same f hf, ← hsettling.finishes f hf]

/-- Provider `a` times out and provider `b` answers: the charge is known, at risk, and it takes the
finalizer to have it accepted. -/
theorem settlement_classification_sample :
    ((serveChat .sample (.sample .sample) ⟨[], []⟩ (.sample false) 0).session.finishes.map fun f ↦
      (f.1.outcome, f.1.actual, f.1.attemptRisk, f.2.toBool)) =
        [(.known, 4, true, false), (.known, 4, true, true)] ∧
    ∃! t, SettledAs .sample (.sample .sample) (.sample false)
      (serveChat .sample (.sample .sample) ⟨[], []⟩ (.sample false) 0) t :=
  ⟨by decide, settlement_classification _ _ _ _ _ (by decide)⟩

end Serve

end Voxeltoad
