import Voxeltoad.Proxy.Classification

/-!
# What a request does to what is outside

Once Pre has reserved, a request does three things only to what is outside of it: it has its
reservation marked as dispatched, it asks an upstream, and it has its settlement finished.  So what
these three keep is kept by the whole request, whichever way it goes: `Course.serveChat` is the
rule.

An invariant may speak of the settlements the request has issued so far, next to the world.
-/

set_option autoImplicit false

namespace Voxeltoad

/-- **The steps of a request** that holds the reservation `id`, and an invariant they keep. -/
structure Course {σ : Type} (g : Gateway σ) (id : String)
    (I : List (Settlement × Except StoreError Unit) → σ → Prop) : Prop where
  exchange : ∀ {fs world}, I fs world → ∀ key req, I fs (g.net.exchange key req world).2
  mark : ∀ {fs world}, I fs world → I fs (g.billing.accounting.markDispatched id world).2
  finish : ∀ {fs world}, I fs world → ∀ live {pc : PluginContext}, pc.reservationID = id →
    let t := (BillingPlugin.classify live pc).2
    let r := g.billing.accounting.finish t world
    I (fs ++ [(t, r.1)]) r.2

section Course

variable {σ : Type} {g : Gateway σ} {d : Dispatcher} {chain : Chain} {call : Call} {id : String}
  {I : List (Settlement × Except StoreError Unit) → σ → Prop}
  {fs : List (Settlement × Except StoreError Unit)} {pc : PluginContext} {world world' : σ}

/-- A request on its way: it holds `id`, its hook marks `id`, and the invariant holds. -/
structure OnCourse (id : String) (I : List (Settlement × Except StoreError Unit) → σ → Prop)
    (pc : PluginContext) (fs : List (Settlement × Except StoreError Unit)) (world : σ) : Prop where
  reservation : pc.reservationID = id
  hook : pc.beforeUpstream = some id
  kept : I fs world

/-! ## The failover loop -/

/-- An attempt that the hook refuses. -/
theorem OnCourse.refused (h : OnCourse id I pc fs world) (hc : Course g id I) {e : StoreError}
    (hb : beforeAccountedUpstream g.billing.accounting pc world = (.error e, world')) :
    OnCourse id I pc fs world' := by
  have hmark := hc.mark h.kept
  simp only [beforeAccountedUpstream, h.hook] at hb
  rw [hb] at hmark
  exact ⟨h.reservation, h.hook, hmark⟩

/-- An attempt that is made. -/
theorem OnCourse.attempt (h : OnCourse id I pc fs world) (hc : Course g id I)
    (hb : beforeAccountedUpstream g.billing.accounting pc world = (.ok (), world'))
    (key : EndpointKey) (preq : UnifiedRequest) {α : Type} (result : Except UpstreamError α) :
    OnCourse id I (accountUpstreamResult result pc) fs (g.net.exchange key preq world').2 := by
  have hmark := hc.mark h.kept
  simp only [beforeAccountedUpstream, h.hook] at hb
  rw [hb] at hmark
  obtain ⟨charge, uncertain, risk, hpc⟩ := accountUpstreamResult_eq result pc
  rw [hpc]
  exact ⟨h.reservation, h.hook, hc.exchange hmark key preq⟩

theorem OnCourse.candidate {α : Type} {send : Forwarder → Exchange → Except UpstreamError α}
    {req : UnifiedRequest} {i : Nat} {key : EndpointKey} {t t' : Trying σ}
    {r : Option (Except DispatchError α × DispatchResult)} (h : OnCourse id I t.pc fs t.world)
    (hc : Course g id I)
    (hstep : CandidateStep send d g.billing.accounting g.net req i key t t' r) :
    OnCourse id I t'.pc fs t'.world := by
  cases hstep with
  | noForwarder hf => exact h
  | notPrepared hf hp => exact h
  | refused hf hp hb => exact h.refused hc hb
  | @won f preq world world' x a hf hp hb hx ha =>
    have hattempt := h.attempt hc hb key preq (send f x)
    rw [hx] at hattempt
    exact hattempt
  | @retried f preq world world' x e hf hp hb hx he hr =>
    have hattempt := h.attempt hc hb key preq (send f x)
    rw [hx] at hattempt
    exact hattempt
  | @failed f preq world world' x e hf hp hb hx he hr =>
    have hattempt := h.attempt hc hb key preq (send f x)
    rw [hx] at hattempt
    exact hattempt

/-- The same, of a session. -/
def Session.OnCourse (id : String) (I : List (Settlement × Except StoreError Unit) → σ → Prop)
    (s : Session σ) : Prop :=
  Voxeltoad.OnCourse id I s.pc s.finishes s.world

variable {s : Session σ}

theorem Session.OnCourse.dispatch {α : Type} (send : Forwarder → Exchange → Except UpstreamError α)
    (h : s.OnCourse id I) (hc : Course g id I) (modelAlias sessionKey protocol : String)
    (req : UnifiedRequest) :
    (Voxeltoad.dispatch send d g.billing.accounting g.net modelAlias sessionKey protocol req
      s).session.OnCourse id I := by
  rw [Voxeltoad.dispatch]
  split
  · exact h
  · exact tryCandidates_rec send d g.billing.accounting g.net
      (fun _ t ↦ Voxeltoad.OnCourse id I t.pc s.finishes t.world)
      (fun t _ ↦ Voxeltoad.OnCourse id I t.pc s.finishes t.world)
      (fun _ _ _ _ _ h hstep ↦ h.candidate hc hstep)
      (fun _ _ _ _ _ _ h hstep ↦ h.candidate hc hstep) (fun _ h ↦ h) h

/-! ## Settling -/

theorem Session.OnCourse.settle (h : s.OnCourse id I) (hc : Course g id I) :
    (g.billing.settle s).2.OnCourse id I := by
  rw [BillingPlugin.settle]
  split
  · exact h
  have hfinish := hc.finish h.kept (g.billing.dyn s.world) h.reservation
  obtain ⟨uncertain, hfst⟩ := BillingPlugin.classify_fst (g.billing.dyn s.world) s.pc
  rcases hcl : BillingPlugin.classify (g.billing.dyn s.world) s.pc with ⟨pc, t⟩
  rw [hcl] at hfst hfinish
  simp only at hfst hfinish ⊢
  subst hfst
  split
  · exact ⟨h.reservation, h.hook, h.kept⟩
  split
  · rename_i heq
    rw [heq] at hfinish
    exact ⟨h.reservation, h.hook, hfinish⟩
  · rename_i heq
    rw [heq] at hfinish
    exact ⟨h.reservation, h.hook, hfinish⟩

theorem Session.OnCourse.runPost (h : s.OnCourse id I) (hc : Course g id I) (resp : UnifiedResponse)
    (dr : DispatchResult) : (chain.runPost g.billing s resp dr).OnCourse id I := by
  have hposted : ({ s with pc := s.pc.posted resp dr } : Session σ).OnCourse id I :=
    ⟨h.reservation, h.hook, h.kept⟩
  rw [Chain.runPost, Chain.runPostPhase]
  split
  · rename_i pc hpass
    cases runOthers_pass hpass
    have hsettle := hposted.settle hc
    split
    · rename_i heq
      rw [heq] at hsettle
      exact hsettle
    · rename_i s' heq
      rw [heq] at hsettle
      obtain ⟨stop, blockedBy, hafter⟩ := runOthers_snd OtherPlugin.post chain.after s'.pc
      rw [hafter]
      exact ⟨hsettle.reservation, hsettle.hook, hsettle.kept⟩
  · rename_i v pc hv heq
    obtain ⟨stop, blockedBy, hbefore⟩ :=
      runOthers_snd OtherPlugin.post chain.before (s.pc.posted resp dr)
    rw [heq] at hbefore
    cases hbefore
    exact ⟨hposted.reservation, hposted.hook, hposted.kept⟩

/-! ## The whole request -/

theorem Session.OnCourse.chatCompletions (h : s.OnCourse id I) (hc : Course g id I) :
    (Voxeltoad.chatCompletions g d chain call s).session.OnCourse id I := by
  have hr :=
    h.dispatch (d := d) (Forwarder.forward g.json) hc call.request.model
    call.sessionKey call.protocol call.request
  simp only [Voxeltoad.chatCompletions, Dispatcher.forward]
  split
  · exact hr.runPost hc _ _
  · exact hr.runPost hc _ _

theorem Session.OnCourse.relayStream (h : s.OnCourse id I) (hc : Course g id I)
    (dr : DispatchResult) (sr : StreamReader) :
    (Voxeltoad.relayStream g chain call s dr sr).OnCourse id I := by
  simp only [Voxeltoad.relayStream, relay_start]
  refine Session.OnCourse.runPost ?_ hc _ _
  exact ⟨h.reservation, h.hook, h.kept⟩

theorem Session.OnCourse.streamChatCompletions (h : s.OnCourse id I) (hc : Course g id I) :
    (Voxeltoad.streamChatCompletions g d chain call s).session.OnCourse id I := by
  have hr :=
    h.dispatch (d := d) Forwarder.forwardStream hc call.request.model call.sessionKey call.protocol
    call.request
  simp only [Voxeltoad.streamChatCompletions, Dispatcher.forwardStream]
  split
  · exact h
  split
  · exact hr
  · exact hr.relayStream hc _ _

theorem Session.OnCourse.afterPre (h : s.OnCourse id I) (hc : Course g id I) (verdict : Verdict) :
    (Voxeltoad.afterPre g d chain call verdict s).session.OnCourse id I := by
  by_cases hpass : verdict = .pass
  · rw [hpass, Voxeltoad.afterPre]
    split
    · exact h.streamChatCompletions hc
    · exact h.chatCompletions hc
  · rw [afterPre_of_ne_pass hpass]
    exact h

theorem Session.OnCourse.finalize (h : s.OnCourse id I) (hc : Course g id I) :
    (Voxeltoad.finalize g s).OnCourse id I := by
  rw [Voxeltoad.finalize]
  split
  · exact h.settle hc
  · exact h

end Course

/-! ## Pre -/

section Pre

variable {σ : Type} (p : BillingPlugin σ)

/-- The store has just made the reservation that the context is armed with. -/
structure JustReserved (world : σ) (r : PluginContext × σ) (req : ReservationRequest) : Prop where
  reserved : p.accounting.reserve req (p.randRead world).2 = (.ok (), r.2)
  reservation : r.1.reservationID = req.id
  hook : r.1.beforeUpstream = some req.id

variable {p} in
theorem JustReserved.of_reserve {world world' world'' : σ} {req : ReservationRequest}
    (hrand : (p.randRead world).2 = world')
    (h : p.accounting.reserve req world' = (.ok (), world''))
    (c : PluginContext) : JustReserved p world (BillingPlugin.armed req.id c, world'') req :=
  ⟨hrand ▸ h, rfl, rfl⟩

theorem reserve_armed (pc : PluginContext) (world : σ) :
    ((p.reserve pc world).1.stop = true ∧ (p.reserve pc world).1.reservationID = pc.reservationID ∧
      (p.reserve pc world).1.billingFinalize = pc.billingFinalize) ∨
    ∃ req, JustReserved p world (p.reserve pc world) req := by
  simp only [BillingPlugin.reserve, BillingPlugin.reserveAccounted]
  split
  · exact .inl ⟨rfl, rfl, rfl⟩
  split
  · exact .inl ⟨rfl, rfl, rfl⟩
  split
  · exact .inl ⟨rfl, rfl, rfl⟩
  split
  · exact .inl ⟨rfl, rfl, rfl⟩
  split
  · exact .inl ⟨rfl, rfl, rfl⟩
  rename_i id world' hrand
  split
  · exact .inl ⟨rfl, rfl, rfl⟩
  · rename_i heq
    have h := JustReserved.of_reserve (congrArg Prod.snd hrand) heq
    exact .inr ⟨_, h _⟩

/-- Pre does not let a request pass that it has not reserved for. -/
theorem runPre_armed (chain : Chain) (pc : PluginContext) (world : σ) :
    let r := chain.runPre p pc world
    (r.1 ≠ .pass ∧ r.2.1.reservationID = pc.reservationID ∧
      r.2.1.billingFinalize = pc.billingFinalize) ∨
    ∃ req, JustReserved p world r.2 req := by
  rw [Chain.runPre]
  obtain ⟨stop, blockedBy, hbefore⟩ := runOthers_snd OtherPlugin.pre chain.before pc
  split
  · rename_i pc' hpass
    cases runOthers_pass hpass
    have hreserve := reserve_armed p pc world
    rcases hr : p.reserve pc world with ⟨pc₁, world₁⟩
    rw [hr] at hreserve
    simp only at hreserve ⊢
    rcases hreserve with ⟨hstop, hid, hfinalize⟩ | ⟨req, h⟩
    · rw [if_pos hstop]
      exact .inl ⟨by simp, hid, hfinalize⟩
    · refine .inr ⟨req, ?_⟩
      split
      · exact h
      · obtain ⟨stop, blockedBy, hafter⟩ := runOthers_snd OtherPlugin.pre chain.after pc₁
        rw [hafter]
        exact ⟨h.reserved, h.reservation, h.hook⟩
  · rename_i v pc' hv heq
    rw [heq] at hbefore
    cases hbefore
    exact .inl ⟨hv, rfl, rfl⟩

end Pre

/-- **The rule for a request**: an invariant that `Reserve` establishes and the steps of the request
keep. -/
theorem Course.serveChat {σ : Type} {g : Gateway σ} {world : σ}
    {I : String → List (Settlement × Except StoreError Unit) → σ → Prop}
    (hc : ∀ id, Course g id (I id)) (hreserve : ∀ req world',
    g.billing.accounting.reserve req (g.billing.randRead world).2 = (.ok (), world') →
      I req.id [] world')
    (d : Dispatcher) (chain : Chain) (call : Call) :
    let s := (Voxeltoad.serveChat g d chain call world).session
    s.pc.reservationID ≠ "" → I s.pc.reservationID s.finishes s.world := by
  have hpre := runPre_armed g.billing chain (pricedContext d call) world
  simp only [Voxeltoad.serveChat]
  split
  · exact fun h ↦ absurd rfl h
  rcases hr : chain.runPre g.billing (pricedContext d call) world with ⟨verdict, pc, world'⟩
  rw [hr] at hpre
  rcases hpre with ⟨hverdict, hid, hfinalize⟩ | ⟨req, h⟩
  · -- Pre did not reserve, so it did not let the request pass.
    have hfinalize' : pc.billingFinalize = false := hfinalize
    simp only [afterPre_of_ne_pass hverdict, Voxeltoad.finalize, hfinalize']
    exact fun h ↦ absurd hid h
  · have hon : (⟨pc, world', []⟩ : Session σ).OnCourse req.id (I req.id) :=
      ⟨h.reservation, h.hook, hreserve req world' h.reserved⟩
    have hafter :
        (Voxeltoad.afterPre g d chain call verdict ⟨pc, world', []⟩).session.OnCourse req.id
        (I req.id) :=
      hon.afterPre (hc _) verdict
    have hserved := hafter.finalize (hc _)
    intro _
    have hid := hserved.reservation
    simp only at hid ⊢
    rw [hid]
    exact hserved.kept

end Voxeltoad
