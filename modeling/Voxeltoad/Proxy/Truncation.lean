import Voxeltoad.Proxy.Classification

/-!
# Truncated streams

A stream that was cut short should not be billed as if its charge were final.  Both protocols have
an end marker, and the SSE decoder hands it on as an event so that a clean end can be told from a
truncated one; but `Recv` turns the marker and the end of the body into the same `io.EOF`, and from
there on nothing tells them apart.  So whether a truncated stream is billed correctly depends on
what it happened to report before the cut.

`truncated_iff` says exactly when it is.  `truncated_interim_usage` is a stream for which it is not:
usage that is reported while the stream runs is taken for the final one.
-/

set_option autoImplicit false

namespace Voxeltoad

/-- The end markers of the two protocols. -/
def Event.isEnd : AdapterKind → Event → Bool
  | .openai, ev => ev.data = utf8 "[DONE]"
  | .claude, ev => ev.event = utf8 "message_stop"

/-- The events of a body that ends by plain end-of-file. -/
def eventsOf (bytes : Bytes) : List Event := (newDecoder ⟨bytes, .eof⟩).events

/-- A complete upstream stream, which ends with its end marker, and a cut of it before that. -/
structure TruncatedStream (adapter : AdapterKind) where
  complete : Bytes
  cut : Bytes
  rest : Bytes
  split : complete = cut ++ rest
  strict : rest ≠ []
  marked : ∃ init last, eventsOf complete = init ++ [last] ∧ last.isEnd adapter = true ∧
    ∀ ev ∈ init, ev.isEnd adapter = false
  unmarked : ∀ ev ∈ eventsOf cut, ev.isEnd adapter = false

section

variable {σ : Type} {g : Gateway σ} {chain : Chain} {call : Call} {snapshot : Dynamic}
  {pc : PluginContext} {adapter : AdapterKind}

/-- The settlements that are issued for a stream that is read from `bytes`. -/
def settlementsOf (g : Gateway σ) (chain : Chain) (call : Call) (s : Session σ)
    (dr : DispatchResult) (adapter : AdapterKind) (bytes : Bytes) : List Settlement :=
  (finalize g (relayStream g chain call s dr (parseStream adapter ⟨bytes, .eof⟩))).finishes.map
    Prod.fst

/-- **What should hold of a truncated stream**: if its charge is settled as known, then it is the
charge the complete stream is settled with. -/
def TruncatedStream.NotMisbilled (ts : TruncatedStream adapter) (g : Gateway σ) (chain : Chain)
    (call : Call) (s : Session σ) (dr : DispatchResult) : Prop :=
  ∀ t ∈ settlementsOf g chain call s dr adapter ts.cut,
    ∀ t' ∈ settlementsOf g chain call s dr adapter ts.complete,
      t.outcome = .known → t.actual = t'.actual

/-- What the events of a body mean to a reader that starts on it: the chunks, and how they end. -/
def chunksOf (json : Json) (adapter : AdapterKind) (bytes : Bytes) : List Chunk × ReadError :=
  (parseStream adapter ⟨bytes, .eof⟩).decode json (newDecoder ⟨bytes, .eof⟩).ending (eventsOf bytes)

/-- The events of a body confirm a charge: no event before the client is gone fails to decode, and
the last usage that is reported until then costs `actual` at the provider's frozen price. -/
def Confirms (json : Json) (call : Call) (snapshot : Dynamic) (provider : String)
    (adapter : AdapterKind) (bytes : Bytes) (actual : Int) : Prop :=
  ∃ u mu, lastUsage (taken call.delivers [] (chunksOf json adapter bytes).1) = some u ∧
    ((chunksOf json adapter bytes).2 = .failed →
      drained call.delivers [] (chunksOf json adapter bytes).1 = false) ∧
    snapshot.resolveModel call.request.model provider = some mu ∧
    checkedCost (some u) mu.pricing = .ok actual

/-- What the reader delivers is what the events say. -/
theorem confirmed_iff_confirms (json : Json) (call : Call) (snapshot : Dynamic) (provider : String)
    (adapter : AdapterKind) (bytes : Bytes) (actual : Int) :
    Confirmed snapshot call.request.model
      (some ⟨provider, (parseStream adapter ⟨bytes, .eof⟩).usage json call.delivers,
        (parseStream adapter ⟨bytes, .eof⟩).recvError json call.delivers⟩) actual ↔
      Confirms json call snapshot provider adapter bytes actual := by
  have hchunks : (parseStream adapter ⟨bytes, .eof⟩).chunks json = chunksOf json adapter bytes :=
    StreamReader.chunks_eq_decode _
  have hrecvError : (parseStream adapter ⟨bytes, .eof⟩).recvError json call.delivers = false ↔
      ((chunksOf json adapter bytes).2 = .failed →
        drained call.delivers [] (chunksOf json adapter bytes).1 = false) := by
    rw [StreamReader.recvError, hchunks]
    simp
  rw [Confirmed, Confirms, ← hrecvError, ← hchunks]
  constructor
  · rintro ⟨dl, u, mu, hdl, husage, hrecv, hmu, hcost⟩
    cases hdl
    exact ⟨u, mu, husage, hrecv, hmu, hcost⟩
  · rintro ⟨u, mu, husage, hrecv, hmu, hcost⟩
    exact ⟨_, u, mu, rfl, husage, hrecv, hmu, hcost⟩

/-- What is settled for a stream is one settlement, and it is known exactly if the stream confirms
the charge. -/
theorem settlementsOf_stream (g : Gateway σ) (chain : Chain) (h : Reserved call snapshot pc)
    (risk : Bool) (world : σ) (dr : DispatchResult) (adapter : AdapterKind) (bytes : Bytes) :
    ∃ t, (∀ t', t' ∈ settlementsOf g chain call ⟨pc.flagged true false risk, world, []⟩ dr adapter
        bytes ↔ t' = t) ∧
      (∀ actual, t.outcome = .known ∧ t.actual = actual ↔
        Confirms g.json call snapshot dr.provider adapter bytes actual) ∧
      (t.outcome ≠ .known → t.actual = 0) := by
  let sr := parseStream adapter ⟨bytes, .eof⟩
  let pc' := (pc.flagged true (sr.recvError g.json call.delivers) risk).posted
    ⟨call.request.model, sr.usage g.json call.delivers⟩ dr
  have hdecided := BillingPlugin.classify_decided snapshot pc'
  have hsettling : BillingPlugin.Settling snapshot (BillingPlugin.classify snapshot pc').2
      (relayStream g chain call ⟨pc.flagged true false risk, world, []⟩ dr sr) := by
    rw [relayStream, relay_start]
    exact h.settling_runPost true (sr.recvError g.json call.delivers) risk rfl rfl _ dr
  refine ⟨(BillingPlugin.classify snapshot pc').2, fun t' ↦ ?_, fun actual ↦ ?_, hdecided.zero⟩
  · rw [settlementsOf, finalize, if_pos hsettling.finalize]
    obtain ⟨hagain, hne⟩ := hsettling.settle (p := g.billing)
    refine ⟨fun ht ↦ ?_, ?_⟩
    · obtain ⟨f, hf, rfl⟩ := List.mem_map.mp ht
      exact hagain.finishes f hf
    · rintro rfl
      obtain ⟨f, hf⟩ := List.exists_mem_of_ne_nil _ hne
      exact List.mem_map.mpr ⟨f, hf, hagain.finishes f hf⟩
  · have hpriced : pc'.pricingSnapshot = some snapshot := h.priced
    have hrequest : pc'.request = call.request := h.request
    rw [hdecided.known actual, ← confirmed_iff_confirms]
    exact charge_iff hpriced hrequest snapshot _ actual _

/-- **Truncated streams.**  A truncated stream is billed correctly exactly if what was relayed of it
confirms no charge, or the charge that the complete stream comes to (which is zero when that
confirms none either). -/
theorem truncated_iff (g : Gateway σ) (chain : Chain) (h : Reserved call snapshot pc) (risk : Bool)
    (world : σ) (dr : DispatchResult) (ts : TruncatedStream adapter) :
    ts.NotMisbilled g chain call ⟨pc.flagged true false risk, world, []⟩ dr ↔
      ∀ actual, Confirms g.json call snapshot dr.provider adapter ts.cut actual →
        Confirms g.json call snapshot dr.provider adapter ts.complete actual ∨
          (actual = 0 ∧
            ∀ a, ¬ Confirms g.json call snapshot dr.provider adapter ts.complete a) := by
  obtain ⟨t, ht, hknown, -⟩ := settlementsOf_stream g chain h risk world dr adapter ts.cut
  obtain ⟨t', ht', hknown', hzero'⟩ :=
    settlementsOf_stream g chain h risk world dr adapter ts.complete
  have hiff : ts.NotMisbilled g chain call ⟨pc.flagged true false risk, world, []⟩ dr ↔
      (t.outcome = .known → t.actual = t'.actual) := by
    simp only [TruncatedStream.NotMisbilled, ht, ht', forall_eq]
  rw [hiff]
  constructor
  · intro hsame actual hcut
    obtain ⟨hk, rfl⟩ := (hknown actual).mpr hcut
    by_cases hk' : t'.outcome = .known
    · left
      exact (hknown' _).mp ⟨hk', (hsame hk).symm⟩
    · right
      exact ⟨(hsame hk).trans (hzero' hk'), fun a ha ↦ hk' ((hknown' a).mpr ha).1⟩
  · intro hcond hk
    rcases hcond _ ((hknown _).mp ⟨hk, rfl⟩) with hcomplete | ⟨hzero, hnone⟩
    · exact ((hknown' _).mpr hcomplete).2.symm
    · rw [hzero, hzero']
      exact fun hk' ↦ hnone _ ((hknown' _).mp ⟨hk', rfl⟩)

end

/-! ## A stream with interim usage -/

/-- An event with a payload and nothing else. -/
def frame (payload : Bytes) : Bytes := utf8 "data: " ++ payload ++ [10, 10]

/-- A stream that reports usage as it goes, cut after the bytes `cut` of it. -/
def TruncatedStream.sample (cut rest : Bytes)
    (hsplit : frame payloadOne ++ frame payloadTwo ++ frame (utf8 "[DONE]") = cut ++ rest)
    (hrest : rest ≠ []) (hcut : ∀ ev ∈ eventsOf cut, ev.isEnd .openai = false) :
    TruncatedStream .openai where
  complete := frame payloadOne ++ frame payloadTwo ++ frame (utf8 "[DONE]")
  cut := cut
  rest := rest
  split := hsplit
  strict := hrest
  marked := ⟨[⟨[], [], payloadOne⟩, ⟨[], [], payloadTwo⟩], ⟨[], [], utf8 "[DONE]"⟩,
    by decide +kernel, by decide +kernel, by decide +kernel⟩
  unmarked := hcut

/-- The context of a streaming call that has been reserved at the prices of the sample. -/
def PluginContext.sample : PluginContext :=
  BillingPlugin.armed "x" { newPluginContext (.sample true) with pricingSnapshot := some .sample }

theorem PluginContext.sample_reserved : Reserved (.sample true) .sample .sample :=
  ⟨by decide, rfl, rfl, rfl, rfl, rfl, rfl⟩

/-- The stream is cut after its first chunk, which reports a million tokens of two: it is settled as
known, and for half of what it costs. -/
theorem truncated_interim_usage :
    ¬ (TruncatedStream.sample (frame payloadOne) (frame payloadTwo ++ frame (utf8 "[DONE]"))
        (by decide +kernel) (by decide +kernel) (by decide +kernel)).NotMisbilled
      .sample ⟨[], []⟩ (.sample true) ⟨PluginContext.sample.flagged true false false, 0, []⟩
      ⟨"b", "openai", "u", false, 0⟩ := by
  rw [TruncatedStream.NotMisbilled]
  decide +kernel

/-- Cut before anything was reported, it is left unknown. -/
theorem truncated_iff_sample :
    (TruncatedStream.sample [] (frame payloadOne ++ frame payloadTwo ++ frame (utf8 "[DONE]"))
        rfl (by decide +kernel) (by decide +kernel)).NotMisbilled
      .sample ⟨[], []⟩ (.sample true) ⟨PluginContext.sample.flagged true false false, 0, []⟩
      ⟨"b", "openai", "u", false, 0⟩ := by
  refine (truncated_iff _ _ PluginContext.sample_reserved _ _ _ _).mpr ?_
  rintro actual ⟨u, mu, husage, -⟩
  have hnone : lastUsage (taken (Call.sample true).delivers [] (chunksOf .sample .openai []).1) =
    none := by decide +kernel
  exact absurd (hnone.symm.trans husage) (by simp)

end Voxeltoad
