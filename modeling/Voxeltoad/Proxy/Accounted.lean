import Voxeltoad.Billing.Settle
import Voxeltoad.Proxy.Request
import Voxeltoad.Store.Lifecycle

/-!
# Requests on a shared store

The guard on an upstream call is a callback, `MarkDispatched`, that runs inside the failover loop
against a row that other processes change between the attempts.  Here a request and the accounting
store are put together: a world is a state of the store, what the other processes are going to do
whenever this request waits for the store or the network, and a log of everything in order.

`MarkDispatched` is two statements, an `UPDATE` and, when that finds nothing, a `SELECT`; others may
commit in between.  What other processes do is any sequence of transactions at all: sweeps, operator
resolutions and settlements of this very reservation among them.
-/

set_option autoImplicit false

namespace Voxeltoad

/-! ## The world -/

/-- Something that happens, with the database it happens in. -/
inductive Moment where
  /-- A transaction committed. -/
  | committed (db : Db)
  /-- The request begins an attempt: it calls `MarkDispatched`. -/
  | attempt (db : Db)
  /-- A statement of `MarkDispatched` found the reservation in `db`, and the call succeeds. -/
  | marked (db : Db)
  /-- The request is sent to an upstream. -/
  | called (key : EndpointKey) (db : Db)

def Moment.db : Moment → Db
  | .committed db => db
  | .attempt db => db
  | .marked db => db
  | .called _ db => db

/-- What happens while the request waits for a statement or for the network: the transactions of
other processes, the clock the request reads then, and whether its own statement gets through. -/
structure Turn where
  ops : List Op
  now : Time
  fails : Bool

/-- A store that is shared with other processes. -/
structure Shared where
  st : State
  turns : List Turn
  log : List Moment

namespace Shared

variable (zones : Zones)

/-- A transaction commits. -/
def commit (w : Shared) (op : Op) : Shared :=
  { w with st := step zones w.st op, log := w.log ++ [.committed (step zones w.st op).db] }

def note (w : Shared) (m : Moment) : Shared := { w with log := w.log ++ [m] }

/-- The other processes have their turn. -/
def wait (w : Shared) : Turn × Shared :=
  match w.turns with
  | [] => (⟨[], 0, false⟩, w)
  | t :: ts => (t, { t.ops.foldl (commit zones) w with turns := ts })

/-- **`MarkDispatched`**, statement by statement. -/
def markDispatched (id : String) (w : Shared) : Except StoreError Unit × Shared :=
  let (t, w) := wait zones (w.note (.attempt w.st.db))
  if t.fails then (.error .unavailable, w)
  else if markDispatchedHits id w.st.db then
    (.ok (), (w.note (.marked w.st.db)).commit zones (.markDispatched t.now id))
  else
    let (t, w) := wait zones w
    if t.fails then (.error .unavailable, w)
    else match markDispatchedSelect id w.st.db with
      | .error e => (.error (.accounting e), w)
      | .ok () => (.ok (), w.note (.marked w.st.db))

/-- A transaction of the request itself. -/
def transact (op : Time → Op) (w : Shared) : Except StoreError Unit × Shared :=
  let (t, w) := wait zones w
  if t.fails then (.error .unavailable, w)
  else match (op t.now).tx zones w.st.db with
    | .error e => (.error (.accounting e), w)
    | .ok _ => (.ok (), w.commit zones (op t.now))

/-- `Finish` is two transactions, unless the outcome is unknown. -/
def finish (s : Settlement) (w : Shared) : Except StoreError Unit × Shared :=
  match transact zones (fun now ↦ .finishFirst now s) w with
  | (.error e, w) => (.error e, w)
  | (.ok (), w) =>
    if s.outcome = .unknown then (.ok (), w)
    else transact zones (fun now ↦ .applyPending now s.reservationID) w

/-- `AccountingRepo`, as the data plane sees it. -/
def store : AccountingStore Shared where
  reserve req := transact zones fun now ↦ .reserve now req
  markDispatched := markDispatched zones
  finish := finish zones

end Shared

/-- What else surrounds a gateway: its configuration, the random source, the network and the clock.
What they come to may depend on everything that has happened. -/
structure Surroundings where
  dyn : Shared → Dynamic
  maxTokensCeiling : Int
  rand : Shared → Option (Vector UInt8 16)
  marshal : String → Model → String
  answer : Shared → EndpointKey → UnifiedRequest → Exchange
  clock : Shared → Time
  json : Json

/-- The network of `Gateway.sample`: provider `a` times out. -/
def Surroundings.sample : Surroundings where
  dyn _ := .sample
  maxTokensCeiling := 4096
  rand _ := some (.replicate 16 0)
  marshal _ _ := ""
  answer _ key _ :=
    if key.provider = "a" then .transportFailed true else .answered 200 ⟨payloadOne, .eof⟩
  clock _ := 0
  json := .sample

/-- A gateway on a shared store.  Others go on both before a call is sent and while it is being
answered. -/
def Surroundings.gateway (env : Surroundings) (zones : Zones) : Gateway Shared where
  billing :=
    { dyn := env.dyn
      accounting := Shared.store zones
      maxTokensCeiling := env.maxTokensCeiling
      randRead := fun w ↦ (env.rand w, w)
      marshal := env.marshal }
  net :=
    { exchange := fun key req w ↦
        let w := (w.wait zones).2
        let w := ((w.note (.called key w.st.db)).wait zones).2
        (env.answer w key req, w)
      now := env.clock }
  json := env.json

/-! ## A reservation that is no longer live -/

/-- The reservation has become unknown, released at risk, settled or released, or has a result. -/
def Db.Ended (id : String) (db : Db) : Prop := ∃ row, db.reservation id = some row ∧ ¬ row.Live

/-- No move of a reservation makes it live again. -/
theorem not_live_step {id : String} {v v' : View} (hstep : View.Step id v v')
    {r : ReservationRow} (hrow : v.row = some r) (hlive : ¬ r.Live) :
    ∃ r', v'.row = some r' ∧ ¬ r'.Live := by
  cases hstep with
  | stay => exact ⟨r, hrow, hlive⟩
  | reserve _ _ _ _ hnew => simp [hrow] at hnew
  | dispatch now r' hrow' hstatus hresult =>
    rw [hrow, Option.some.injEq] at hrow'
    subst hrow'
    exact absurd ⟨.inl hstatus, hresult⟩ hlive
  | record now s r' hrow' => exact ⟨_, rfl, by simp [ReservationRow.Live]⟩
  | unknown now reason r' hrow' hlive' =>
    rw [hrow, Option.some.injEq] at hrow'
    subst hrow'
    exact absurd hlive' hlive
  | settle now s status r' hrow' hdue =>
    refine ⟨_, rfl, ?_⟩
    rw [closeReservation]
    split
    · rename_i hstatus
      simp [ReservationRow.Live, hstatus]
    · simp [ReservationRow.Live]

theorem ended_step {zones : Zones} {id : String} {st : State} (hwf : st.db.WF) (op : Op)
    (h : st.db.Ended id) : (step zones st op).db.Ended id := by
  obtain ⟨r, hrow, hlive⟩ := h
  exact not_live_step (view_step zones id op hwf) hrow hlive

/-! ## The log -/

/-- The request has just been told by `MarkDispatched` that the reservation is live: since it began
this attempt there have been only commits. -/
def Marked (id : String) (log : List Moment) : Prop :=
  ∃ before begun waiting found since,
    log = before ++ .attempt begun :: waiting ++ .marked found :: since ∧
    (∀ m ∈ waiting, ∃ db, m = .committed db) ∧ (∀ m ∈ since, ∃ db, m = .committed db) ∧
    ∃ row, found.reservation id = some row ∧ row.Live

/-- **The invariant of the log.** -/
structure Shared.Ordered (id : String) (w : Shared) : Prop where
  wf : w.st.db.WF
  /-- Once it has ended, a reservation stays ended. -/
  ended : w.log.Pairwise fun m m' ↦ m.db.Ended id → m'.db.Ended id
  now : ∀ m ∈ w.log, m.db.Ended id → w.st.db.Ended id
  /-- Every call is made right after the reservation was found live. -/
  calls : ∀ before key db after, w.log = before ++ .called key db :: after → Marked id before

/-- Nothing of the request's own happens from `w` to `w'`. -/
def Shared.Quiet (w w' : Shared) : Prop :=
  ∃ since, w'.log = w.log ++ since ∧ ∀ m ∈ since, ∃ db, m = .committed db

section Log

variable (zones : Zones) {id : String} {w w' : Shared}

theorem Shared.Quiet.refl (w : Shared) : w.Quiet w := ⟨[], by simp, by simp⟩

theorem Shared.quiet_commit (w : Shared) (op : Op) : w.Quiet (w.commit zones op) :=
  ⟨[_], rfl, by simp⟩

theorem Shared.Quiet.trans {w'' : Shared} (h : w.Quiet w') (h' : w'.Quiet w'') : w.Quiet w'' := by
  obtain ⟨since, hlog, hsince⟩ := h
  obtain ⟨since', hlog', hsince'⟩ := h'
  exact ⟨since ++ since', by rw [hlog', hlog, List.append_assoc],
    List.forall_mem_append.mpr ⟨hsince, hsince'⟩⟩

theorem Marked.quiet (h : Marked id w.log) (hquiet : w.Quiet w') : Marked id w'.log := by
  obtain ⟨before, begun, waiting, found, since, hlog, hwaiting, hsince, hlive⟩ := h
  obtain ⟨since', hlog', hsince'⟩ := hquiet
  refine ⟨before, begun, waiting, found, since ++ since', ?_, hwaiting,
    List.forall_mem_append.mpr ⟨hsince, hsince'⟩, hlive⟩
  rw [hlog', hlog, List.append_assoc, List.cons_append]

/-- An attempt that has waited and then found the reservation live. -/
theorem marked_note {db : Db} (hquiet : (w.note (.attempt db)).Quiet w') {row : ReservationRow}
    (hrow : w'.st.db.reservation id = some row) (hlive : row.Live) :
    Marked id (w'.note (.marked w'.st.db)).log := by
  obtain ⟨since, hlog, hsince⟩ := hquiet
  refine ⟨w.log, db, since, w'.st.db, [], ?_, hsince, by simp, row, hrow, hlive⟩
  rw [Shared.note, hlog, Shared.note, List.append_assoc w.log, List.singleton_append]

/-- Something happens. -/
theorem Shared.Ordered.push (h : w.Ordered id) {st : State} {m : Moment} (hwf : st.db.WF)
    (hended : w.st.db.Ended id → st.db.Ended id) (hdb : m.db = st.db)
    (hcall : ∀ key db, m = .called key db → Marked id w.log) :
    Shared.Ordered id { w with st := st, log := w.log ++ [m] } where
  wf := hwf
  ended := by
    refine List.pairwise_append.mpr ⟨h.ended, List.pairwise_singleton _ _, ?_⟩
    intro m' hm' x hx hm
    rw [List.mem_singleton.mp hx, hdb]
    exact hended (h.now m' hm' hm)
  now := by
    refine List.forall_mem_append.mpr ⟨fun m' hm' hm ↦ hended (h.now m' hm' hm), ?_⟩
    rw [List.forall_mem_singleton, hdb]
    exact fun he ↦ he
  calls := by
    intro before key db after hlog
    rcases List.eq_nil_or_concat after with rfl | ⟨after', x, rfl⟩
    · obtain ⟨hbefore, hm⟩ := List.append_inj' hlog rfl
      rw [← hbefore]
      exact hcall key db (List.singleton_inj.mp hm)
    · rw [List.concat_eq_append, ← List.cons_append, ← List.append_assoc] at hlog
      exact h.calls before key db after' (List.append_inj' hlog rfl).1

theorem Shared.Ordered.note (h : w.Ordered id) {m : Moment} (hdb : m.db = w.st.db)
    (hcall : ∀ key db, m = .called key db → Marked id w.log) : (w.note m).Ordered id :=
  h.push h.wf (fun he ↦ he) hdb hcall

theorem Shared.Ordered.commit (h : w.Ordered id) (op : Op) : (w.commit zones op).Ordered id :=
  h.push (wf_step op h.wf) (ended_step h.wf op) rfl (by simp)

theorem Shared.Ordered.foldl_commit (h : w.Ordered id) (ops : List Op) :
    (ops.foldl (Shared.commit zones) w).Ordered id ∧
      w.Quiet (ops.foldl (Shared.commit zones) w) := by
  induction ops generalizing w with
  | nil => exact ⟨h, .refl w⟩
  | cons op ops ih =>
    obtain ⟨hord, hquiet⟩ := ih (h.commit zones op)
    exact ⟨hord, (w.quiet_commit zones op).trans hquiet⟩

theorem Shared.Ordered.wait (h : w.Ordered id) :
    (w.wait zones).2.Ordered id ∧ w.Quiet (w.wait zones).2 := by
  rw [Shared.wait]
  split
  · exact ⟨h, .refl w⟩
  · rename_i t ts hturns
    obtain ⟨hord, hquiet⟩ := h.foldl_commit zones t.ops
    exact ⟨⟨hord.wf, hord.ended, hord.now, hord.calls⟩, hquiet⟩

/-! ## What the request does -/

theorem Shared.Ordered.transact (h : w.Ordered id) (op : Time → Op) :
    (w.transact zones op).2.Ordered id := by
  obtain ⟨hwait, -⟩ := h.wait zones
  simp only [Shared.transact]
  generalize w.wait zones = turn at hwait ⊢
  split
  · exact hwait
  split
  · exact hwait
  · exact hwait.commit zones _

theorem Shared.Ordered.finish (h : w.Ordered id) (s : Settlement) :
    (w.finish zones s).2.Ordered id := by
  have hfirst := h.transact zones fun now ↦ .finishFirst now s
  rw [Shared.finish]
  split
  · rename_i heq
    rw [heq] at hfirst
    exact hfirst
  · rename_i heq
    rw [heq] at hfirst
    split
    · exact hfirst
    · exact hfirst.transact zones _

/-- The `UPDATE` finds only live reservations. -/
theorem live_of_hits {db : Db} (h : markDispatchedHits id db = true) :
    ∃ row, db.reservation id = some row ∧ row.Live := by
  rw [markDispatchedHits, Option.any_eq_true] at h
  obtain ⟨row, hrow, hfound⟩ := h
  obtain ⟨hstatus, hresult⟩ := of_decide_eq_true hfound
  exact ⟨row, hrow, .inl hstatus, hresult⟩

/-- The `SELECT` accepts only live reservations. -/
theorem live_of_select {db : Db} (h : markDispatchedSelect id db = .ok ()) :
    ∃ row, db.reservation id = some row ∧ row.Live := by
  rw [markDispatchedSelect] at h
  split at h
  · cases h
  rename_i row hrow
  split at h
  · rename_i hstatus
    exact ⟨row, hrow, .inr hstatus.1, hstatus.2⟩
  · cases h

/-- **The hook**: if it succeeds, it has found the reservation live. -/
theorem markDispatched_spec (h : w.Ordered id) :
    (w.markDispatched zones id).2.Ordered id ∧
      ((w.markDispatched zones id).1 = .ok () → Marked id (w.markDispatched zones id).2.log) := by
  have hbegun : (w.note (.attempt w.st.db)).Ordered id := h.note rfl (by simp)
  obtain ⟨hupdate, hquiet⟩ := hbegun.wait zones
  simp only [Shared.markDispatched]
  generalize (w.note (.attempt w.st.db)).wait zones = turn at hupdate hquiet ⊢
  split
  · exact ⟨hupdate, by simp⟩
  split
  · rename_i hhits
    obtain ⟨row, hrow, hlive⟩ := live_of_hits hhits
    exact ⟨(hupdate.note rfl (by simp)).commit zones _,
      fun _ ↦ (marked_note hquiet hrow hlive).quiet (Shared.quiet_commit zones _ _)⟩
  obtain ⟨hselect, hquiet'⟩ := hupdate.wait zones
  generalize turn.2.wait zones = turn' at hselect hquiet' ⊢
  split
  · exact ⟨hselect, by simp⟩
  split
  · exact ⟨hselect, by simp⟩
  · rename_i hok
    obtain ⟨row, hrow, hlive⟩ := live_of_select hok
    exact ⟨hselect.note rfl (by simp), fun _ ↦ marked_note (hquiet.trans hquiet') hrow hlive⟩

end Log

section Request

variable (zones : Zones) (env : Surroundings) (d : Dispatcher) (chain : Chain) (call : Call)
  {id : String} {pc : PluginContext} {w w' : Shared}

/-- A request that has the reservation `id`, and a hook that marks it. -/
structure Holds (id : String) (pc : PluginContext) (w : Shared) : Prop where
  order : w.Ordered id
  reservation : pc.reservationID = id
  hook : pc.beforeUpstream = some id

/-- What a request does to its context leaves the reservation and the hook alone. -/
theorem Holds.world (h : Holds id pc w) (hw : w'.Ordered id) : Holds id pc w' :=
  ⟨hw, h.reservation, h.hook⟩

/-- **An attempt**: the hook, and then the call. -/
theorem Holds.attempt (h : Holds id pc w)
    (hb : beforeAccountedUpstream (Shared.store zones) pc w = (.ok (), w'))
    (key : EndpointKey) (preq : UnifiedRequest) {α : Type} (result : Except UpstreamError α) :
    Holds id (accountUpstreamResult result pc)
      ((env.gateway zones).net.exchange key preq w').2 := by
  simp only [beforeAccountedUpstream, h.hook] at hb
  obtain ⟨hord, hmarked⟩ := markDispatched_spec zones h.order
  have hmark : w.markDispatched zones id = (.ok (), w') := hb
  rw [hmark] at hord hmarked
  obtain ⟨hwait, hquiet⟩ := hord.wait zones
  have hcalled := hwait.note (m := .called key (w'.wait zones).2.st.db) rfl
    fun _ _ _ ↦ (hmarked rfl).quiet hquiet
  obtain ⟨hanswered, -⟩ := hcalled.wait zones
  obtain ⟨charge, uncertain, risk, hpc⟩ := accountUpstreamResult_eq result pc
  rw [hpc]
  exact ⟨hanswered, h.reservation, h.hook⟩

theorem Holds.refused (h : Holds id pc w) {e : StoreError}
    (hb : beforeAccountedUpstream (Shared.store zones) pc w = (.error e, w')) : Holds id pc w' := by
  simp only [beforeAccountedUpstream, h.hook] at hb
  have hmark : w.markDispatched zones id = (.error e, w') := hb
  obtain ⟨hord, -⟩ := markDispatched_spec zones h.order
  rw [hmark] at hord
  exact h.world hord

/-- What one candidate leaves. -/
theorem Holds.candidate {α : Type} {send : Forwarder → Exchange → Except UpstreamError α}
    {req : UnifiedRequest} {i : Nat} {key : EndpointKey} {t t' : Trying Shared}
    {r : Option (Except DispatchError α × DispatchResult)} (h : Holds id t.pc t.world)
    (hstep : CandidateStep send d (Shared.store zones) (env.gateway zones).net req i key t t' r) :
    Holds id t'.pc t'.world := by
  cases hstep with
  | noForwarder hf => exact h
  | notPrepared hf hp => exact h
  | refused hf hp hb => exact h.refused zones hb
  | @won f preq world world' x a hf hp hb hx ha =>
    have hattempt := h.attempt zones env hb key preq (send f x)
    rw [hx] at hattempt
    exact hattempt
  | @retried f preq world world' x e hf hp hb hx he hr =>
    have hattempt := h.attempt zones env hb key preq (send f x)
    rw [hx] at hattempt
    exact hattempt
  | @failed f preq world world' x e hf hp hb hx he hr =>
    have hattempt := h.attempt zones env hb key preq (send f x)
    rw [hx] at hattempt
    exact hattempt

/-- **The failover loop**, streaming or not. -/
theorem Holds.dispatch {α : Type} (send : Forwarder → Exchange → Except UpstreamError α)
    {s : Session Shared} (h : Holds id s.pc s.world) (modelAlias sessionKey protocol : String)
    (req : UnifiedRequest) :
    let r := dispatch send d (Shared.store zones) (env.gateway zones).net modelAlias sessionKey
      protocol req s
    Holds id r.session.pc r.session.world := by
  rw [Voxeltoad.dispatch]
  split
  · exact h
  · exact tryCandidates_rec send d (Shared.store zones) (env.gateway zones).net
      (fun _ t ↦ Holds id t.pc t.world) (fun t _ ↦ Holds id t.pc t.world)
      (fun _ _ _ _ _ h hstep ↦ h.candidate zones env d hstep)
      (fun _ _ _ _ _ _ h hstep ↦ h.candidate zones env d hstep) (fun _ h ↦ h) h

theorem Holds.settle {s : Session Shared} (h : Holds id s.pc s.world) :
    Holds id ((env.gateway zones).billing.settle s).2.pc
      ((env.gateway zones).billing.settle s).2.world := by
  rw [BillingPlugin.settle]
  split
  · exact h
  have hstore : ∀ t, ((env.gateway zones).billing.accounting.finish t s.world).2.Ordered id :=
    h.order.finish zones
  obtain ⟨uncertain, hfst⟩ :=
    BillingPlugin.classify_fst ((env.gateway zones).billing.dyn s.world) s.pc
  rcases hcl : BillingPlugin.classify ((env.gateway zones).billing.dyn s.world) s.pc with
    ⟨pc, settlement⟩
  rw [hcl] at hfst
  simp only at hfst ⊢
  subst hfst
  split
  · exact ⟨h.order, h.reservation, h.hook⟩
  have hfinish := hstore settlement
  split
  · rename_i heq
    rw [heq] at hfinish
    exact ⟨hfinish, h.reservation, h.hook⟩
  · rename_i heq
    rw [heq] at hfinish
    exact ⟨hfinish, h.reservation, h.hook⟩

theorem Holds.runPost {s : Session Shared} (h : Holds id s.pc s.world) (resp : UnifiedResponse)
    (dr : DispatchResult) :
    Holds id (chain.runPost (env.gateway zones).billing s resp dr).pc
      (chain.runPost (env.gateway zones).billing s resp dr).world := by
  have hposted : Holds id (s.pc.posted resp dr) s.world := ⟨h.order, h.reservation, h.hook⟩
  rw [Chain.runPost, Chain.runPostPhase]
  split
  · rename_i pc hpass
    cases runOthers_pass hpass
    have hsettle := Holds.settle zones env (s := { s with pc := s.pc.posted resp dr }) hposted
    split
    · rename_i heq
      rw [heq] at hsettle
      exact hsettle
    · rename_i s' heq
      rw [heq] at hsettle
      obtain ⟨stop, blockedBy, hafter⟩ := runOthers_snd OtherPlugin.post chain.after s'.pc
      rw [hafter]
      exact ⟨hsettle.order, hsettle.reservation, hsettle.hook⟩
  · rename_i v pc hv heq
    obtain ⟨stop, blockedBy, hbefore⟩ :=
      runOthers_snd OtherPlugin.post chain.before (s.pc.posted resp dr)
    rw [heq] at hbefore
    cases hbefore
    exact ⟨hposted.order, hposted.reservation, hposted.hook⟩

theorem Holds.chatCompletions {s : Session Shared} (h : Holds id s.pc s.world) :
    let served := chatCompletions (env.gateway zones) d chain call s
    Holds id served.session.pc served.session.world := by
  have hr := h.dispatch zones env d (Forwarder.forward (env.gateway zones).json)
    call.request.model call.sessionKey call.protocol call.request
  simp only [Voxeltoad.chatCompletions, Dispatcher.forward]
  split
  · exact hr.runPost zones env chain _ _
  · exact hr.runPost zones env chain _ _

theorem Holds.relayStream {s : Session Shared} (h : Holds id s.pc s.world) (dr : DispatchResult)
    (sr : StreamReader) :
    let s' := relayStream (env.gateway zones) chain call s dr sr
    Holds id s'.pc s'.world := by
  simp only [Voxeltoad.relayStream, relay_start]
  refine Holds.runPost zones env chain ?_ _ _
  exact ⟨h.order, h.reservation, h.hook⟩

theorem Holds.streamChatCompletions {s : Session Shared} (h : Holds id s.pc s.world) :
    let served := streamChatCompletions (env.gateway zones) d chain call s
    Holds id served.session.pc served.session.world := by
  have hr := h.dispatch zones env d Forwarder.forwardStream
    call.request.model call.sessionKey call.protocol call.request
  simp only [Voxeltoad.streamChatCompletions, Dispatcher.forwardStream]
  split
  · exact h
  split
  · exact hr
  · exact hr.relayStream zones env chain call _ _

/-- Pre only waits and commits. -/
theorem Shared.Ordered.runPre (h : w.Ordered id) (pc : PluginContext) :
    (chain.runPre (env.gateway zones).billing pc w).2.2.Ordered id :=
  runPre_world (env.gateway zones).billing (W := Shared.Ordered id) (fun _ h ↦ h)
    (fun _ _ h ↦ h.transact zones _) chain pc h

theorem Holds.afterPre {s : Session Shared} (h : Holds id s.pc s.world) (verdict : Verdict) :
    let served := afterPre (env.gateway zones) d chain call verdict s
    Holds id served.session.pc served.session.world := by
  by_cases hpass : verdict = .pass
  · rw [hpass, Voxeltoad.afterPre]
    split
    · exact h.streamChatCompletions zones env d chain call
    · exact h.chatCompletions zones env d chain call
  · rw [afterPre_of_ne_pass hpass]
    exact h

theorem Holds.finalize {s : Session Shared} (h : Holds id s.pc s.world) :
    let s' := finalize (env.gateway zones) s
    Holds id s'.pc s'.world := by
  rw [Voxeltoad.finalize]
  split
  · exact h.settle zones env
  · exact h

/-- **The whole request.** -/
theorem ordered_serveChat (h : ∀ id, w.Ordered id) :
    let s := (serveChat (env.gateway zones) d chain call w).session
    s.world.Ordered s.pc.reservationID := by
  have hpre := runPre_cases (env.gateway zones).billing chain (pricedContext d call) w
  have hworld := fun id ↦ (h id).runPre zones env chain (pricedContext d call)
  simp only [serveChat]
  split
  · exact h _
  rcases hr : chain.runPre (env.gateway zones).billing (pricedContext d call) w with
    ⟨verdict, pc, w'⟩
  rw [hr] at hpre hworld
  rcases hpre with ⟨hverdict, hid, hfinalize⟩ | ⟨snapshot, reserved, id, stop, blockedBy, hpc⟩
  · -- Pre did not reserve, so it did not let the request pass.
    have hfinalize' : pc.billingFinalize = false := hfinalize
    simp only [afterPre_of_ne_pass hverdict, Voxeltoad.finalize, hfinalize']
    exact hworld _
  · simp only at hpc
    have hholds : Holds (BillingPlugin.hexEncode id) pc w' := by
      rw [hpc]
      exact ⟨hworld _, rfl, rfl⟩
    have hserved := (Holds.afterPre zones env d chain call (s := ⟨pc, w', []⟩) hholds
      verdict).finalize zones env
    have hid := hserved.reservation
    simp only at hid ⊢
    rw [hid]
    exact hserved.order

/-- **No upstream call without a live reservation.**  What a request does, in order, when its
reservation is `id`. -/
structure Guarded (id : String) (log : List Moment) : Prop where
  /-- Every call is made in an attempt that has just found the reservation live. -/
  calls : ∀ before key db after, log = before ++ .called key db :: after → Marked id before
  /-- From when the reservation has ended, no attempt that begins makes a call. -/
  ended : ∀ before m between begun after,
    log = before ++ m :: between ++ .attempt begun :: after → m.db.Ended id →
      ∀ key db, .called key db ∉ after

theorem Shared.Ordered.guarded (h : w.Ordered id) : Guarded id w.log where
  calls := h.calls
  ended := by
    intro before m between begun after hlog hm key db hcalled
    obtain ⟨mid, rest, rfl⟩ := List.append_of_mem hcalled
    obtain ⟨before', begun', waiting, found, since, hsplit, -, hsince, row, hrow, hlive⟩ :=
      h.calls (before ++ m :: between ++ .attempt begun :: mid) key db rest (by simp [hlog])
    have hpair := h.ended
    rw [hlog] at hpair
    have hbegun : begun.Ended id := by
      refine (List.pairwise_append.mp hpair).2.2 m (by simp) (.attempt begun) (by simp) hm
    -- The attempt is not among the commits since the reservation was found, so it came before.
    have hearlier : .attempt begun ∈ before' ++ .attempt begun' :: waiting := by
      have hmem : Moment.attempt begun ∈ before ++ m :: between ++ .attempt begun :: mid := by simp
      rw [hsplit] at hmem
      rcases List.mem_append.mp hmem with hmem | hmem
      · exact hmem
      rcases List.mem_cons.mp hmem with hmem | hmem
      · cases hmem
      · obtain ⟨_, hmem⟩ := hsince _ hmem
        cases hmem
    have hprefix : (before' ++ .attempt begun' :: waiting ++ .marked found :: since).Pairwise
        fun m m' ↦ m.db.Ended id → m'.db.Ended id := by
      rw [← hsplit]
      refine hpair.sublist ?_
      rw [← List.cons_append, ← List.append_assoc]
      exact List.sublist_append_left _ _
    obtain ⟨row', hrow', hdead⟩ : found.Ended id :=
      (List.pairwise_append.mp hprefix).2.2 _ hearlier (.marked found) (by simp) hbegun
    rw [hrow, Option.some.injEq] at hrow'
    exact hdead (hrow' ▸ hlive)

/-- **No upstream call without a live reservation**, for every request on every reachable store,
whatever other processes do meanwhile. -/
theorem upstream_calls_guarded {db : Db} (hinit : db.Initial) (ops : List Op)
    (turns : List Turn) :
    let s := (serveChat (env.gateway zones) d chain call ⟨runOps zones db ops, turns, []⟩).session
    Guarded s.pc.reservationID s.world.log :=
  (ordered_serveChat zones env d chain call fun _ ↦
    ⟨wf_runOps hinit ops, by simp, by simp, by simp⟩).guarded

end Request

/-- While the first candidate times out the reservation is swept, and there is no second call. -/
theorem upstream_calls_guarded_swept :
    let served := serveChat (Surroundings.sample.gateway Zones.utc) (.sample .sample) ⟨[], []⟩
      (.sample true) ⟨runOps Zones.utc Db.sample [],
        [⟨[], 0, false⟩, ⟨[], 1, false⟩, ⟨[], 0, false⟩, ⟨[.markStale 10 5 []], 0, false⟩], []⟩
    served.attempts.map Attempt.key = [⟨"a", "openai"⟩] ∧
      (served.session.world.st.db.reservation served.session.pc.reservationID).map
        ReservationRow.status = some .unknown ∧
      Guarded served.session.pc.reservationID served.session.world.log :=
  ⟨by decide, by decide,
    upstream_calls_guarded _ _ _ _ _ Db.sample_initial [] _⟩

end Voxeltoad
