import Mathlib.Algebra.Order.Group.Int
import Voxeltoad.Billing.Period
import Voxeltoad.Lib.Run

/-!
# API-key authentication

`internal/auth/auth.go`: a presented key is hashed and looked up in a cache, and in the key store
when the cache has nothing fresh.  `resolve` takes its lock twice, once to look into the cache and
once to write what it read, and it reads the store in between without holding it; so any number of
calls can be anywhere between these steps, and a slow one may overwrite what a faster one wrote.

The machine below takes the steps apart.  Every call in flight has a `Call`, which says how far it
has come and what it remembers; `Op` is one step of one call, a change of the key store, or the
clock moving on.  The store is what `LookupByHash` would answer at the moment, and the SHA-256 of
`hashKey` is a parameter.  Instants are in nanoseconds.

What keeps the cache honest is that an entry is stamped with the clock reading made *before* the
store was read.  So a value was in the store no earlier than its stamp, however late it is written
(`Fresh`), and an entry that is still served was true less than its lifetime ago.
-/

set_option autoImplicit false

namespace Voxeltoad
namespace Auth

/-- `KeyRecord`. -/
structure KeyRecord where
  keyID : String
  tenant : String
  group : String
  hash : String
  /-- `none` for a key that does not expire. -/
  expiresAt : Option Int
  allowedModels : List String
  applicationID : Option Int
  environment : String
  deriving DecidableEq, Repr

/-- `Options`. -/
structure Options where
  cacheTTL : Int
  negativeTTL : Int
  deriving DecidableEq, Repr

/-- What is fixed about an `Authenticator`.  Both lifetimes are positive: `NewAuthenticator` puts a
default in the place of one that is not. -/
structure Authenticator where
  cacheTTL : Int
  negativeTTL : Int
  cacheTTL_pos : 0 < cacheTTL
  negativeTTL_pos : 0 < negativeTTL

/-- `opts.CacheTTL`, or a minute. -/
def Options.effectiveCacheTTL (opts : Options) : Int :=
  if opts.cacheTTL ≤ 0 then 60 * second else opts.cacheTTL

/-- `opts.NegativeTTL`, or the lifetime of a positive entry. -/
def Options.effectiveNegativeTTL (opts : Options) : Int :=
  if opts.negativeTTL ≤ 0 then opts.effectiveCacheTTL else opts.negativeTTL

theorem Options.effectiveCacheTTL_pos (opts : Options) : 0 < opts.effectiveCacheTTL := by
  rw [effectiveCacheTTL]
  split
  · decide
  · omega

theorem Options.effectiveNegativeTTL_pos (opts : Options) : 0 < opts.effectiveNegativeTTL := by
  rw [effectiveNegativeTTL]
  split
  · exact opts.effectiveCacheTTL_pos
  · omega

/-- **`NewAuthenticator`.** -/
def newAuthenticator (opts : Options) : Authenticator where
  cacheTTL := opts.effectiveCacheTTL
  negativeTTL := opts.effectiveNegativeTTL
  cacheTTL_pos := opts.effectiveCacheTTL_pos
  negativeTTL_pos := opts.effectiveNegativeTTL_pos

/-- How long an entry for a value is served. -/
def Authenticator.ttl (a : Authenticator) (value : Option KeyRecord) : Int :=
  if value.isSome then a.cacheTTL else a.negativeTTL

theorem Authenticator.ttl_pos (a : Authenticator) (value : Option KeyRecord) :
    0 < a.ttl value := by
  rw [ttl]
  split
  · exact a.cacheTTL_pos
  · exact a.negativeTTL_pos

/-- `cacheEntry`.  The record and its `ok` are one option; `none` is a negative entry. -/
structure CacheEntry where
  value : Option KeyRecord
  expireAt : Int
  deriving DecidableEq, Repr

/-- What `Authenticate` returns. -/
inductive Answer where
  | accepted (record : KeyRecord)
  /-- `ErrInvalidKey` -/
  | invalidKey
  /-- `ErrKeyExpired` -/
  | keyExpired
  /-- The store returned an error. -/
  | failed
  deriving DecidableEq, Repr

/-- The end of `Authenticate`, with the clock it reads there. -/
def answer (now : Int) : Option KeyRecord → Answer
  | none => .invalidKey
  | some record =>
    match record.expiresAt with
    | none => .accepted record
    | some expiry => if now < expiry then .accepted record else .keyExpired

/-! ## Calls in flight -/

/-- How far a call of `Authenticate` has come.  `hash` is the hash of its key, and `start` the clock
reading that `resolve` begins with. -/
inductive Call where
  | idle
  /-- The key was empty, so nothing was looked up. -/
  | refused
  | started (hash : String) (start : Int)
  | missed (hash : String) (start : Int)
  | looked (hash : String) (start : Int) (value : Option KeyRecord)
  | resolved (hash : String) (start : Int) (value : Option KeyRecord)
  | done (hash : String) (start : Int) (result : Answer)
  deriving DecidableEq, Repr

/-- The clock, the key store, the cache and the calls. -/
structure State where
  clock : Int
  /-- What `LookupByHash` would return. -/
  store : String → Option KeyRecord
  cache : String → Option CacheEntry
  calls : Nat → Call

/-- One step. -/
inductive Op where
  /-- The clock moves on. -/
  | tick (d : Nat)
  /-- The key store changes: a key is created, altered or revoked. -/
  | change (hash : String) (value : Option KeyRecord)
  /-- `Authenticate` is called; `resolve` reads the clock. -/
  | start (id : Nat) (plaintextKey : String)
  /-- The first critical section of `resolve`. -/
  | lookup (id : Nat)
  /-- `LookupByHash` answers. -/
  | read (id : Nat)
  /-- `LookupByHash` fails. -/
  | fail (id : Nat)
  /-- The second critical section of `resolve`. -/
  | write (id : Nat)
  /-- `Authenticate` looks at the expiry of the record and returns. -/
  | finish (id : Nat)
  deriving DecidableEq, Repr

/-- Replace the state of one call. -/
def State.setCall (st : State) (id : Nat) (c : Call) : State :=
  { st with calls := fun i ↦ if i = id then c else st.calls i }

/-- Replace one cache entry. -/
def State.setCache (st : State) (hash : String) (e : CacheEntry) : State :=
  { st with cache := fun h ↦ if h = hash then some e else st.cache h }

variable (a : Authenticator) (hashKey : String → String)

/-- The first critical section: a hit when there is an entry that has not expired. -/
def State.lookup (st : State) (hash : String) (start : Int) : Call :=
  match st.cache hash with
  | none => .missed hash start
  | some e => if start < e.expireAt then .resolved hash start e.value else .missed hash start

/-- One step of the machine.  A step that a call is not ready for does nothing. -/
def step (st : State) : Op → State
  | .tick d => { st with clock := st.clock + d }
  | .change hash value =>
    { st with store := fun h ↦ if h = hash then value else st.store h }
  | .start id plaintextKey =>
    match st.calls id with
    | .idle =>
      if plaintextKey = "" then st.setCall id .refused
      else st.setCall id (.started (hashKey plaintextKey) st.clock)
    | _ => st
  | .lookup id =>
    match st.calls id with
    | .started hash start => st.setCall id (st.lookup hash start)
    | _ => st
  | .read id =>
    match st.calls id with
    | .missed hash start => st.setCall id (.looked hash start (st.store hash))
    | _ => st
  | .fail id =>
    match st.calls id with
    | .missed hash start => st.setCall id (.done hash start .failed)
    | _ => st
  | .write id =>
    match st.calls id with
    | .looked hash start value =>
      (st.setCache hash ⟨value, start + a.ttl value⟩).setCall id (.resolved hash start value)
    | _ => st
  | .finish id =>
    match st.calls id with
    | .resolved hash start value => st.setCall id (.done hash start (answer st.clock value))
    | _ => st

/-- What a step does: one case for each way it can go. -/
inductive Moves (st : State) : State → Prop
  | tick (d : Nat) : Moves st { st with clock := st.clock + d }
  | change (hash : String) (value : Option KeyRecord) :
      Moves st { st with store := fun h ↦ if h = hash then value else st.store h }
  /-- The call was not ready for the step. -/
  | stay : Moves st st
  | refuse (id : Nat) : Moves st (st.setCall id .refused)
  | start (id : Nat) (hash : String) : Moves st (st.setCall id (.started hash st.clock))
  | hit {id : Nat} {hash : String} {start : Int} {e : CacheEntry}
      (h : st.calls id = .started hash start) (he : st.cache hash = some e)
      (hlt : start < e.expireAt) : Moves st (st.setCall id (.resolved hash start e.value))
  | miss {id : Nat} {hash : String} {start : Int} (h : st.calls id = .started hash start) :
      Moves st (st.setCall id (.missed hash start))
  | read {id : Nat} {hash : String} {start : Int} (h : st.calls id = .missed hash start) :
      Moves st (st.setCall id (.looked hash start (st.store hash)))
  | fail (id : Nat) (hash : String) (start : Int) :
      Moves st (st.setCall id (.done hash start .failed))
  | write {id : Nat} {hash : String} {start : Int} {value : Option KeyRecord}
      (h : st.calls id = .looked hash start value) :
      Moves st
        ((st.setCache hash ⟨value, start + a.ttl value⟩).setCall id (.resolved hash start value))
  | finish {id : Nat} {hash : String} {start : Int} {value : Option KeyRecord}
      (h : st.calls id = .resolved hash start value) :
      Moves st (st.setCall id (.done hash start (answer st.clock value)))

theorem step_moves (st : State) (o : Op) : Moves a st (step a hashKey st o) := by
  cases o with
  | tick d => exact .tick d
  | change hash value => exact .change hash value
  | start id plaintextKey =>
    rw [step]
    split
    · split
      · exact .refuse id
      · exact .start id _
    · exact .stay
  | lookup id =>
    rw [step]
    split
    · rename_i hash start hcall
      rw [State.lookup]
      split
      · exact .miss hcall
      · split
        · exact .hit hcall ‹_› ‹_›
        · exact .miss hcall
    · exact .stay
  | read id =>
    rw [step]
    split
    · exact .read ‹_›
    · exact .stay
  | fail id =>
    rw [step]
    split
    · exact .fail ..
    · exact .stay
  | write id =>
    rw [step]
    split
    · exact .write ‹_›
    · exact .stay
  | finish id =>
    rw [step]
    split
    · exact .finish ‹_›
    · exact .stay

/-- Before the first call: nothing is cached and no call is in flight.  The clock and the store may
be anything. -/
structure State.Initial (st : State) : Prop where
  cache : ∀ h, st.cache h = none
  calls : ∀ id, st.calls id = .idle

/-! ## What a call may rely on -/

/-- What a call remembers was true of the store at one of the instants `past`: after it began, while
it carries a value it has read itself; less than a lifetime before it began, once it is to return a
value. -/
def Call.Sound (past : List State) (now : Int) : Call → Prop
  | .idle | .refused | .done .. => True
  | .started _ start | .missed _ start => start ≤ now
  | .looked hash start value => ∃ p ∈ past, start ≤ p.clock ∧ p.store hash = value
  | .resolved hash start value =>
    ∃ p ∈ past, start - a.ttl value < p.clock ∧ p.store hash = value

/-- The invariant, for a state that was reached through the states `past`. -/
structure Inv (past : List State) (st : State) : Prop where
  clock : ∀ p ∈ past, p.clock ≤ st.clock
  /-- An entry was true of the store no longer than its lifetime before it expires. -/
  cache : ∀ hash e, st.cache hash = some e →
    ∃ p ∈ past, e.expireAt ≤ p.clock + a.ttl e.value ∧ p.store hash = e.value
  calls : ∀ id, (st.calls id).Sound a past st.clock

variable {a hashKey} {past : List State} {st : State}

theorem Call.Sound.mono {past' : List State} {now now' : Int} {c : Call}
    (h : c.Sound a past now) (hsub : past ⊆ past') (hnow : now ≤ now') : c.Sound a past' now' := by
  cases c with
  | idle | refused | done => trivial
  | started hash start | missed hash start => exact le_trans h hnow
  | looked hash start value | resolved hash start value =>
    obtain ⟨p, hp, h⟩ := h
    exact ⟨p, hsub hp, h⟩

theorem Inv.setCall (h : Inv a past st) {id : Nat} {c : Call} (hc : c.Sound a past st.clock) :
    Inv a past (st.setCall id c) := by
  refine ⟨h.clock, h.cache, fun i ↦ ?_⟩
  show Call.Sound a past st.clock (if i = id then c else st.calls i)
  split
  · exact hc
  · exact h.calls i

theorem Inv.setCache (h : Inv a past st) {hash : String} {e : CacheEntry}
    (he : ∃ p ∈ past, e.expireAt ≤ p.clock + a.ttl e.value ∧ p.store hash = e.value) :
    Inv a past (st.setCache hash e) := by
  refine ⟨h.clock, fun hash' e' he' ↦ ?_, h.calls⟩
  change (if hash' = hash then some e else st.cache hash') = some e' at he'
  split at he'
  · rename_i hh
    cases he'
    exact hh ▸ he
  · exact h.cache hash' e' he'

theorem Inv.sound (h : Inv a past st) {id : Nat} {c : Call} (hcall : st.calls id = c) :
    c.Sound a past st.clock := hcall ▸ h.calls id

/-- One step keeps the invariant.  The step itself needs nothing of the past but the state it is
taken in, which is where a read of the store finds its value. -/
theorem Moves.inv {st' : State} (hmove : Moves a st st') (h : Inv a past st) (hmem : st ∈ past) :
    Inv a past st' := by
  cases hmove with
  | tick d =>
    have hd : st.clock ≤ st.clock + d := by omega
    exact ⟨fun p hp ↦ le_trans (h.clock p hp) hd, h.cache,
      fun id ↦ (h.calls id).mono (List.Subset.refl _) hd⟩
  | change hash value => exact ⟨h.clock, h.cache, h.calls⟩
  | stay => exact h
  | refuse | fail | finish => exact h.setCall trivial
  | start => exact h.setCall (le_refl st.clock)
  | hit hcall he hlt =>
    -- The entry was stamped less than its lifetime before the call began.
    obtain ⟨p, hp, hexp, hval⟩ := h.cache _ _ he
    exact h.setCall ⟨p, hp, by omega, hval⟩
  | miss hcall =>
    have hstart := h.sound hcall
    exact h.setCall hstart
  | read hcall =>
    have hstart := h.sound hcall
    exact h.setCall ⟨st, hmem, hstart, rfl⟩
  | write hcall =>
    rename_i id hash start value
    obtain ⟨p, hp, hclock, hval⟩ := h.sound hcall
    have hpos := a.ttl_pos value
    refine (h.setCache ⟨p, hp, ?_, hval⟩).setCall ⟨p, hp, ?_, hval⟩
    · show start + a.ttl value ≤ p.clock + a.ttl value
      omega
    · omega

theorem Inv.push (h : Inv a past st) : Inv a (past ++ [st]) st := by
  have hsub : past ⊆ past ++ [st] := List.subset_append_left ..
  refine ⟨fun p hp ↦ ?_, fun hash e he ↦ ?_, fun id ↦ (h.calls id).mono hsub (le_refl _)⟩
  · rcases List.mem_append.mp hp with hp | hp
    · exact h.clock p hp
    · rw [List.mem_singleton.mp hp]
  · obtain ⟨p, hp, h⟩ := h.cache hash e he
    exact ⟨p, hsub hp, h⟩

theorem State.Initial.inv (h : st.Initial) : Inv a [st] st := by
  refine ⟨fun p hp ↦ ?_, fun hash e he ↦ ?_, fun id ↦ ?_⟩
  · rw [List.mem_singleton.mp hp]
  · rw [h.cache] at he
    exact absurd he (by simp)
  · rw [h.calls]
    trivial

variable (a hashKey) in
/-- The invariant holds in every state that is reached. -/
theorem inv_run (h : st.Initial) (ops : List Op) :
    Inv a (Run.visited (step a hashKey) st ops) (Run.run (step a hashKey) st ops) :=
  Run.invariant_past (fun _ st o hmem h ↦ ((step_moves a hashKey st o).inv h hmem).push) h.inv ops

/-! ## How stale an answer can be -/

/-- A call ends with its answer to a resolved value, or because the store failed. -/
theorem Moves.done {st' : State} (hmove : Moves a st st') {id : Nat} {hash : String} {start : Int}
    {result : Answer} (hopen : ∀ hash start result, st.calls id ≠ .done hash start result)
    (hdone : st'.calls id = .done hash start result) :
    result = .failed ∨
      ∃ value, st.calls id = .resolved hash start value ∧ result = answer st.clock value := by
  -- Every step either leaves the call alone or puts it into one known state.
  have hset : ∀ {id' : Nat} {c : Call}, (st.setCall id' c).calls id = .done hash start result →
      id' = id ∧ c = .done hash start result := by
    intro id' c h
    change (if id = id' then c else st.calls id) = _ at h
    split at h
    · rename_i hid
      exact ⟨hid.symm, h⟩
    · exact absurd h (hopen _ _ _)
  cases hmove with
  | tick | change | stay => exact absurd hdone (hopen _ _ _)
  | refuse | start | hit | miss | read => exact absurd (hset hdone).2 (by simp)
  | fail =>
    obtain ⟨-, hc⟩ := hset hdone
    cases hc
    exact .inl rfl
  | write => exact absurd (hset hdone).2 (by simp)
  | finish hcall =>
    obtain ⟨rfl, hc⟩ := hset hdone
    cases hc
    exact .inr ⟨_, hcall, rfl⟩

theorem eq_of_accepted {now : Int} {value : Option KeyRecord} {record : KeyRecord}
    (h : answer now value = .accepted record) :
    value = some record ∧ ∀ expiry, record.expiresAt = some expiry → now < expiry := by
  cases value with
  | none => cases h
  | some r =>
    rw [answer] at h
    split at h
    · rename_i hnone
      cases h
      refine ⟨rfl, fun expiry he ↦ ?_⟩
      rw [hnone] at he
      cases he
    · rename_i expiry hsome
      split at h
      · rename_i hlt
        cases h
        refine ⟨rfl, fun expiry' he ↦ ?_⟩
        rw [hsome] at he
        cases he
        exact hlt
      · cases h

theorem eq_of_invalidKey {now : Int} {value : Option KeyRecord}
    (h : answer now value = .invalidKey) : value = none := by
  cases value with
  | none => rfl
  | some r =>
    rw [answer] at h
    split at h
    · cases h
    · split at h <;> cases h

/-- **The staleness bound.**  For every run from an empty cache, whatever the interleaving, and for
every call that ends with the step `o`, having read the clock at `start`:

* an accepted record was the store's value for the hash at some instant after `start - CacheTTL`,
  and has not expired;
* an unknown key was unknown to the store at some instant after `start - NegativeTTL`;
* a key that was revoked at least `CacheTTL` before `start`, and is still revoked, is not
  accepted. -/
theorem staleness_bound (h : st.Initial) (ops : List Op) (o : Op) (id : Nat) (hash : String)
    (start : Int) (result : Answer)
    (hopen : ∀ hash start result,
      (Run.run (step a hashKey) st ops).calls id ≠ .done hash start result)
    (hdone : (Run.run (step a hashKey) st (ops ++ [o])).calls id = .done hash start result) :
    (∀ record, result = .accepted record →
      (∃ p ∈ Run.visited (step a hashKey) st ops,
        start - a.cacheTTL < p.clock ∧ p.store hash = some record) ∧
      ∀ expiry, record.expiresAt = some expiry →
        (Run.run (step a hashKey) st ops).clock < expiry) ∧
    (result = .invalidKey →
      ∃ p ∈ Run.visited (step a hashKey) st ops,
        start - a.negativeTTL < p.clock ∧ p.store hash = none) ∧
    ∀ ops₁ ops₂, ops = ops₁ ++ ops₂ →
      (∀ p ∈ Run.visited (step a hashKey) (Run.run (step a hashKey) st ops₁) ops₂,
        p.store hash = none) →
      (Run.run (step a hashKey) st ops₁).clock + a.cacheTTL ≤ start →
      ∀ record, result ≠ .accepted record := by
  rw [Run.run_concat] at hdone
  have hinv := inv_run a hashKey h ops
  have hended := (step_moves a hashKey _ o).done hopen hdone
  have haccepted : ∀ record, result = .accepted record →
      (∃ p ∈ Run.visited (step a hashKey) st ops,
        start - a.cacheTTL < p.clock ∧ p.store hash = some record) ∧
      ∀ expiry, record.expiresAt = some expiry →
        (Run.run (step a hashKey) st ops).clock < expiry := by
    rintro record rfl
    rcases hended with hfail | ⟨value, hcall, hanswer⟩
    · cases hfail
    · obtain ⟨rfl, hexpiry⟩ := eq_of_accepted hanswer.symm
      exact ⟨hinv.sound hcall, hexpiry⟩
  refine ⟨haccepted, ?_, ?_⟩
  · rintro rfl
    rcases hended with hfail | ⟨value, hcall, hanswer⟩
    · cases hfail
    · obtain rfl := eq_of_invalidKey hanswer.symm
      exact hinv.sound hcall
  · intro ops₁ ops₂ hops hrevoked hlate record hrecord
    obtain ⟨⟨p, hp, hclock, hstore⟩, -⟩ := haccepted record hrecord
    rw [hops] at hp
    -- The record was in the store after the revocation, which nothing after it bears out.
    rcases Run.mem_visited_append hp with hp | hp
    · have hle := (inv_run a hashKey h ops₁).clock p hp
      omega
    · rw [hrevoked p hp] at hstore
      cases hstore

/-- The SHA-256 of the key `k`. -/
def sampleHash : String := "8254c329a92850f6d539dd376f4816ee2764517da5e0235514af433164480d7a"

/-- The record of the key `k`. -/
def KeyRecord.sample : KeyRecord := ⟨"key_1", "t", "", sampleHash, none, [], none, ""⟩

/-- A store that knows the key `k`. -/
def State.sample : State where
  clock := 0
  store h := if h = sampleHash then some .sample else none
  cache _ := none
  calls _ := .idle

/-- The key is used once, revoked, and half a minute later presented again. -/
def Op.sample : List Op :=
  [.start 0 "k", .lookup 0, .read 0, .write 0, .finish 0, .change sampleHash none,
    .tick 30000000000, .start 1 "k", .lookup 1]

/-- The second use is served from the cache, which is what the bound allows. -/
theorem staleness_bound_sample :
    (Run.run (step (newAuthenticator ⟨0, 0⟩) fun _ ↦ sampleHash) .sample
      (Op.sample ++ [.finish 1])).calls 1 = .done sampleHash 30000000000 (.accepted .sample) ∧
    ∃ p ∈ Run.visited (step (newAuthenticator ⟨0, 0⟩) fun _ ↦ sampleHash) .sample Op.sample,
      30000000000 - (newAuthenticator ⟨0, 0⟩).cacheTTL < p.clock ∧
        p.store sampleHash = some .sample := by
  have hdone : (Run.run (step (newAuthenticator ⟨0, 0⟩) fun _ ↦ sampleHash) .sample
      (Op.sample ++ [.finish 1])).calls 1 = .done sampleHash 30000000000 (.accepted .sample) := by
    decide
  refine ⟨hdone, ((staleness_bound ⟨fun _ ↦ rfl, fun _ ↦ rfl⟩ Op.sample (.finish 1) 1 sampleHash
    30000000000 (.accepted .sample) ?_ hdone).1 .sample rfl).1⟩
  intro hash start result hcall
  have hresolved : (Run.run (step (newAuthenticator ⟨0, 0⟩) fun _ ↦ sampleHash) .sample
      Op.sample).calls 1 = .resolved sampleHash 30000000000 (some .sample) := by
    decide
  rw [hresolved] at hcall
  cases hcall

end Auth
end Voxeltoad
