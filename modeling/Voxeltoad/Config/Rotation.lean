import Voxeltoad.Config.Watcher

/-!
# Rotating a provider's key

The provider `POST` and `PATCH …/credential` of `internal/admin/crud_provider.go`, statement by
statement, against the polls and refreshes of a data plane.  Both write the provider, which bumps
the generation, and its credential, which does not.  `PATCH` writes the credential first, so that
the bump makes the data plane look at it.  `POST` writes the provider first.  When a poll and a
refresh fall between its two writes, the dispatcher is built with the old key under the new
generation, and nothing makes the data plane look again.

`rotation_fresh` is that this is the only way to miss a rotation: when every `POST` writes its
credential before the dispatcher was built from the generation of that moment (`InTime`), the
dispatcher has the stored keys once everything has settled.
-/

set_option autoImplicit false

namespace Voxeltoad
namespace Config

/-- What is left to do of a request. -/
inductive Pending where
  /-- `POST` has written the provider, and not the credential. -/
  | credential (name : String) (cred : Credential)
  /-- `PATCH` has written the credential, and not read the provider. -/
  | pointer (name ref : String)
  /-- `PATCH` has read the provider, and not written it with its new reference. -/
  | upsert (p : Provider)
  deriving DecidableEq, Repr

/-- The request is a `PATCH` of the credential of `name`. -/
def Pending.Patches : Pending → String → Prop
  | .credential _ _, _ => False
  | .pointer name _, name' => name = name'
  | .upsert p, name' => p.name = name'

/-- A data plane and its dispatcher, and the requests in flight. -/
structure Gateway where
  plane : Plane
  watcher : Watcher
  requests : List Pending
  deriving DecidableEq, Repr

namespace Gateway

def initial : Gateway := ⟨.initial, ⟨"", none⟩, []⟩

/-- A step of the data plane's poller, or of the endpoint that serves it. -/
inductive PollOp where
  | send
  | read
  | answer
  | receive
  | fail
  deriving DecidableEq, Repr

def PollOp.toPlane : PollOp → Plane.Op
  | .send => .send
  | .read => .read
  | .answer => .answer
  | .receive => .receive
  | .fail => .fail

inductive Op where
  /-- Any other transaction on the configuration. -/
  | mutate (m : Mutation)
  /-- `POST`, up to its first write.  `nonce` is what the key is encrypted with. -/
  | post (p : Provider) (apiKey : String) (nonce : List UInt8)
  /-- `PATCH …/credential`, up to its first write. -/
  | patchCredential (name apiKey apiKeyRef : String) (nonce : List UInt8)
  /-- The next statement of a request in flight. -/
  | resume (i : Nat)
  | poll (o : PollOp)
  /-- `Build`, or `Refresh` when it is not forced. -/
  | rebuild (force : Bool)
  deriving DecidableEq, Repr

variable (env : String → Option String) (encrypt : List UInt8 → String → Credential)
  (decrypt : Credential → Option String)

/-- How the data plane resolves a reference. -/
def resolve (s : Gateway) : String → Except SecretError String :=
  resolveSecret env decrypt s.plane.tables.getCredential

/-- The data plane after a write to the tables. -/
def write (s : Gateway) (o : Config.Op) : Gateway := { s with plane := s.plane.step (.write o) }

def step (s : Gateway) : Op → Gateway
  | .mutate m => s.write (.mutate m)
  | .post p apiKey nonce =>
    if p.name = "" then s
    else
      match validateProvider p.name p.endpoints with
      | .error _ => s
      | .ok () =>
        let s := s.write (.mutate (.upsertProvider
          { p with apiKeyRef := effectiveAPIKeyRef p.name apiKey p.apiKeyRef }))
        if apiKey = "" then s
        else { s with requests := s.requests ++ [.credential p.name (encrypt nonce apiKey)] }
  | .patchCredential name apiKey apiKeyRef nonce =>
    if apiKey = "" ∧ apiKeyRef = "" then s
    else
      let pending := Pending.pointer name (effectiveAPIKeyRef name apiKey apiKeyRef)
      if apiKey = "" then { s with requests := s.requests ++ [pending] }
      else
        match s.plane.tables.upsertCredential name (encrypt nonce apiKey) with
        | none => s
        | some _ =>
          { s.write (.upsertCredential name (encrypt nonce apiKey)) with
            requests := s.requests ++ [pending] }
  | .resume i =>
    match s.requests[i]? with
    | none => s
    | some (.credential name cred) =>
      { s.write (.upsertCredential name cred) with requests := s.requests.eraseIdx i }
    | some (.pointer name ref) =>
      match s.plane.tables.getProvider name with
      | none => { s with requests := s.requests.eraseIdx i }
      | some p => { s with requests := s.requests.set i (.upsert { p with apiKeyRef := ref }) }
    | some (.upsert p) =>
      { s.write (.mutate (.upsertProvider p)) with requests := s.requests.eraseIdx i }
  | .poll o => { s with plane := s.plane.step o.toPlane }
  | .rebuild force =>
    { s with watcher := s.watcher.rebuild (s.resolve env decrypt) force s.plane.store }

/-- The dispatcher was built from the current generation. -/
def Built (s : Gateway) : Prop :=
  s.watcher.disp ≠ none ∧ s.watcher.lastVersion = toString s.plane.tables.generation

instance (s : Gateway) : Decidable s.Built := inferInstanceAs (Decidable (_ ∧ _))

/-- A `POST` writes its credential while the dispatcher is not built from the generation yet. -/
def InTime (s : Gateway) : Op → Prop
  | .resume i =>
    match s.requests[i]? with
    | some (.credential _ _) => ¬ s.Built
    | _ => True
  | _ => True

instance (s : Gateway) (o : Op) : Decidable (s.InTime o) := by
  unfold InTime
  split
  · split <;> infer_instance
  · infer_instance

/-- The forwarders of the provider have the key of the row `name`, if there is one. -/
def Serves (fs : Forwarders) (t : Tables) (p : Provider) (name : String) : Prop :=
  ∀ cred, t.getCredential name = some cred → ∃ key, decrypt cred = some key ∧ fs.Carries p key

/-- There is a dispatcher, and every provider with a stored credential is served with it. -/
def Fresh (s : Gateway) : Prop :=
  ∃ fs, s.watcher.disp = some fs ∧ ∀ p ∈ s.plane.tables.providers, ∀ name,
    p.apiKeyRef = dbProviderRef name → Serves decrypt fs s.plane.tables p name

/-! ## What a built dispatcher has -/

variable {env encrypt decrypt}

variable (decrypt) in
/-- The dispatcher of the current generation has the stored keys, but for those that a `PATCH` in
flight has written: it will bump the generation when it is done. -/
structure Inv (s : Gateway) : Prop where
  plane : s.plane.Inv
  keys : s.plane.tables.Keys
  foreignKey : s.plane.tables.ForeignKey
  watcher : s.watcher.lastVersion = "" ∨
    ∃ v ≤ s.plane.tables.generation, s.watcher.lastVersion = toString v
  fresh : s.Built → ∀ fs, s.watcher.disp = some fs → ∀ p ∈ s.plane.tables.providers, ∀ name,
    p.apiKeyRef = dbProviderRef name → (∀ r ∈ s.requests, ¬ r.Patches name) →
      Serves decrypt fs s.plane.tables p name

theorem inv_initial : Inv decrypt initial where
  plane := Plane.inv_initial
  keys := ⟨List.nodup_nil, List.nodup_nil, List.nodup_nil⟩
  foreignKey := fun _ hc ↦ absurd hc List.not_mem_nil
  watcher := .inl rfl
  fresh := fun hbuilt ↦ absurd rfl hbuilt.1

/-- A write that bumps the generation leaves every dispatcher behind. -/
theorem Inv.bump {s : Gateway} (h : Inv decrypt s) {o : Config.Op}
    (hgen : (s.plane.tables.step o).generation = s.plane.tables.generation + 1)
    (requests : List Pending) : Inv decrypt { s.write o with requests := requests } where
  plane := Plane.step_inv s.plane (.write o) h.plane
  keys := step_keys _ _ h.keys
  foreignKey := step_foreignKey _ _ h.foreignKey
  watcher := by
    refine h.watcher.imp id ?_
    rintro ⟨v, hv, hversion⟩
    refine ⟨v, ?_, hversion⟩
    show v ≤ (s.plane.tables.step o).generation
    omega
  fresh := by
    rintro ⟨-, hversion⟩
    have hlast : s.watcher.lastVersion = toString (s.plane.tables.generation + 1) :=
      hversion.trans (congrArg toString hgen)
    rcases h.watcher with hempty | ⟨v, hv, hv'⟩
    · rw [hempty] at hlast
      exact absurd hlast.symm Nat.repr_ne_empty
    · have := toString_injective (hv'.symm.trans hlast)
      omega

/-- A write of a credential, which leaves the rest of the tables alone. -/
theorem Inv.upsertCredential {s : Gateway} (h : Inv decrypt s) (name : String) (cred : Credential)
    (requests : List Pending)
    (hfresh : s.Built → ∀ fs, s.watcher.disp = some fs → ∀ p ∈ s.plane.tables.providers, ∀ name',
      p.apiKeyRef = dbProviderRef name' → (∀ r ∈ requests, ¬ r.Patches name') →
        Serves decrypt fs (s.plane.tables.step (.upsertCredential name cred)) p name') :
    Inv decrypt { s.write (.upsertCredential name cred) with requests := requests } := by
  obtain ⟨hgen, hcontents⟩ := step_quiet s.plane.tables (o := .upsertCredential name cred) trivial
  refine ⟨Plane.step_inv s.plane (.write (.upsertCredential name cred)) h.plane,
    step_keys _ (.upsertCredential name cred) h.keys,
    step_foreignKey _ (.upsertCredential name cred) h.foreignKey, ?_, ?_⟩
  · refine h.watcher.imp id ?_
    rintro ⟨v, hv, hversion⟩
    exact ⟨v, hv.trans_eq hgen.symm, hversion⟩
  · rintro ⟨hdisp, hversion⟩ fs hfs p hp
    refine hfresh ⟨hdisp, hversion.trans (congrArg toString hgen)⟩ fs hfs p ?_
    exact congrArg Contents.providers hcontents ▸ hp

theorem getCredential_of_ne {t : Tables} {name name' : String} (cred : Credential)
    (hne : name ≠ name') :
    (t.step (.upsertCredential name cred)).getCredential name' = t.getCredential name' := by
  simp only [Tables.step, Tables.upsertCredential]
  split
  · rw [Option.getD_some, Tables.getCredential, Table.find_upsert, if_neg hne]
    rfl
  · rfl

theorem getCredential_eq_none {t : Tables} (h : t.ForeignKey) {name : String}
    (hnone : t.getProvider name = none) : t.getCredential name = none := by
  rw [Tables.getCredential, Option.map_eq_none_iff, Table.find_eq_none_iff]
  rintro c hc rfl
  obtain ⟨p, hp, hname⟩ := h c hc
  exact Table.find_eq_none_iff.mp hnone p hp hname

/-- A request that is not the one at `i` stays when that one goes. -/
theorem mem_eraseIdx_of_ne {l : List Pending} {i : Nat} {a b : Pending} (ha : l[i]? = some a)
    (hb : b ∈ l) (hne : b ≠ a) : b ∈ l.eraseIdx i := by
  obtain ⟨j, hj⟩ := List.mem_iff_getElem?.mp hb
  refine List.mem_eraseIdx_iff_getElem?.mpr ⟨j, ?_, hj⟩
  rintro rfl
  exact hne (Option.some.inj (hj.symm.trans ha))

theorem mem_set_of_ne {l : List Pending} {i : Nat} {a b c : Pending} (ha : l[i]? = some a)
    (hb : b ∈ l) (hne : b ≠ a) : b ∈ l.set i c := by
  obtain ⟨j, hj⟩ := List.mem_iff_getElem?.mp hb
  refine List.mem_iff_getElem?.mpr ⟨j, ?_⟩
  rw [List.getElem?_set_ne, hj]
  rintro rfl
  exact hne (Option.some.inj (hj.symm.trans ha))

theorem poll_tables (s : Plane) (o : PollOp) : (s.step o.toPlane).tables = s.tables :=
  (s.step_moves _).tables (by cases o <;> simp [PollOp.toPlane])

theorem Inv.poll {s : Gateway} (h : Inv decrypt s) (o : PollOp) :
    Inv decrypt { s with plane := s.plane.step o.toPlane } := by
  have htables := poll_tables s.plane o
  refine ⟨Plane.step_inv _ _ h.plane, ?_, ?_, ?_, ?_⟩
  · rw [htables]; exact h.keys
  · rw [htables]; exact h.foreignKey
  · rw [htables]; exact h.watcher
  · rw [Built, htables]; exact h.fresh

/-- A dispatcher that is built from the current generation has the keys that are stored. -/
theorem Inv.rebuild {s : Gateway} (h : Inv decrypt s) (force : Bool) :
    Inv decrypt
      { s with watcher := s.watcher.rebuild (s.resolve env decrypt) force s.plane.store } := by
  rcases s.watcher.rebuild_cases (s.resolve env decrypt) force s.plane.store with
    ⟨hsame, -⟩ | ⟨fs, hbuild, hnew⟩
  · rw [hsame]
    exact h
  · rw [hnew]
    refine ⟨h.plane, h.keys, h.foreignKey, ?_, ?_⟩
    · refine h.plane.store.imp id ?_
      rintro ⟨v, hv, hversion, -⟩
      exact ⟨v, hv, hversion⟩
    · rintro ⟨-, hversion⟩ fs' hfs' p hp name href -
      obtain rfl := Option.some.inj hfs'
      have hcur : Plane.Current s.plane.tables s.plane.store := by
        refine h.plane.store.resolve_left fun hempty ↦ ?_
        exact Nat.repr_ne_empty (hversion.symm.trans hempty)
      have hproviders : s.plane.store.providers = s.plane.tables.providers :=
        congrArg Dynamic.providers (hcur.eq_dynamic hversion)
      obtain ⟨apiKey, hkey, hcarries⟩ :=
        buildDispatcher_ok hbuild (hproviders ▸ h.keys.providers) p (hproviders ▸ hp)
      rw [href] at hkey
      obtain ⟨enc, henc, hdec⟩ := resolveSecret_dbProviderRef _ _ _ hkey
      intro cred hcred
      obtain rfl := Option.some.inj (henc.symm.trans hcred)
      exact ⟨apiKey, hdec, hcarries⟩

theorem Inv.post {s : Gateway} (h : Inv decrypt s) (p : Provider) (apiKey : String)
    (nonce : List UInt8) : Inv decrypt (s.step env encrypt decrypt (.post p apiKey nonce)) := by
  rw [step]
  split
  · exact h
  · split
    · exact h
    · dsimp only
      split
      · exact h.bump rfl s.requests
      · exact h.bump rfl _

theorem Inv.patchCredential {s : Gateway} (h : Inv decrypt s) (name apiKey apiKeyRef : String)
    (nonce : List UInt8) :
    Inv decrypt (s.step env encrypt decrypt (.patchCredential name apiKey apiKeyRef nonce)) := by
  rw [step]
  split
  · exact h
  · dsimp only
    split
    · refine { h with fresh := fun hbuilt fs hfs p hp name' href hpending ↦ ?_ }
      exact h.fresh hbuilt fs hfs p hp name' href fun r hr ↦ hpending r (List.mem_append_left _ hr)
    · split
      · exact h
      · refine h.upsertCredential name _ _ fun hbuilt fs hfs p hp name' href hpending ↦ ?_
        -- The credential of `name` is covered by the request, and the others are as they were.
        have hne : name ≠ name' := hpending _ (List.mem_append_right _ (List.mem_singleton.mpr rfl))
        intro cred hcred
        rw [getCredential_of_ne _ hne] at hcred
        exact h.fresh hbuilt fs hfs p hp name' href
          (fun r hr ↦ hpending r (List.mem_append_left _ hr)) cred hcred

theorem Inv.resume {s : Gateway} (h : Inv decrypt s) {i : Nat} (hin : s.InTime (.resume i)) :
    Inv decrypt (s.step env encrypt decrypt (.resume i)) := by
  rw [InTime] at hin
  rw [step]
  split
  · exact h
  · rename_i name cred hi
    rw [hi] at hin
    exact h.upsertCredential name cred _ fun hbuilt ↦ absurd hbuilt hin
  · rename_i name ref hi
    split
    · rename_i hnone
      refine { h with fresh := fun hbuilt fs hfs p hp name' href hpending ↦ ?_ }
      by_cases hname : name = name'
      · subst hname
        intro cred hcred
        rw [getCredential_eq_none h.foreignKey hnone] at hcred
        cases hcred
      · refine h.fresh hbuilt fs hfs p hp name' href fun r hr ↦ ?_
        by_cases hr' : r = .pointer name ref
        · rw [hr']
          exact hname
        · exact hpending r (mem_eraseIdx_of_ne hi hr hr')
    · rename_i q hq
      refine { h with fresh := fun hbuilt fs hfs p hp name' href hpending ↦ ?_ }
      refine h.fresh hbuilt fs hfs p hp name' href fun r hr ↦ ?_
      by_cases hr' : r = .pointer name ref
      · rw [hr', Pending.Patches, ← (Table.mem_of_find hq).2]
        have hlt : i < s.requests.length := (List.getElem?_eq_some_iff.mp hi).1
        exact hpending _ (List.mem_set hlt _)
      · exact hpending r (mem_set_of_ne hi hr hr')
  · exact h.bump rfl _

theorem step_inv (s : Gateway) (o : Op) (hin : s.InTime o) (h : Inv decrypt s) :
    Inv decrypt (s.step env encrypt decrypt o) := by
  cases o with
  | mutate m =>
    rcases mutate_generation s.plane.tables m with hsame | hbump
    · have hstep : s.step env encrypt decrypt (.mutate m) = s := by
        rw [step, write, Plane.step, Tables.step, hsame]
      rw [hstep]
      exact h
    · exact Inv.bump h (o := .mutate m) hbump s.requests
  | post p apiKey nonce => exact h.post p apiKey nonce
  | patchCredential name apiKey apiKeyRef nonce =>
      exact h.patchCredential name apiKey apiKeyRef nonce
  | resume i => exact h.resume hin
  | poll o => exact h.poll o
  | rebuild force => exact h.rebuild force

/-! ## After the last write -/

/-- A step of the data plane, which writes nothing. -/
def Op.DataPlane : Op → Prop
  | .poll _ => True
  | .rebuild _ => True
  | _ => False

variable (decrypt) in
/-- What holds from the instant `s₀` on, at which no request and no fetch was in flight. -/
structure Quiescent (s₀ s : Gateway) : Prop where
  inv : Inv decrypt s
  tables : s.plane.tables = s₀.plane.tables
  requests : s.requests = []
  settled : Plane.Settled s₀.plane.polls s.plane

theorem Quiescent.step {s₀ s : Gateway} (h : Quiescent decrypt s₀ s) {o : Op}
    (ho : o.DataPlane) : Quiescent decrypt s₀ (s.step env encrypt decrypt o) := by
  cases o with
  | poll o =>
    refine ⟨h.inv.poll o, (poll_tables s.plane o).trans h.tables, h.requests, ?_⟩
    exact Plane.step_settled (by cases o <;> trivial) h.inv.plane h.settled
  | rebuild force => exact ⟨h.inv.rebuild force, h.tables, h.requests, h.settled⟩
  | mutate | post | patchCredential | resume => exact ho.elim

theorem Quiescent.run {s₀ s : Gateway} (h : Quiescent decrypt s₀ s) {ops : List Op}
    (hops : ∀ o ∈ ops, o.DataPlane) :
    Quiescent decrypt s₀ (Run.run (Gateway.step env encrypt decrypt) s ops) := by
  induction ops generalizing s with
  | nil => exact h
  | cons o ops ih =>
    exact ih (h.step (hops o (List.mem_cons_self ..))) fun o' ho' ↦
      hops o' (List.mem_cons_of_mem _ ho')

/-- Once a poll has ended, a dispatcher of the current generation stays one. -/
theorem Quiescent.built_step {s₀ s : Gateway} (h : Quiescent decrypt s₀ s)
    (hpoll : s₀.plane.polls < s.plane.polls) (hbuilt : s.Built) {o : Op} (ho : o.DataPlane) :
    s₀.plane.polls < (s.step env encrypt decrypt o).plane.polls ∧
      (s.step env encrypt decrypt o).Built := by
  cases o with
  | poll o =>
    refine ⟨hpoll.trans_le (s.plane.step_moves _).polls_le, hbuilt.1, ?_⟩
    rw [Gateway.step, poll_tables]
    exact hbuilt.2
  | rebuild force =>
    refine ⟨hpoll, ?_⟩
    rcases s.watcher.rebuild_cases (s.resolve env decrypt) force s.plane.store with
      ⟨hsame, -⟩ | ⟨fs, -, hnew⟩
    · rw [Built, Gateway.step, hsame]
      exact hbuilt
    · rw [Built, Gateway.step, hnew]
      exact ⟨Option.some_ne_none fs, congrArg Dynamic.version (h.settled.polled hpoll)⟩
  | mutate | post | patchCredential | resume => exact ho.elim

theorem Quiescent.built_run {s₀ s : Gateway} (h : Quiescent decrypt s₀ s)
    (hpoll : s₀.plane.polls < s.plane.polls) (hbuilt : s.Built) {ops : List Op}
    (hops : ∀ o ∈ ops, o.DataPlane) : (Run.run (Gateway.step env encrypt decrypt) s ops).Built := by
  induction ops generalizing s with
  | nil => exact hbuilt
  | cons o ops ih =>
    have ho := hops o (List.mem_cons_self ..)
    obtain ⟨hpoll', hbuilt'⟩ := h.built_step hpoll hbuilt ho
    exact ih (h.step ho) hpoll' hbuilt' fun o' ho' ↦ hops o' (List.mem_cons_of_mem _ ho')

/-- Without requests in flight, a dispatcher of the current generation is fresh. -/
theorem Quiescent.fresh {s₀ s : Gateway} (h : Quiescent decrypt s₀ s) (hbuilt : s.Built) :
    Fresh decrypt s := by
  obtain ⟨fs, hfs⟩ := Option.ne_none_iff_exists'.mp hbuilt.1
  refine ⟨fs, hfs, fun p hp name href ↦ h.inv.fresh hbuilt fs hfs p hp name href ?_⟩
  rw [h.requests]
  exact fun r hr ↦ absurd hr List.not_mem_nil

/-- **Credential freshness.**  In a run in which every `POST` writes its credential in time, let all
writes be done, no fetch be in flight, and every provider be usable.  When the data plane then polls
and refreshes, its dispatcher has the credentials that are stored. -/
theorem rotation_fresh (ops : List Op)
    (hin : Run.Along (step env encrypt decrypt) InTime initial ops) (s : Gateway)
    (hs : s = Run.run (step env encrypt decrypt) initial ops) (hdone : s.requests = [])
    (hidle : s.plane.fetch = none)
    (husable : ∀ p ∈ s.plane.tables.providers, p.Usable (s.resolve env decrypt))
    (ops₁ ops₂ : List Op) (hops₁ : ∀ o ∈ ops₁, o.DataPlane) (hops₂ : ∀ o ∈ ops₂, o.DataPlane)
    (hpoll : s.plane.polls < (Run.run (step env encrypt decrypt) s ops₁).plane.polls) :
    Fresh decrypt (Run.run (step env encrypt decrypt) s (ops₁ ++ .rebuild false :: ops₂)) := by
  have hinv : Inv decrypt s := by
    rw [hs]
    exact Run.invariant_along (fun s o hin h ↦ step_inv s o hin h) hin inv_initial
  have hquiet : Quiescent decrypt s s := ⟨hinv, rfl, hdone, .of_idle hidle⟩
  obtain ⟨s₁, hs₁⟩ : ∃ s₁, s₁ = Run.run (step env encrypt decrypt) s ops₁ := ⟨_, rfl⟩
  rw [Run.run_append, Run.run_cons, ← hs₁]
  rw [← hs₁] at hpoll
  have hquiet₁ : Quiescent decrypt s s₁ := hs₁ ▸ hquiet.run hops₁
  have hstore : s₁.plane.store = s₁.plane.dynamic := hquiet₁.settled.polled hpoll
  have hbuilt : (s₁.step env encrypt decrypt (.rebuild false)).Built := by
    rcases s₁.watcher.rebuild_cases (s₁.resolve env decrypt) false s₁.plane.store with
      ⟨hsame, ⟨hversion, hdisp⟩ | ⟨e, he⟩⟩ | ⟨fs, -, hnew⟩
    · rw [Built, step, hsame]
      exact ⟨hdisp, by rw [← hversion, hstore]; rfl⟩
    · obtain ⟨fs, hfs⟩ : ∃ fs, buildDispatcher (s.resolve env decrypt) s.plane.dynamic = .ok fs :=
        buildDispatcher_ok_iff.mpr husable
      rw [hstore, resolve, Plane.dynamic, hquiet₁.tables] at he
      rw [resolve, Plane.dynamic, he] at hfs
      cases hfs
    · rw [Built, step, hnew]
      exact ⟨Option.some_ne_none fs, congrArg Dynamic.version hstore⟩
  have hquiet₂ : Quiescent decrypt s (s₁.step env encrypt decrypt (.rebuild false)) :=
    hquiet₁.step trivial
  exact (hquiet₂.run hops₂).fresh (hquiet₂.built_run hpoll hbuilt hops₂)

/-! ## A rotation that is missed -/

/-- A cipher that runs. -/
def sampleEncrypt (nonce : List UInt8) (plaintext : String) : Credential :=
  ⟨plaintext.toList.map fun c ↦ UInt8.ofNat c.toNat, nonce, "AES-256-GCM", "v0"⟩

def sampleDecrypt (cred : Credential) : Option String :=
  some (String.ofList (cred.ciphertext.map fun b ↦ Char.ofNat b.toNat))

def sampleStep : Gateway → Op → Gateway := step (fun _ ↦ none) sampleEncrypt sampleDecrypt

/-- A poll that runs by itself. -/
def Op.sync : List Op :=
  [.poll .send, .poll .read, .poll .read, .poll .read, .poll .read, .poll .read, .poll .read,
    .poll .answer, .poll .receive]

/-- The provider is created with one key, and created again with another.  The data plane polls and
refreshes between the two writes of the second request. -/
def Op.missed : List Op :=
  [.post .sample "old" [], .resume 0] ++ Op.sync ++ [.rebuild false, .post .sample "new" []] ++
    Op.sync ++ [.rebuild false, .resume 0]

/-- The new key is stored, another poll and refresh have run, and the forwarder has the old key. -/
theorem rotation_missed :
    let s := Run.run sampleStep initial Op.missed
    let s' := Run.run sampleStep s (Op.sync ++ [.rebuild false])
    s.requests = [] ∧ s.plane.fetch = none ∧
      s.plane.polls < (Run.run sampleStep s Op.sync).plane.polls ∧
      (s'.plane.tables.getCredential "openai-prod").bind sampleDecrypt = some "new" ∧
      (s'.watcher.disp.bind fun fs ↦ (fs.get ⟨"openai-prod", "openai"⟩).map Forwarder.apiKey) =
        some "old" ∧
      ¬ Fresh sampleDecrypt s' := by
  intro s s'
  have hstored : (s'.plane.tables.getCredential "openai-prod").bind sampleDecrypt = some "new" := by
    decide
  have hold : (s'.watcher.disp.bind fun fs ↦
      (fs.get ⟨"openai-prod", "openai"⟩).map Forwarder.apiKey) = some "old" := by
    decide
  refine ⟨by decide, by decide, by decide, hstored, hold, ?_⟩
  rintro ⟨fs, hfs, hall⟩
  obtain ⟨cred, hcred, hdec⟩ := Option.bind_eq_some_iff.mp hstored
  obtain ⟨key, hkey, hcarries⟩ := hall .sample (by decide) "openai-prod" (by decide) cred hcred
  obtain ⟨f, hf, hfkey⟩ := hcarries ⟨"", "openai", "https://api.openai.com/v1", none⟩ (by decide)
  have hf' : fs.get ⟨"openai-prod", "openai"⟩ = some f := hf
  rw [hfs, Option.bind_some, hf', Option.map_some, hfkey,
    Option.some.inj (hkey.symm.trans hdec)] at hold
  exact absurd hold (by decide)

/-- The same requests, when the data plane comes after the second write. -/
def Op.inTime : List Op :=
  [.post .sample "old" [], .resume 0, .rebuild false, .post .sample "new" [], .resume 0]

theorem rotation_fresh_sample :
    Fresh sampleDecrypt (Run.run sampleStep (Run.run sampleStep initial Op.inTime)
      (Op.sync ++ [.rebuild false])) := by
  have hbuild : ∃ fs, buildDispatcher
      ((Run.run sampleStep initial Op.inTime).resolve (fun _ ↦ none) sampleDecrypt)
      (Run.run sampleStep initial Op.inTime).plane.dynamic = .ok fs := ⟨_, rfl⟩
  refine rotation_fresh Op.inTime (by decide) _ rfl (by decide) (by decide)
    (buildDispatcher_ok_iff.mp hbuild) Op.sync [] ?_ (by simp) (by decide)
  simp [Op.sync, Op.DataPlane]

end Gateway

end Config
end Voxeltoad
