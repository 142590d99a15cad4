import Voxeltoad.Config.Poll
import Voxeltoad.Lib.Loop
import Voxeltoad.Proxy.Router

/-!
# The dispatcher of the data plane

`BuildDispatcher` of `internal/proxy/assemble.go` and the watcher of `internal/app/watcher.go`.  A
dispatcher has a forwarder for every endpoint of every provider, with the key that the reference of
the provider resolved to *when the dispatcher was built*.  It is rebuilt when the version of the
snapshot has changed, and a rebuild that fails keeps the last dispatcher that was good.

The routes and the preparer of a dispatcher do not depend on credentials, and are left out.
-/

set_option autoImplicit false

namespace Voxeltoad
namespace Config

/-- `NewForwarder`, of an adapter. -/
structure Forwarder where
  adapter : String
  baseURL : String
  apiKey : String
  timeouts : ProviderTimeouts
  deriving DecidableEq, Repr

/-- A map of forwarders: what was put into it last is first. -/
structure Forwarders where
  entries : List (EndpointKey × Forwarder)
  deriving DecidableEq, Repr

namespace Forwarders

def get (fs : Forwarders) (key : EndpointKey) : Option Forwarder :=
  (fs.entries.find? fun e ↦ e.1 = key).map Prod.snd

def put (fs : Forwarders) (key : EndpointKey) (f : Forwarder) : Forwarders :=
  ⟨(key, f) :: fs.entries⟩

theorem get_put (fs : Forwarders) (key key' : EndpointKey) (f : Forwarder) :
    (fs.put key f).get key' = if key = key' then some f else fs.get key' := by
  rw [get, put, List.find?_cons]
  by_cases h : key = key'
  · simp [h]
  · simp [h, get]

end Forwarders

/-- Why an adapter cannot be made. -/
inductive AdapterError where
  | unknownProvider (name : String)
  | baseURLRequired (name : String)
  deriving DecidableEq, Repr

/-- `adapter.New`, of the two registered adapters: both need a base URL. -/
def newAdapter (name baseURL : String) : Except AdapterError Unit :=
  if name ≠ "openai" ∧ name ≠ "claude" then .error (.unknownProvider name)
  else if baseURL = "" then .error (.baseURLRequired name)
  else .ok ()

/-- Why a dispatcher cannot be built. -/
inductive BuildError where
  | secret (provider : String) (e : SecretError)
  | adapter (provider endpoint : String) (e : AdapterError)
  deriving DecidableEq, Repr

/-- The forwarder of an endpoint. -/
def addEndpoint (p : Provider) (apiKey : String) (fs : Forwarders) (ep : ProviderEndpoint) :
    Except BuildError Forwarders :=
  match newAdapter ep.adapter ep.baseURL with
  | .error e => .error (.adapter p.name ep.endpointID e)
  | .ok () =>
    .ok (fs.put ⟨p.name, ep.endpointID⟩
      ⟨ep.adapter, ep.baseURL, apiKey, ep.timeouts.getD p.timeouts⟩)

/-- The forwarders of a provider. -/
def addProvider (resolve : String → Except SecretError String) (fs : Forwarders) (p : Provider) :
    Except BuildError Forwarders :=
  match resolve p.apiKeyRef with
  | .error e => .error (.secret p.name e)
  | .ok apiKey => p.endpoints.foldlM (addEndpoint p apiKey) fs

/-- **`BuildDispatcher`.** -/
def buildDispatcher (resolve : String → Except SecretError String) (dyn : Dynamic) :
    Except BuildError Forwarders :=
  dyn.providers.foldlM (addProvider resolve) ⟨[]⟩

/-- The adapter of the endpoint is registered, and there is a URL to send requests to. -/
def ProviderEndpoint.Usable (ep : ProviderEndpoint) : Prop :=
  (ep.adapter = "openai" ∨ ep.adapter = "claude") ∧ ep.baseURL ≠ ""

/-- The reference of the provider resolves, and its endpoints are usable. -/
def Provider.Usable (resolve : String → Except SecretError String) (p : Provider) : Prop :=
  (∃ apiKey, resolve p.apiKeyRef = .ok apiKey) ∧ ∀ ep ∈ p.endpoints, ep.Usable

theorem newAdapter_ok_iff {ep : ProviderEndpoint} :
    newAdapter ep.adapter ep.baseURL = .ok () ↔ ep.Usable := by
  rw [newAdapter, ProviderEndpoint.Usable, or_iff_not_and_not]
  split
  · rename_i hunknown
    exact ⟨(fun h ↦ nomatch h), fun h ↦ absurd hunknown h.1⟩
  · rename_i hknown
    split
    · rename_i hurl
      exact ⟨(fun h ↦ nomatch h), fun h ↦ absurd hurl h.2⟩
    · rename_i hurl
      exact ⟨fun _ ↦ ⟨hknown, hurl⟩, fun _ ↦ rfl⟩

theorem addEndpoint_ok_iff {p : Provider} {apiKey : String} {fs : Forwarders}
    {ep : ProviderEndpoint} : (∃ fs', addEndpoint p apiKey fs ep = .ok fs') ↔ ep.Usable := by
  rw [addEndpoint, ← newAdapter_ok_iff]
  cases newAdapter ep.adapter ep.baseURL with
  | error e => simp
  | ok => simp

theorem addProvider_ok_iff {resolve : String → Except SecretError String} {fs : Forwarders}
    {p : Provider} : (∃ fs', addProvider resolve fs p = .ok fs') ↔ p.Usable resolve := by
  rw [addProvider, Provider.Usable]
  cases hkey : resolve p.apiKeyRef with
  | error e => simp
  | ok apiKey =>
    have hloop : (∃ fs', p.endpoints.foldlM (addEndpoint p apiKey) fs = .ok fs') ↔
        ∀ ep ∈ p.endpoints, ep.Usable := by
      refine Loop.foldlM_ok_iff_forall ?_ fs
      exact fun ep _ fs₁ ↦ addEndpoint_ok_iff
    exact hloop.trans ⟨fun h ↦ ⟨⟨apiKey, rfl⟩, h⟩, And.right⟩

/-- **When `BuildDispatcher` succeeds.** -/
theorem buildDispatcher_ok_iff {resolve : String → Except SecretError String} {dyn : Dynamic} :
    (∃ fs, buildDispatcher resolve dyn = .ok fs) ↔ ∀ p ∈ dyn.providers, p.Usable resolve := by
  rw [buildDispatcher]
  refine Loop.foldlM_ok_iff_forall ?_ _
  exact fun p _ fs₁ ↦ addProvider_ok_iff

/-- Every endpoint of the provider has a forwarder with the key. -/
def Forwarders.Carries (fs : Forwarders) (p : Provider) (apiKey : String) : Prop :=
  ∀ ep ∈ p.endpoints, ∃ f, fs.get ⟨p.name, ep.endpointID⟩ = some f ∧ f.apiKey = apiKey

/-- The forwarders of a provider leave those of another one alone, and have its key. -/
theorem addProvider_ok {resolve : String → Except SecretError String} {fs fs' : Forwarders}
    {p : Provider} (h : addProvider resolve fs p = .ok fs') :
    (∃ apiKey, resolve p.apiKeyRef = .ok apiKey ∧ fs'.Carries p apiKey) ∧
      ∀ key : EndpointKey, key.provider ≠ p.name → fs'.get key = fs.get key := by
  rw [addProvider] at h
  split at h
  · cases h
  · rename_i apiKey hkey
    -- `rest` is what is still to be added, and the endpoints before it are there already.
    have hloop := Loop.foldlM_rec
      (fun rest fs₁ ↦ (∀ ep ∈ p.endpoints, ep ∈ rest ∨
          ∃ f, fs₁.get ⟨p.name, ep.endpointID⟩ = some f ∧ f.apiKey = apiKey) ∧
        ∀ key : EndpointKey, key.provider ≠ p.name → fs₁.get key = fs.get key) ?_ h
      ⟨fun ep hep ↦ .inl hep, fun _ _ ↦ rfl⟩
    · refine ⟨⟨apiKey, hkey, fun ep hep ↦ ?_⟩, hloop.2⟩
      exact (hloop.1 ep hep).resolve_left (List.not_mem_nil)
    · rintro ep rest fs₁ fs₂ ⟨hdone, hother⟩ hstep
      rw [addEndpoint] at hstep
      split at hstep
      · cases hstep
      · cases hstep
        refine ⟨fun ep' hep' ↦ ?_, fun key hkey' ↦ ?_⟩
        · rw [Forwarders.get_put]
          by_cases hid : ep.endpointID = ep'.endpointID
          · exact .inr ⟨_, by rw [if_pos (by rw [hid])], rfl⟩
          · rw [if_neg fun heq ↦ hid (congrArg EndpointKey.endpoint heq)]
            rcases hdone ep' hep' with hmem | hf
            · rcases List.mem_cons.mp hmem with rfl | hmem
              · exact absurd rfl hid
              · exact .inl hmem
            · exact .inr hf
        · rw [Forwarders.get_put, if_neg fun heq ↦ hkey' (congrArg EndpointKey.provider heq).symm]
          exact hother key hkey'

/-- **What `BuildDispatcher` builds**: every endpoint of every provider has a forwarder with the key
that the reference resolves to. -/
theorem buildDispatcher_ok {resolve : String → Except SecretError String} {dyn : Dynamic}
    {fs : Forwarders} (h : buildDispatcher resolve dyn = .ok fs)
    (hkeys : Table.Keyed Provider.name dyn.providers) :
    ∀ p ∈ dyn.providers, ∃ apiKey, resolve p.apiKeyRef = .ok apiKey ∧ fs.Carries p apiKey := by
  rw [buildDispatcher] at h
  have hloop := Loop.foldlM_rec
    (fun rest fs₁ ↦ (rest.map Provider.name).Nodup ∧ ∀ p ∈ dyn.providers, p ∈ rest ∨
      (p.name ∉ rest.map Provider.name ∧
        ∃ apiKey, resolve p.apiKeyRef = .ok apiKey ∧ fs₁.Carries p apiKey)) ?_ h
    ⟨hkeys, fun p hp ↦ .inl hp⟩
  · exact fun p hp ↦ ((hloop.2 p hp).resolve_left List.not_mem_nil).2
  · rintro p rest fs₁ fs₂ ⟨hnodup, hdone⟩ hstep
    obtain ⟨hown, hother⟩ := addProvider_ok hstep
    obtain ⟨hfresh, hnodup⟩ := List.nodup_cons.mp hnodup
    refine ⟨hnodup, fun q hq ↦ ?_⟩
    rcases hdone q hq with hmem | ⟨hname, apiKey, hkey, hf⟩
    · rcases List.mem_cons.mp hmem with rfl | hmem
      · exact .inr ⟨hfresh, hown⟩
      · exact .inl hmem
    · rw [List.map_cons, List.mem_cons, not_or] at hname
      refine .inr ⟨hname.2, apiKey, hkey, fun ep hep ↦ ?_⟩
      rw [hother _ hname.1]
      exact hf ep hep

/-! ## The watcher -/

/-- `DispatcherWatcher`. -/
structure Watcher where
  lastVersion : String
  disp : Option Forwarders
  deriving DecidableEq, Repr

/-- **`rebuild`**, which `Refresh` calls without `force`. -/
def Watcher.rebuild (resolve : String → Except SecretError String) (force : Bool) (dyn : Dynamic)
    (w : Watcher) : Watcher :=
  if force = false ∧ dyn.version = w.lastVersion ∧ w.disp ≠ none then w
  else
    match buildDispatcher resolve dyn with
    | .error _ => w
    | .ok fs => ⟨dyn.version, some fs⟩

/-- What a rebuild does. -/
theorem Watcher.rebuild_cases (resolve : String → Except SecretError String) (force : Bool)
    (dyn : Dynamic) (w : Watcher) :
    (w.rebuild resolve force dyn = w ∧
      ((dyn.version = w.lastVersion ∧ w.disp ≠ none) ∨
        ∃ e, buildDispatcher resolve dyn = .error e)) ∨
      ∃ fs, buildDispatcher resolve dyn = .ok fs ∧
        w.rebuild resolve force dyn = ⟨dyn.version, some fs⟩ := by
  rw [rebuild]
  split
  · rename_i hsame
    exact .inl ⟨rfl, .inl hsame.2⟩
  · split
    · rename_i e he
      exact .inl ⟨rfl, .inr ⟨e, he⟩⟩
    · rename_i fs hfs
      exact .inr ⟨fs, hfs, rfl⟩

end Config
end Voxeltoad
