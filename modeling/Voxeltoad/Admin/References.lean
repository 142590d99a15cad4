import Voxeltoad.Admin.Config

/-!
# Referential integrity of the configuration

Routes name a model and providers, and models name providers, inside JSON documents.  No foreign key
looks into them; `Linked` is what the handlers of the configuration endpoints keep up instead.
Every request that could break a link in one direction is refused by a check of its own, and a
rollback puts back a configuration that was linked when it was saved.
-/

set_option autoImplicit false

namespace Voxeltoad
namespace Admin

open Response
open Config hiding Op

/-- Every route is for a model that has its providers as upstreams, and every upstream of a model is
a provider. -/
structure Linked (providers : List Config.Provider) (models : List Config.Model)
    (routes : List Config.Route) : Prop where
  route : ∀ rt ∈ routes, ∃ m, Table.find Config.Model.modelAlias rt.modelAlias models = some m ∧
    ∀ rp ∈ rt.providers, ∃ u ∈ m.upstreams, u.provider = rp.name
  upstream : ∀ m ∈ models, ∀ u ∈ m.upstreams, ∃ p ∈ providers, p.name = u.provider

/-! ## What keeps the links -/

theorem Linked.of_providers {providers providers' : List Config.Provider}
    {models : List Config.Model} {routes : List Config.Route} (h : Linked providers models routes)
    (hkeep : ∀ m ∈ models, ∀ u ∈ m.upstreams, (∃ p ∈ providers, p.name = u.provider) →
      ∃ p ∈ providers', p.name = u.provider) : Linked providers' models routes where
  route := h.route
  upstream := fun m hm u hu ↦ hkeep m hm u hu (h.upstream m hm u hu)

theorem Linked.of_routes {providers : List Config.Provider} {models : List Config.Model}
    {routes routes' : List Config.Route} (h : Linked providers models routes)
    (hsub : ∀ rt ∈ routes', rt ∈ routes ∨
      ∃ m, Table.find Config.Model.modelAlias rt.modelAlias models = some m ∧
        ∀ rp ∈ rt.providers, ∃ u ∈ m.upstreams, u.provider = rp.name) :
    Linked providers models routes' where
  route := fun rt hrt ↦ (hsub rt hrt).elim (h.route rt) id
  upstream := h.upstream

/-- A model takes the place of the one with its alias.  Its upstreams are providers, and they cover
the route of the alias. -/
theorem Linked.of_model {providers : List Config.Provider} {models models' : List Config.Model}
    {routes : List Config.Route} (h : Linked providers models routes) {m : Config.Model}
    (hmem : ∀ m' ∈ models', m' = m ∨ m' ∈ models)
    (hfind : ∀ k, Table.find Config.Model.modelAlias k models' =
      if m.modelAlias = k then some m else Table.find Config.Model.modelAlias k models)
    (hup : ∀ u ∈ m.upstreams, ∃ p ∈ providers, p.name = u.provider)
    (hroute : ∀ rt ∈ routes, rt.modelAlias = m.modelAlias →
      ∀ rp ∈ rt.providers, ∃ u ∈ m.upstreams, u.provider = rp.name) :
    Linked providers models' routes where
  route := by
    intro rt hrt
    rw [hfind]
    split
    · rename_i heq
      exact ⟨m, rfl, hroute rt hrt heq.symm⟩
    · exact h.route rt hrt
  upstream := by
    intro m' hm'
    rcases hmem m' hm' with rfl | hm'
    · exact hup
    · exact h.upstream m' hm'

/-! ## What the checks say -/

theorem checkUpstreams_none {t : Tables} {modelAlias : String} {upstreams : List ModelUpstream}
    (h : checkUpstreams t modelAlias upstreams = none) :
    (∀ u ∈ upstreams, ∃ p ∈ t.providers, p.name = u.provider) ∧
      ∀ rt, t.getRoute modelAlias = some rt → ∀ rp ∈ rt.providers,
        ∃ u ∈ upstreams, u.provider = rp.name := by
  rw [checkUpstreams] at h
  split at h
  · cases h
  · rename_i hknown
    split at h
    · cases h
    · rename_i horphan
      refine ⟨fun u hu ↦ ?_, fun rt hrt rp hrp ↦ ?_⟩
      · simpa using List.find?_eq_none.mp hknown u hu
      · rw [hrt, Option.bind_some] at horphan
        simpa using List.find?_eq_none.mp horphan rp hrp

theorem checkRoute_none {t : Tables} {modelAlias strategy : String} {providers : List RouteProvider}
    (h : checkRoute t modelAlias strategy providers = none) :
    ∃ m, t.getModel modelAlias = some m ∧
      ∀ rp ∈ providers, ∃ u ∈ m.upstreams, u.provider = rp.name := by
  rw [checkRoute] at h
  split at h
  · cases h
  · split at h
    · cases h
    · split at h
      · cases h
      · rename_i m hm
        split at h
        · cases h
        · rename_i hup
          refine ⟨m, hm, fun rp hrp ↦ ?_⟩
          simpa using List.find?_eq_none.mp hup rp hrp

/-! ## The handlers -/

/-- The configuration is linked, and so is everything that can be rolled back to. -/
structure References (t : Tables) : Prop where
  keys : t.Keys
  linked : Linked t.providers t.models t.routes
  saved : ∀ row ∈ t.snapshots,
    Linked row.payload.providers row.payload.models row.payload.routes

theorem References.upsertProvider {t : Tables} (h : References t) (p : Config.Provider) :
    References (t.upsertProvider p) where
  keys := (Mutated.upsertProvider p).keys h.keys
  linked := h.linked.of_providers fun _ _ _ _ ⟨q, hq, hname⟩ ↦ by
    obtain ⟨q', hq', hname'⟩ := upsert_names (p := p) q hq
    exact ⟨q', hq', hname'.trans hname⟩
  saved := h.saved

theorem References.persist {service : Service} {t t' : Tables} (h : References t)
    {name apiKey : String} {nonce : List UInt8}
    (ht : persistProviderCredential service t name apiKey nonce = .ok t') : References t' := by
  unfold persistProviderCredential at ht
  split at ht
  · cases ht
    exact h
  · split at ht
    · cases ht
    · rename_i encrypt
      split at ht
      · cases ht
      · rename_i t₁ ht₁
        cases ht
        rw [Tables.upsertCredential] at ht₁
        split at ht₁
        · cases ht₁
          exact ⟨{ h.keys with }, h.linked, h.saved⟩
        · cases ht₁

theorem References.postProvider {service : Service} {t : Tables} (h : References t)
    (body : ProviderRequest) (nonce : List UInt8) :
    References (postProvider service body nonce t).2 := by
  rw [Admin.postProvider]
  split
  · exact h
  · split
    · exact h
    · dsimp only
      split
      · exact h.upsertProvider _
      · rename_i t' ht'
        exact (h.upsertProvider _).persist ht'

theorem References.patchProvider {t : Tables} (h : References t) (name : String)
    (patch : ProviderPatch) : References (patchProvider name patch t).2 := by
  rw [Admin.patchProvider]
  split
  · exact h
  · rw [Tables.patchProvider]
    cases t.getProvider name with
    | none => exact h
    | some p =>
      refine ⟨(Mutated.patchProvider name patch).keys h.keys, ?_, h.saved⟩
      refine h.linked.of_providers fun _ _ _ _ hprovider ↦ ?_
      obtain ⟨q, hq, hname⟩ := hprovider
      refine ⟨_, Table.mem_modify.mpr ⟨q, hq, rfl⟩, ?_⟩
      split <;> exact hname

theorem References.deleteProvider {t : Tables} (h : References t) (name : String) :
    References (deleteProvider name t).2 := by
  rw [Admin.deleteProvider]
  split
  · exact h
  · rename_i hrefs
    refine ⟨{ (Mutated.deleteProvider name).keys h.keys with }, ?_, h.saved⟩
    refine h.linked.of_providers fun m hm u hu ⟨p, hp, hname⟩ ↦ ?_
    refine ⟨p, List.mem_filter.mpr ⟨hp, ?_⟩, hname⟩
    -- A provider that an upstream names is not the one that is deleted.
    have hne : p.name ≠ name := by
      rintro rfl
      have hmem : m.modelAlias ∈ modelsReferring t p.name := by
        rw [modelsReferring, List.mem_insertionSort]
        exact List.mem_map_of_mem (List.mem_filter.mpr ⟨hm, by simpa using ⟨u, hu, hname.symm⟩⟩)
      exact hrefs (.inl (List.ne_nil_of_mem hmem))
    simpa using hne

theorem References.patchCredential {service : Service} {t : Tables} (h : References t)
    (name : String) (body : PatchCredential) (nonce : List UInt8) :
    References (patchCredential service name body nonce t).2 := by
  rw [Admin.patchCredential]
  split
  · exact h
  · split
    · exact h
    · rename_i t' ht'
      dsimp only
      split
      · exact h.persist ht'
      · exact (h.persist ht').upsertProvider _

theorem References.postModel {t : Tables} (h : References t) (m : Config.Model) :
    References (postModel m t).2 := by
  rw [Admin.postModel]
  split
  · exact h
  · split
    · exact h
    · rename_i hcheck
      obtain ⟨hup, hroute⟩ := checkUpstreams_none hcheck
      refine ⟨(Mutated.upsertModel m).keys h.keys, ?_, h.saved⟩
      refine h.linked.of_model (fun m' hm' ↦ ?_) (fun k ↦ Table.find_upsert) hup ?_
      · exact (Table.mem_upsert.mp hm').imp id And.left
      · intro rt hrt halias
        refine hroute rt ?_
        rw [← halias]
        exact h.keys.routes.find_of_mem hrt

theorem References.patchModel {t : Tables} (h : References t) (modelAlias : String)
    (patch : ModelPatch) : References (patchModel modelAlias patch t).2 := by
  rw [Admin.patchModel]
  split
  · exact h
  · rename_i current hcurrent
    split
    · exact h
    · rename_i hcheck
      obtain ⟨hup, hroute⟩ := checkUpstreams_none hcheck
      obtain ⟨hmem, rfl⟩ := Table.mem_of_find hcurrent
      rw [Tables.patchModel, hcurrent, Option.map_some]
      refine ⟨(Mutated.patchModel current.modelAlias patch).keys h.keys, ?_, h.saved⟩
      refine h.linked.of_model (m := patch.apply current) ?_
        (Table.find_modify_of_find patch.apply_modelAlias hcurrent) hup ?_
      · intro m' hm'
        obtain ⟨m₀, hm₀, rfl⟩ := Table.mem_modify.mp hm'
        split
        · rename_i heq
          rw [h.keys.models.eq_of_key hm₀ hmem heq]
          exact .inl rfl
        · exact .inr hm₀
      · intro rt hrt halias
        refine hroute rt ?_
        rw [← patch.apply_modelAlias current, ← halias]
        exact h.keys.routes.find_of_mem hrt

theorem References.deleteModel {t : Tables} (h : References t) (modelAlias : String) :
    References (deleteModel modelAlias t).2 := by
  rw [Admin.deleteModel]
  split
  · exact h
  · rename_i hrefs
    refine ⟨(Mutated.deleteModel modelAlias).keys h.keys, ⟨fun rt hrt ↦ ?_, ?_⟩, h.saved⟩
    · -- A route's model is not the one that is deleted.
      have hne : rt.modelAlias ≠ modelAlias := by
        rw [not_not, List.map_eq_nil_iff] at hrefs
        simpa using List.filter_eq_nil_iff.mp hrefs rt hrt
      obtain ⟨m, hm, hproviders⟩ := h.linked.route rt hrt
      refine ⟨m, h.keys.models.find_filter hm ?_, hproviders⟩
      simpa [(Table.mem_of_find hm).2] using hne
    · exact fun m hm ↦ h.linked.upstream m (List.mem_filter.mp hm).1

theorem References.postRoute {t : Tables} (h : References t) (rt : Config.Route) :
    References (postRoute rt t).2 := by
  rw [Admin.postRoute]
  split
  · exact h
  · split
    · exact h
    · rename_i hcheck
      refine ⟨(Mutated.upsertRoute rt).keys h.keys, ?_, h.saved⟩
      refine h.linked.of_routes fun rt' hrt' ↦ ?_
      rcases Table.mem_upsert.mp hrt' with rfl | ⟨hrt', -⟩
      · exact .inr (checkRoute_none hcheck)
      · exact .inl hrt'

theorem References.patchRoute {t : Tables} (h : References t) (modelAlias : String)
    (patch : RoutePatch) : References (patchRoute modelAlias patch t).2 := by
  rw [Admin.patchRoute]
  split
  · exact h
  · rename_i current hcurrent
    dsimp only
    split
    · exact h
    · rename_i hcheck
      obtain ⟨hmem, rfl⟩ := Table.mem_of_find hcurrent
      rw [Tables.patchRoute, hcurrent, Option.map_some]
      refine ⟨(Mutated.patchRoute current.modelAlias patch).keys h.keys, ?_, h.saved⟩
      refine h.linked.of_routes fun rt' hrt' ↦ ?_
      obtain ⟨rt₀, hrt₀, rfl⟩ := Table.mem_modify.mp hrt'
      split
      · rename_i heq
        rw [h.keys.routes.eq_of_key hrt₀ hmem heq]
        exact .inr (checkRoute_none hcheck)
      · exact .inl hrt₀

theorem References.rollback {t : Tables} (h : References t) (version : Int) :
    References (rollbackHandler version t).2 := by
  rw [rollbackHandler]
  split
  · exact h
  · rw [Tables.rollback]
    cases hsaved : t.getSnapshot version.toNat with
    | none => exact h
    | some d =>
      cases hrestore : t.restore d with
      | error e => simpa [hrestore] using h
      | ok t' =>
        obtain ⟨row, hrow, rfl⟩ := Option.map_eq_some_iff.mp hsaved
        have hlinked := h.saved row (Table.mem_of_find hrow).1
        obtain ⟨⟨hproviders, hmodels, hroutes⟩, rfl⟩ := restore_ok hrestore
        simp only [hrestore]
        exact ⟨⟨hproviders, hmodels, hroutes⟩, hlinked, h.saved⟩

theorem References.patchPlugin {t : Tables} (h : References t) (name scope : String)
    (patch : PluginPatch) : References (patchPlugin name scope patch t).2 := by
  rw [Admin.patchPlugin]
  split
  · exact h
  · rw [Tables.patchPlugin]
    cases t.getPlugin name scope with
    | none => exact h
    | some pc => exact ⟨{ h.keys with }, h.linked, h.saved⟩

theorem References.postPlugin {t : Tables} (h : References t) (pc : PluginConfig) :
    References (postPlugin pc t).2 := by
  rw [Admin.postPlugin]
  split
  · exact h
  · split
    · exact h
    · exact ⟨{ h.keys with }, h.linked, h.saved⟩

theorem handleConfig_references {service : Service} (call : ConfigCall) {t : Tables}
    (h : References t) : References (handleConfig service call t).2 := by
  cases call with
  | postProvider body nonce => exact h.postProvider body nonce
  | patchProvider name patch => exact h.patchProvider name patch
  | deleteProvider name => exact h.deleteProvider name
  | patchCredential name body nonce => exact h.patchCredential name body nonce
  | postModel m => exact h.postModel m
  | patchModel modelAlias patch => exact h.patchModel modelAlias patch
  | deleteModel modelAlias => exact h.deleteModel modelAlias
  | postRoute rt => exact h.postRoute rt
  | patchRoute modelAlias patch => exact h.patchRoute modelAlias patch
  | deleteRoute modelAlias =>
    refine ⟨(Mutated.deleteRoute modelAlias).keys h.keys, ?_, h.saved⟩
    exact h.linked.of_routes fun rt hrt ↦ .inl (List.mem_filter.mp hrt).1
  | postPlugin pc => exact h.postPlugin pc
  | patchPlugin name scope patch => exact h.patchPlugin name scope patch
  | deletePlugin | putSettings => exact ⟨{ h.keys with }, h.linked, h.saved⟩
  | rollback version => exact h.rollback version
  | listProviders | getPlugin | getSettings | history | diff | version | preview => exact h

/-! ## Runs -/

/-- A request that runs to completion, or the save of the current configuration under its
generation. -/
inductive ConfigOp where
  | request (call : ConfigCall)
  | save
  deriving DecidableEq, Repr

def configStep (service : Service) (t : Tables) : ConfigOp → Tables
  | .request call => (handleConfig service call t).2
  | .save => t.saveSnapshot t.generation (t.toContents.dynamic t.generation)

theorem configStep_references {service : Service} (t : Tables) (o : ConfigOp) (h : References t) :
    References (configStep service t o) := by
  cases o with
  | request call => exact handleConfig_references call h
  | save =>
    rw [configStep, Tables.saveSnapshot]
    split
    · exact h
    · refine ⟨{ h.keys with }, h.linked, fun row hrow ↦ ?_⟩
      rcases List.mem_append.mp hrow with hrow | hrow
      · exact h.saved row hrow
      · rw [List.mem_singleton.mp hrow]
        exact h.linked

theorem references_empty : References .empty where
  keys := ⟨List.nodup_nil, List.nodup_nil, List.nodup_nil⟩
  linked := ⟨nofun, nofun⟩
  saved := nofun

/-- **Referential integrity.**  In every state that is reached from the empty configuration, every
route's alias names a model, whose upstreams have all the providers of the route, and every upstream
of every model is a provider. -/
theorem references_intact (service : Service) (ops : List ConfigOp) :
    let t := Run.run (configStep service) .empty ops
    (∀ rt ∈ t.routes, ∃ m, t.getModel rt.modelAlias = some m ∧
        ∀ rp ∈ rt.providers, ∃ u ∈ m.upstreams, u.provider = rp.name) ∧
      ∀ m ∈ t.models, ∀ u ∈ m.upstreams, ∃ p ∈ t.providers, p.name = u.provider := by
  intro t
  have h : References t := Run.invariant configStep_references ops references_empty
  exact ⟨h.linked.route, h.linked.upstream⟩

end Admin
end Voxeltoad
