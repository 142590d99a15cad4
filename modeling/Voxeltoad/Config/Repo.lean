import Voxeltoad.Config.Schema
import Voxeltoad.Config.Secret
import Voxeltoad.Lib.Run
import Voxeltoad.Lib.Table

/-!
# The configuration store

`internal/store/config.go`, `config_snapshot.go` and `credential.go`: the tables that the admin
plane keeps the configuration in.  Every mutation is one transaction, and bumps the generation in
it.  `Contents` is what a snapshot is made of; the rows of a table are in the order of their ids, so
an upsert leaves a row in its place and an insert puts it last.

Credentials hang off `providers` by a foreign key that cascades, and are not part of a snapshot.
Their writes do not bump the generation.
-/

set_option autoImplicit false

namespace Voxeltoad
namespace Config

/-- The sections of the configuration. -/
structure Contents where
  providers : List Provider
  models : List Model
  routes : List Route
  plugins : List PluginConfig
  settings : GatewaySettings
  deriving DecidableEq, Repr

/-- `provider_credentials`. -/
structure CredentialRow where
  providerName : String
  credential : Credential
  deriving DecidableEq, Repr

/-- `config_snapshots`. -/
structure SnapshotRow where
  version : Nat
  payload : Dynamic
  deriving DecidableEq, Repr

/-- The tables.  `generation` is the one row of `config_generation`. -/
structure Tables extends Contents where
  generation : Nat
  credentials : List CredentialRow
  snapshots : List SnapshotRow
  deriving DecidableEq, Repr

/-- The tables as the migrations leave them. -/
def Tables.empty : Tables where
  providers := []
  models := []
  routes := []
  plugins := []
  settings := .zero
  generation := 0
  credentials := []
  snapshots := []

/-- What `Snapshot` makes of the contents at a generation. -/
def Contents.dynamic (c : Contents) (generation : Nat) : Dynamic :=
  ⟨toString generation, c.providers, c.models, c.routes, c.plugins, some c.settings⟩

/-- `GetProvider`. -/
def Tables.getProvider (t : Tables) (name : String) : Option Provider :=
  Table.find Provider.name name t.providers

/-- `GetModel`. -/
def Tables.getModel (t : Tables) (modelAlias : String) : Option Model :=
  Table.find Model.modelAlias modelAlias t.models

/-- `GetRoute`. -/
def Tables.getRoute (t : Tables) (modelAlias : String) : Option Route :=
  Table.find Route.modelAlias modelAlias t.routes

/-- The key of a plugin. -/
def PluginConfig.key (pc : PluginConfig) : String × String := (pc.name, pc.scope)

/-- `GetPlugin`. -/
def Tables.getPlugin (t : Tables) (name scope : String) : Option PluginConfig :=
  Table.find PluginConfig.key (name, scope) t.plugins

/-- `CredentialRepo.Get`. -/
def Tables.getCredential (t : Tables) (name : String) : Option Credential :=
  (Table.find CredentialRow.providerName name t.credentials).map CredentialRow.credential

/-- `ConfigSnapshotRepo.Get`. -/
def Tables.getSnapshot (t : Tables) (version : Nat) : Option Dynamic :=
  (Table.find SnapshotRow.version version t.snapshots).map SnapshotRow.payload

/-! ## Mutations -/

/-- `bumpGeneration`. -/
def Tables.bump (t : Tables) : Tables := { t with generation := t.generation + 1 }

/-- `UpsertProvider`. -/
def Tables.upsertProvider (t : Tables) (p : Provider) : Tables :=
  Tables.bump { t with providers := Table.upsert Provider.name p t.providers }

/-- `ProviderPatch`. -/
structure ProviderPatch where
  type : Option String
  endpoints : Option (List ProviderEndpoint)
  apiKeyRef : Option String
  timeouts : Option ProviderTimeouts
  weight : Option Int
  deriving DecidableEq, Repr

/-- The patch applied.  What is `none` is left unchanged. -/
def ProviderPatch.apply (patch : ProviderPatch) (p : Provider) : Provider :=
  { p with
    type := patch.type.getD p.type
    endpoints := patch.endpoints.getD p.endpoints
    apiKeyRef := patch.apiKeyRef.getD p.apiKeyRef
    timeouts := patch.timeouts.getD p.timeouts
    weight := patch.weight.getD p.weight }

@[simp] theorem ProviderPatch.apply_name (patch : ProviderPatch) (p : Provider) :
    (patch.apply p).name = p.name := rfl

/-- `PatchProvider`, with the row it leaves.  There is nothing to bump when there is no row. -/
def Tables.patchProvider (t : Tables) (name : String) (patch : ProviderPatch) :
    Option (Provider × Tables) :=
  (t.getProvider name).map fun p ↦
    (patch.apply p,
      .bump { t with providers := Table.modify Provider.name name patch.apply t.providers })

/-- `DELETE FROM providers`, of the rows that satisfy `p`, and the cascade. -/
def Tables.deleteProviders (t : Tables) (p : Provider → Bool) : Tables :=
  { t with
    providers := t.providers.filter fun q ↦ ¬ p q
    credentials := t.credentials.filter fun c ↦ ¬ ∃ q ∈ t.providers, p q ∧ q.name = c.providerName }

/-- `DeleteProvider`. -/
def Tables.deleteProvider (t : Tables) (name : String) : Tables :=
  (t.deleteProviders fun p ↦ p.name = name).bump

/-- `UpsertModel`. -/
def Tables.upsertModel (t : Tables) (m : Model) : Tables :=
  Tables.bump { t with models := Table.upsert Model.modelAlias m t.models }

/-- `ModelPatch`. -/
structure ModelPatch where
  description : Option String
  contextLength : Option Int
  capabilities : Option (List String)
  tags : Option (List String)
  upstreams : Option (List ModelUpstream)
  deriving DecidableEq, Repr

/-- The patch applied. -/
def ModelPatch.apply (patch : ModelPatch) (m : Model) : Model :=
  { m with
    description := patch.description.getD m.description
    contextLength := patch.contextLength.getD m.contextLength
    capabilities := patch.capabilities.getD m.capabilities
    tags := patch.tags.getD m.tags
    upstreams := patch.upstreams.getD m.upstreams }

@[simp] theorem ModelPatch.apply_modelAlias (patch : ModelPatch) (m : Model) :
    (patch.apply m).modelAlias = m.modelAlias := rfl

/-- `PatchModel`. -/
def Tables.patchModel (t : Tables) (modelAlias : String) (patch : ModelPatch) :
    Option (Model × Tables) :=
  (t.getModel modelAlias).map fun m ↦
    (patch.apply m,
      .bump { t with models := Table.modify Model.modelAlias modelAlias patch.apply t.models })

/-- `DeleteModel`. -/
def Tables.deleteModel (t : Tables) (modelAlias : String) : Tables :=
  Tables.bump { t with models := t.models.filter fun m ↦ m.modelAlias ≠ modelAlias }

/-- `UpsertRoute`. -/
def Tables.upsertRoute (t : Tables) (rt : Route) : Tables :=
  Tables.bump { t with routes := Table.upsert Route.modelAlias rt t.routes }

/-- `RoutePatch`. -/
structure RoutePatch where
  strategy : Option String
  providers : Option (List RouteProvider)
  deriving DecidableEq, Repr

/-- The patch applied. -/
def RoutePatch.apply (patch : RoutePatch) (rt : Route) : Route :=
  { rt with
    strategy := patch.strategy.getD rt.strategy
    providers := patch.providers.getD rt.providers }

@[simp] theorem RoutePatch.apply_modelAlias (patch : RoutePatch) (rt : Route) :
    (patch.apply rt).modelAlias = rt.modelAlias := rfl

/-- `PatchRoute`. -/
def Tables.patchRoute (t : Tables) (modelAlias : String) (patch : RoutePatch) :
    Option (Route × Tables) :=
  (t.getRoute modelAlias).map fun rt ↦
    (patch.apply rt,
      .bump { t with routes := Table.modify Route.modelAlias modelAlias patch.apply t.routes })

/-- `DeleteRoute`. -/
def Tables.deleteRoute (t : Tables) (modelAlias : String) : Tables :=
  Tables.bump { t with routes := t.routes.filter fun rt ↦ rt.modelAlias ≠ modelAlias }

/-- `UpsertPlugin`, which deletes and inserts. -/
def Tables.upsertPlugin (t : Tables) (pc : PluginConfig) : Tables :=
  Tables.bump { t with plugins := (t.plugins.filter fun q ↦ q.key ≠ pc.key) ++ [pc] }

/-- `PluginPatch`. -/
structure PluginPatch where
  phase : Option String
  params : Option String
  enabled : Option Bool
  deriving DecidableEq, Repr

/-- The patch applied. -/
def PluginPatch.apply (patch : PluginPatch) (pc : PluginConfig) : PluginConfig :=
  { pc with
    phase := patch.phase.getD pc.phase
    params := patch.params.getD pc.params
    enabled := patch.enabled.getD pc.enabled }

/-- `PatchPlugin`. -/
def Tables.patchPlugin (t : Tables) (name scope : String) (patch : PluginPatch) :
    Option (PluginConfig × Tables) :=
  (t.getPlugin name scope).map fun pc ↦
    (patch.apply pc,
      .bump { t with plugins := Table.modify PluginConfig.key (name, scope) patch.apply t.plugins })

/-- `DeletePlugin`. -/
def Tables.deletePlugin (t : Tables) (name scope : String) : Tables :=
  Tables.bump { t with plugins := t.plugins.filter fun pc ↦ pc.key ≠ (name, scope) }

/-- `UpdateSettings`. -/
def Tables.updateSettings (t : Tables) (s : GatewaySettings) : Tables :=
  Tables.bump { t with settings := s }

/-- `CredentialRepo.Upsert`.  It is `none` when the foreign key refuses the row. -/
def Tables.upsertCredential (t : Tables) (name : String) (cred : Credential) : Option Tables :=
  if ∃ p ∈ t.providers, p.name = name then
    some { t with
      credentials := Table.upsert CredentialRow.providerName ⟨name, cred⟩ t.credentials }
  else none

/-- `CredentialRepo.Delete`. -/
def Tables.deleteCredential (t : Tables) (name : String) : Tables :=
  { t with credentials := t.credentials.filter fun c ↦ c.providerName ≠ name }

/-- `SaveSnapshot`: `ON CONFLICT DO NOTHING`. -/
def Tables.saveSnapshot (t : Tables) (version : Nat) (d : Dynamic) : Tables :=
  if ∃ row ∈ t.snapshots, row.version = version then t
  else { t with snapshots := t.snapshots ++ [⟨version, d⟩] }

/-- Why a rollback fails. -/
inductive RollbackError where
  | notFound (version : Nat)
  | duplicate (constraint : String)
  deriving DecidableEq, Repr

/-- `err.Error()`. -/
def RollbackError.text : RollbackError → String
  | .notFound version => "config_snapshots: version " ++ toString version ++ " not found"
  | .duplicate c =>
    "ERROR: duplicate key value violates unique constraint \"" ++ c ++ "\" (SQLSTATE 23505)"

/-- The transaction of `Rollback`: all four tables are emptied, and filled from the payload. -/
def Tables.restore (t : Tables) (d : Dynamic) : Except RollbackError Tables :=
  let t := t.deleteProviders fun _ ↦ true
  match Table.insertAll Provider.name d.providers t.providers with
  | none => .error (.duplicate "providers_name_key")
  | some providers =>
    match Table.insertAll Model.modelAlias d.models [] with
    | none => .error (.duplicate "models_alias_key")
    | some models =>
      match Table.insertAll Route.modelAlias d.routes [] with
      | none => .error (.duplicate "routes_model_alias_key")
      | some routes =>
        .ok (.bump { t with
          providers := providers
          models := models
          routes := routes
          plugins := d.plugins
          settings := d.settings.getD t.settings })

/-- **`Rollback`.** -/
def Tables.rollback (t : Tables) (version : Nat) : Except RollbackError Tables :=
  match t.getSnapshot version with
  | none => .error (.notFound version)
  | some d => t.restore d

/-- The transactions that change the configuration. -/
inductive Mutation where
  | upsertProvider (p : Provider)
  | patchProvider (name : String) (patch : ProviderPatch)
  | deleteProvider (name : String)
  | upsertModel (m : Model)
  | patchModel (modelAlias : String) (patch : ModelPatch)
  | deleteModel (modelAlias : String)
  | upsertRoute (rt : Route)
  | patchRoute (modelAlias : String) (patch : RoutePatch)
  | deleteRoute (modelAlias : String)
  | upsertPlugin (pc : PluginConfig)
  | patchPlugin (name scope : String) (patch : PluginPatch)
  | deletePlugin (name scope : String)
  | updateSettings (s : GatewaySettings)
  | rollback (version : Nat)
  deriving DecidableEq, Repr

/-- The tables after a transaction, which leaves them alone when it fails or finds no row. -/
def Tables.mutate (t : Tables) : Mutation → Tables
  | .upsertProvider p => t.upsertProvider p
  | .patchProvider name patch => ((t.patchProvider name patch).map Prod.snd).getD t
  | .deleteProvider name => t.deleteProvider name
  | .upsertModel m => t.upsertModel m
  | .patchModel modelAlias patch => ((t.patchModel modelAlias patch).map Prod.snd).getD t
  | .deleteModel modelAlias => t.deleteModel modelAlias
  | .upsertRoute rt => t.upsertRoute rt
  | .patchRoute modelAlias patch => ((t.patchRoute modelAlias patch).map Prod.snd).getD t
  | .deleteRoute modelAlias => t.deleteRoute modelAlias
  | .upsertPlugin pc => t.upsertPlugin pc
  | .patchPlugin name scope patch => ((t.patchPlugin name scope patch).map Prod.snd).getD t
  | .deletePlugin name scope => t.deletePlugin name scope
  | .updateSettings s => t.updateSettings s
  | .rollback version => (t.rollback version).toOption.getD t

/-! ## What a mutation does -/

theorem restore_ok {t t' : Tables} {d : Dynamic} (h : t.restore d = .ok t') :
    (Table.Keyed Provider.name d.providers ∧ Table.Keyed Model.modelAlias d.models ∧
      Table.Keyed Route.modelAlias d.routes) ∧
    t' = Tables.bump { t with
      providers := d.providers
      models := d.models
      routes := d.routes
      plugins := d.plugins
      settings := d.settings.getD t.settings
      credentials := t.credentials.filter fun c ↦ ¬ ∃ q ∈ t.providers,
          q.name = c.providerName } := by
  rw [Tables.restore] at h
  split at h
  · cases h
  · rename_i providers hproviders
    split at h
    · cases h
    · rename_i models hmodels
      split at h
      · cases h
      · rename_i routes hroutes
        cases h
        have hnil : (t.deleteProviders fun _ ↦ true).providers = [] := by
          simp [Tables.deleteProviders]
        rw [hnil] at hproviders
        obtain ⟨rfl, hp⟩ := Table.insertAll_eq_some hproviders List.nodup_nil
        obtain ⟨rfl, hm⟩ := Table.insertAll_eq_some hmodels List.nodup_nil
        obtain ⟨rfl, hr⟩ := Table.insertAll_eq_some hroutes List.nodup_nil
        refine ⟨⟨hp, hm, hr⟩, ?_⟩
        simp [Tables.deleteProviders]

/-- The sections of a payload fit the unique columns. -/
structure Dynamic.Keys (d : Dynamic) : Prop where
  providers : Table.Keyed Provider.name d.providers
  models : Table.Keyed Model.modelAlias d.models
  routes : Table.Keyed Route.modelAlias d.routes

theorem restore_of_keys {d : Dynamic} (h : d.Keys) (t : Tables) : ∃ t', t.restore d = .ok t' := by
  have hnil : (t.deleteProviders fun _ ↦ true).providers = [] := by
    simp [Tables.deleteProviders]
  have hproviders : Table.insertAll Provider.name d.providers [] = some d.providers :=
    Table.insertAll_of_keyed h.providers
  have hmodels : Table.insertAll Model.modelAlias d.models [] = some d.models :=
    Table.insertAll_of_keyed h.models
  have hroutes : Table.insertAll Route.modelAlias d.routes [] = some d.routes :=
    Table.insertAll_of_keyed h.routes
  rw [Tables.restore]
  simp only [hnil, hproviders, hmodels, hroutes]
  exact ⟨_, rfl⟩

/-- What a transaction can do to the tables. -/
inductive Mutated (t : Tables) : Mutation → Tables → Prop
  /-- It fails, or there is no row to patch. -/
  | unchanged (m : Mutation) : Mutated t m t
  | upsertProvider (p : Provider) : Mutated t (.upsertProvider p) (t.upsertProvider p)
  | patchProvider (name : String) (patch : ProviderPatch) :
      Mutated t (.patchProvider name patch)
        (.bump { t with providers := Table.modify Provider.name name patch.apply t.providers })
  | deleteProvider (name : String) : Mutated t (.deleteProvider name) (t.deleteProvider name)
  | upsertModel (m : Model) : Mutated t (.upsertModel m) (t.upsertModel m)
  | patchModel (modelAlias : String) (patch : ModelPatch) :
      Mutated t (.patchModel modelAlias patch)
        (.bump { t with models := Table.modify Model.modelAlias modelAlias patch.apply t.models })
  | deleteModel (modelAlias : String) :
      Mutated t (.deleteModel modelAlias) (t.deleteModel modelAlias)
  | upsertRoute (rt : Route) : Mutated t (.upsertRoute rt) (t.upsertRoute rt)
  | patchRoute (modelAlias : String) (patch : RoutePatch) :
      Mutated t (.patchRoute modelAlias patch)
        (.bump { t with routes := Table.modify Route.modelAlias modelAlias patch.apply t.routes })
  | deleteRoute (modelAlias : String) :
      Mutated t (.deleteRoute modelAlias) (t.deleteRoute modelAlias)
  | upsertPlugin (pc : PluginConfig) : Mutated t (.upsertPlugin pc) (t.upsertPlugin pc)
  | patchPlugin (name scope : String) (patch : PluginPatch) :
      Mutated t (.patchPlugin name scope patch)
        (.bump { t with
          plugins := Table.modify PluginConfig.key (name, scope) patch.apply t.plugins })
  | deletePlugin (name scope : String) :
      Mutated t (.deletePlugin name scope) (t.deletePlugin name scope)
  | updateSettings (s : GatewaySettings) : Mutated t (.updateSettings s) (t.updateSettings s)
  | rollback {version : Nat} {d : Dynamic} (t' : Tables) (hsaved : t.getSnapshot version = some d)
      (hrestore : t.restore d = .ok t') : Mutated t (.rollback version) t'

theorem mutated (t : Tables) (m : Mutation) : Mutated t m (t.mutate m) := by
  cases m with
  | upsertProvider p => exact .upsertProvider p
  | patchProvider name patch =>
    rw [Tables.mutate, Tables.patchProvider]
    cases t.getProvider name with
    | none => exact .unchanged _
    | some p => exact .patchProvider name patch
  | deleteProvider name => exact .deleteProvider name
  | upsertModel m => exact .upsertModel m
  | patchModel modelAlias patch =>
    rw [Tables.mutate, Tables.patchModel]
    cases t.getModel modelAlias with
    | none => exact .unchanged _
    | some m => exact .patchModel modelAlias patch
  | deleteModel modelAlias => exact .deleteModel modelAlias
  | upsertRoute rt => exact .upsertRoute rt
  | patchRoute modelAlias patch =>
    rw [Tables.mutate, Tables.patchRoute]
    cases t.getRoute modelAlias with
    | none => exact .unchanged _
    | some rt => exact .patchRoute modelAlias patch
  | deleteRoute modelAlias => exact .deleteRoute modelAlias
  | upsertPlugin pc => exact .upsertPlugin pc
  | patchPlugin name scope patch =>
    rw [Tables.mutate, Tables.patchPlugin]
    cases t.getPlugin name scope with
    | none => exact .unchanged _
    | some pc => exact .patchPlugin name scope patch
  | deletePlugin name scope => exact .deletePlugin name scope
  | updateSettings s => exact .updateSettings s
  | rollback version =>
    rw [Tables.mutate, Tables.rollback]
    split
    · exact .unchanged _
    · rename_i d hsaved
      cases hrestore : t.restore d with
      | error e => exact .unchanged _
      | ok t' => exact .rollback t' hsaved hrestore

/-- **Every mutation bumps the generation**, unless it changes nothing. -/
theorem Mutated.generation {t t' : Tables} {m : Mutation} (h : Mutated t m t') :
    t' = t ∨ t'.generation = t.generation + 1 := by
  cases h with
  | unchanged => exact .inl rfl
  | rollback t' hsaved hrestore =>
    obtain ⟨-, rfl⟩ := restore_ok hrestore
    exact .inr rfl
  | _ => exact .inr rfl

theorem mutate_generation (t : Tables) (m : Mutation) :
    t.mutate m = t ∨ (t.mutate m).generation = t.generation + 1 :=
  (mutated t m).generation

/-- No mutation touches the saved snapshots. -/
theorem Mutated.snapshots {t t' : Tables} {m : Mutation} (h : Mutated t m t') :
    t'.snapshots = t.snapshots := by
  cases h with
  | rollback t' hsaved hrestore =>
    obtain ⟨-, rfl⟩ := restore_ok hrestore
    rfl
  | _ => rfl

/-- The unique columns. -/
structure Tables.Keys (t : Tables) : Prop where
  providers : Table.Keyed Provider.name t.providers
  models : Table.Keyed Model.modelAlias t.models
  routes : Table.Keyed Route.modelAlias t.routes

theorem Mutated.keys {t t' : Tables} {m : Mutation} (hm : Mutated t m t') (h : t.Keys) :
    t'.Keys := by
  cases hm with
  | unchanged => exact h
  | upsertProvider p => exact { h with providers := h.providers.upsert p }
  | patchProvider name patch => exact { h with providers := h.providers.modify patch.apply_name }
  | deleteProvider name => exact { h with providers := h.providers.filter _ }
  | upsertModel m => exact { h with models := h.models.upsert m }
  | patchModel modelAlias patch => exact { h with models := h.models.modify patch.apply_modelAlias }
  | deleteModel modelAlias => exact { h with models := h.models.filter _ }
  | upsertRoute rt => exact { h with routes := h.routes.upsert rt }
  | patchRoute modelAlias patch => exact { h with routes := h.routes.modify patch.apply_modelAlias }
  | deleteRoute modelAlias => exact { h with routes := h.routes.filter _ }
  | upsertPlugin | patchPlugin | deletePlugin | updateSettings => exact { h with }
  | rollback t' hsaved hrestore =>
    obtain ⟨⟨hproviders, hmodels, hroutes⟩, rfl⟩ := restore_ok hrestore
    exact ⟨hproviders, hmodels, hroutes⟩

theorem toString_injective {m n : Nat} (h : toString m = toString n) : m = n := by
  have hdigits : m.repr.toList = n.repr.toList := congrArg String.toList h
  rw [Nat.toList_repr, Nat.toList_repr] at hdigits
  simpa using congrArg (Nat.ofDigitChars 10 · 0) hdigits

end Config
end Voxeltoad
