import Voxeltoad.Config.Document
import Voxeltoad.Config.Rollback
import Voxeltoad.Lib.Transaction

/-!
# Rollback and the rows

`Rollback` of `internal/store/config_snapshot.go`, and `Snapshot` of `config.go` with what it reads
through, over the rows of the tables.  A rollback writes every item of a payload in two ways, into
the columns of its row and as a document in the column `spec`; a snapshot reads the documents, in
the order of the generated ids.

`rollback_restores`: a rollback that succeeds leaves a configuration whose snapshot is the payload,
and one that fails leaves what was there.  `fault` says which statement fails for a reason of its
own, such as a lost connection.  With the rows read back, it is the `Tables.rollback` of the tables
(`rollback_represents`).
-/

set_option autoImplicit false

namespace Voxeltoad
namespace Config

open Jsonb (Numeric roundTrip)
open Unmarshal (Reader record)

/-! ## Tables -/

/-- `providers`. -/
structure ProviderRow where
  name : String
  type : String
  adapter : String
  enabled : Bool
  spec : JsonValue

/-- `models`. -/
structure ModelRow where
  modelAlias : String
  enabled : Bool
  spec : JsonValue

/-- `routes`. -/
structure RouteRow where
  modelAlias : String
  strategy : String
  enabled : Bool
  spec : JsonValue

/-- `plugins`. -/
structure PluginRow where
  name : String
  phase : String
  scope : String
  enabled : Bool
  spec : JsonValue

/-- `config_snapshots`.  The payload is that of some snapshot. -/
structure SavedRow {F : Type} (fl : Float64 F) (num : Numeric) where
  version : Int
  payload : JsonValue
  saved : ∃ d : DynamicSpec F, Jsonb.store num (d.json fl) = some payload

/-- The tables.  `settings` is the document of the one row of `gateway_settings`, which the
migration inserts, and `generation` the one row of `config_generation`. -/
structure Database {F : Type} (fl : Float64 F) (num : Numeric) where
  providers : SerialTable ProviderRow
  models : SerialTable ModelRow
  routes : SerialTable RouteRow
  plugins : SerialTable PluginRow
  credentials : List CredentialRow
  settings : JsonValue
  generation : Int
  snapshots : List (SavedRow fl num)

namespace Database

variable {F : Type} {fl : Float64 F} {num : Numeric}

/-! ## Reading -/

/-- `listSpecs`.  It is `none` when a document does not unmarshal. -/
def listSpecs {α ρ : Type} (r : Reader α) (zero : α) (spec : ρ → JsonValue) (t : SerialTable ρ) :
    Option (List α) :=
  t.ordered.mapM fun row ↦ r zero (spec row)

/-- `GetSettings`. -/
def getSettings (db : Database fl num) : Option GatewaySettings :=
  match db.settings with
  | .obj [] => some .zero
  | v => record GatewaySettings.unmarshal .zero v

/-- **`ConfigRepo.Snapshot`.** -/
def snapshot (db : Database fl num) : Option (DynamicSpec F) := do
  let providers ← listSpecs (record Provider.unmarshal) .zero ProviderRow.spec db.providers
  let models ← listSpecs (record Model.unmarshal) .zero ModelRow.spec db.models
  let routes ← listSpecs (record Route.unmarshal) .zero RouteRow.spec db.routes
  let plugins ← listSpecs (record (PluginSpec.unmarshal fl)) .zero PluginRow.spec db.plugins
  let settings ← db.getSettings
  return ⟨toString db.generation, providers, models, routes, plugins, some settings, none⟩

/-- Why a rollback fails. -/
inductive RestoreError where
  | unmarshal (version : Int)
  | notFound (version : Int)
  /-- A statement failed. -/
  | sql
  deriving DecidableEq, Repr

/-- `ConfigSnapshotRepo.Get`. -/
def getSnapshot (db : Database fl num) (version : Int) :
    Except RestoreError (Option (DynamicSpec F)) :=
  match db.snapshots.find? fun row ↦ row.version = version with
  | none => .ok none
  | some row =>
    match record (DynamicSpec.unmarshal fl) .zero row.payload with
    | none => .error (.unmarshal version)
    | some d => .ok (some d)

/-! ## Statements -/

/-- The statements of a rollback. -/
inductive Statement (F : Type) where
  | deleteProviders
  | deleteModels
  | deleteRoutes
  | deletePlugins
  | insertProvider (p : Provider)
  | insertModel (m : Model)
  | insertRoute (rt : Route)
  | insertPlugin (pc : PluginSpec F)
  | updateSettings (s : GatewaySettings)
  | bumpGeneration

/-- `PrimaryAdapter`. -/
def primaryAdapter (p : Provider) : String :=
  (p.endpoints.head?.map ProviderEndpoint.adapter).getD ""

/-- The row of a provider, unless its document cannot be stored. -/
def providerRow (num : Numeric) (p : Provider) : Option ProviderRow :=
  (Jsonb.store num p.json).map fun spec ↦ ⟨p.name, p.type, primaryAdapter p, true, spec⟩

def modelRow (num : Numeric) (m : Model) : Option ModelRow :=
  (Jsonb.store num m.json).map fun spec ↦ ⟨m.modelAlias, true, spec⟩

def routeRow (num : Numeric) (rt : Route) : Option RouteRow :=
  (Jsonb.store num rt.json).map fun spec ↦ ⟨rt.modelAlias, rt.strategy, true, spec⟩

def pluginRow (fl : Float64 F) (num : Numeric) (pc : PluginSpec F) : Option PluginRow :=
  (Jsonb.store num (pc.json fl)).map fun spec ↦ ⟨pc.name, pc.phase, pc.scope, pc.enabled, spec⟩

/-- The largest `BIGINT`. -/
def maxGeneration : Int := 2 ^ 63 - 1

/-- What a statement does, and whether it succeeds. -/
def exec (db : Database fl num) : Statement F → Database fl num × Bool
  | .deleteProviders =>
    -- The credentials go with their providers.
    let credentials :=
      db.credentials.filter fun c ↦ !db.providers.rows.any fun r ↦ r.2.name = c.providerName
    ({ db with providers := db.providers.clear, credentials := credentials }, true)
  | .deleteModels => ({ db with models := db.models.clear }, true)
  | .deleteRoutes => ({ db with routes := db.routes.clear }, true)
  | .deletePlugins => ({ db with plugins := db.plugins.clear }, true)
  | .insertProvider p =>
    (db.providers.insert (fun r r' ↦ r.name = r'.name) (providerRow num p)).map
      (fun t ↦ { db with providers := t }) id
  | .insertModel m =>
    (db.models.insert (fun r r' ↦ r.modelAlias = r'.modelAlias) (modelRow num m)).map
      (fun t ↦ { db with models := t }) id
  | .insertRoute rt =>
    (db.routes.insert (fun r r' ↦ r.modelAlias = r'.modelAlias) (routeRow num rt)).map
      (fun t ↦ { db with routes := t }) id
  | .insertPlugin pc =>
    -- Nothing but the id is unique.
    (db.plugins.insert (fun _ _ ↦ false) (pluginRow fl num pc)).map
    (fun t ↦ { db with plugins := t }) id
  | .updateSettings s =>
    match Jsonb.store num s.json with
    | none => (db, false)
    | some spec => ({ db with settings := spec }, true)
  | .bumpGeneration =>
    if db.generation < maxGeneration then ({ db with generation := db.generation + 1 }, true)
      else (db, false)

/-- The statements of `Rollback`, in their order. -/
def statements (d : DynamicSpec F) : List (Statement F) :=
  [.deleteProviders, .deleteModels, .deleteRoutes, .deletePlugins] ++
  d.providers.map .insertProvider ++
    d.models.map .insertModel ++ d.routes.map .insertRoute ++ d.plugins.map .insertPlugin ++
    (d.settings.map .updateSettings).toList ++ [.bumpGeneration]

/-- What is left of a transaction on `db` that came to `db'` and is aborted. -/
def abort (db db' : Database fl num) : Database fl num :=
  { db with
    providers := db.providers.abort db'.providers
    models := db.models.abort db'.models
    routes := db.routes.abort db'.routes
    plugins := db.plugins.abort db'.plugins }

/-- **`Rollback`.**  The query for the payload is the first statement that can fail. -/
def rollback (fault : ℕ → Bool) (version : Int) (db : Database fl num) :
    Except RestoreError Unit × Database fl num :=
  if fault 0 then (.error .sql, db)
  else
    match db.getSnapshot version with
    | .error e => (.error e, db)
    | .ok none => (.error (.notFound version), db)
    | .ok (some d) =>
      match Transaction.transact exec abort fault 1 (statements d) db with
      | (db', true) => (.ok (), db')
      | (db', false) => (.error .sql, db')

/-! ## What a rollback does -/

/-- The rows are the same.  The next ids need not be. -/
structure Unchanged (db db' : Database fl num) : Prop where
  providers : db'.providers.rows = db.providers.rows
  models : db'.models.rows = db.models.rows
  routes : db'.routes.rows = db.routes.rows
  plugins : db'.plugins.rows = db.plugins.rows
  credentials : db'.credentials = db.credentials
  settings : db'.settings = db.settings
  generation : db'.generation = db.generation
  snapshots : db'.snapshots = db.snapshots

theorem Unchanged.refl (db : Database fl num) : Unchanged db db :=
  ⟨rfl, rfl, rfl, rfl, rfl, rfl, rfl, rfl⟩

theorem unchanged_abort (db db' : Database fl num) : Unchanged db (db.abort db') :=
  ⟨rfl, rfl, rfl, rfl, rfl, rfl, rfl, rfl⟩

/-- **What was inserted is listed**, if it comes back from its document. -/
theorem listSpecs_eq {α ρ : Type} {write : α → JsonValue} {r : Reader α} {zero : α}
    {spec : ρ → JsonValue} {row : α → Option ρ}
    (hspec : ∀ a x, row a = some x → Jsonb.store num (write a) = some (spec x)) {as : List α}
    (hback : ∀ a ∈ as, roundTrip num write r zero a = some a) {t : SerialTable ρ}
    (hrows : List.Forall₂ (fun a x ↦ row a = some x) as t.ordered) :
    listSpecs r zero spec t = some as := by
  rw [listSpecs]
  generalize t.ordered = xs at hrows
  induction hrows with
  | nil => rfl
  | @cons a x as xs hax _ ih =>
    obtain ⟨ha, has⟩ := List.forall_mem_cons.mp hback
    rw [roundTrip, hspec a x hax, Option.bind_some] at ha
    rw [List.mapM_cons, ha, ih has]
    rfl

theorem providerRow_spec {p : Provider} {x : ProviderRow} (h : providerRow num p = some x) :
    x.name = p.name ∧ Jsonb.store num p.json = some x.spec := by
  obtain ⟨spec, hspec, rfl⟩ := Option.map_eq_some_iff.mp h
  exact ⟨rfl, hspec⟩

theorem modelRow_spec {m : Model} {x : ModelRow} (h : modelRow num m = some x) :
    x.modelAlias = m.modelAlias ∧ Jsonb.store num m.json = some x.spec := by
  obtain ⟨spec, hspec, rfl⟩ := Option.map_eq_some_iff.mp h
  exact ⟨rfl, hspec⟩

theorem routeRow_spec {rt : Route} {x : RouteRow} (h : routeRow num rt = some x) :
    x.modelAlias = rt.modelAlias ∧ Jsonb.store num rt.json = some x.spec := by
  obtain ⟨spec, hspec, rfl⟩ := Option.map_eq_some_iff.mp h
  exact ⟨rfl, hspec⟩

theorem pluginRow_spec {pc : PluginSpec F} {x : PluginRow} (h : pluginRow fl num pc = some x) :
    Jsonb.store num (pc.json fl) = some x.spec := by
  obtain ⟨spec, hspec, rfl⟩ := Option.map_eq_some_iff.mp h
  exact hspec

/-- The four tables are empty. -/
def cleared (db : Database fl num) : Database fl num :=
  { (db.exec .deleteProviders).1 with
    models := db.models.clear
    routes := db.routes.clear
    plugins := db.plugins.clear }

section Steps

open Transaction (Steps)

variable {db db' : Database fl num}

theorem steps_deletes
    (h : Steps exec db [.deleteProviders, .deleteModels, .deleteRoutes, .deletePlugins] db') :
    db' = db.cleared := by
  rcases h with _ | ⟨h₁, h⟩
  obtain rfl : (exec db .deleteProviders).1 = _ := congrArg Prod.fst h₁
  rcases h with _ | ⟨h₂, h⟩
  obtain rfl : (exec _ .deleteModels).1 = _ := congrArg Prod.fst h₂
  rcases h with _ | ⟨h₃, h⟩
  obtain rfl : (exec _ .deleteRoutes).1 = _ := congrArg Prod.fst h₃
  exact (congrArg Prod.fst h.single).symm

theorem steps_insertProviders {ps : List Provider}
    (h : Steps exec db (ps.map .insertProvider) db') :
    ∃ t rows, db' = { db with providers := t } ∧ t.ordered = db.providers.ordered ++ rows ∧
      List.Forall₂ (fun p row ↦ providerRow num p = some row) ps rows ∧
      (db.providers.ordered.Pairwise (fun r r' ↦ decide (r.name = r'.name) = false) →
        t.ordered.Pairwise fun r r' ↦ decide (r.name = r'.name) = false) := by
  have hexec : ∀ t p, exec { db with providers := t } (.insertProvider p) =
      (t.insert (fun r r' ↦ r.name = r'.name) (providerRow num p)).map
      (fun t ↦ { db with providers := t }) id :=
    fun _ _ ↦ rfl
  exact Steps.exists_inserts hexec h

theorem steps_insertModels {ms : List Model} (h : Steps exec db (ms.map .insertModel) db') :
    ∃ t rows, db' = { db with models := t } ∧ t.ordered = db.models.ordered ++ rows ∧
      List.Forall₂ (fun m row ↦ modelRow num m = some row) ms rows ∧
      (db.models.ordered.Pairwise (fun r r' ↦ decide (r.modelAlias = r'.modelAlias) = false) →
        t.ordered.Pairwise fun r r' ↦ decide (r.modelAlias = r'.modelAlias) = false) := by
  have hexec : ∀ t m, exec { db with models := t } (.insertModel m) =
      (t.insert (fun r r' ↦ r.modelAlias = r'.modelAlias) (modelRow num m)).map
      (fun t ↦ { db with models := t }) id :=
    fun _ _ ↦ rfl
  exact Steps.exists_inserts hexec h

theorem steps_insertRoutes {rts : List Route} (h : Steps exec db (rts.map .insertRoute) db') :
    ∃ t rows, db' = { db with routes := t } ∧ t.ordered = db.routes.ordered ++ rows ∧
      List.Forall₂ (fun rt row ↦ routeRow num rt = some row) rts rows ∧
      (db.routes.ordered.Pairwise (fun r r' ↦ decide (r.modelAlias = r'.modelAlias) = false) →
        t.ordered.Pairwise fun r r' ↦ decide (r.modelAlias = r'.modelAlias) = false) := by
  have hexec : ∀ t rt, exec { db with routes := t } (.insertRoute rt) =
      (t.insert (fun r r' ↦ r.modelAlias = r'.modelAlias) (routeRow num rt)).map
      (fun t ↦ { db with routes := t }) id :=
    fun _ _ ↦ rfl
  exact Steps.exists_inserts hexec h

theorem steps_insertPlugins {pcs : List (PluginSpec F)}
    (h : Steps exec db (pcs.map .insertPlugin) db') :
    ∃ t rows, db' = { db with plugins := t } ∧ t.ordered = db.plugins.ordered ++ rows ∧
      List.Forall₂ (fun pc row ↦ pluginRow fl num pc = some row) pcs rows := by
  have hexec : ∀ t pc, exec { db with plugins := t } (.insertPlugin pc) =
      (t.insert (fun _ _ ↦ false) (pluginRow fl num pc)).map
      (fun t ↦ { db with plugins := t }) id :=
    fun _ _ ↦ rfl
  obtain ⟨t, rows, hdb', hordered, hrows, -⟩ := Steps.exists_inserts hexec h
  exact ⟨t, rows, hdb', hordered, hrows⟩

theorem steps_updateSettings {s : Option GatewaySettings}
    (h : Steps exec db (s.map .updateSettings).toList db') :
    ∃ spec, db' = { db with settings := spec } ∧ (s = none → spec = db.settings) ∧
      ∀ x ∈ s, Jsonb.store num x.json = some spec := by
  rcases s with _ | x
  · rcases h with _ | _
    exact ⟨db.settings, rfl, fun _ ↦ rfl, nofun⟩
  · have hexec := Steps.single h
    rw [exec] at hexec
    split at hexec
    · cases hexec
    · rename_i spec hspec
      cases hexec
      exact ⟨spec, rfl, nofun, fun y hy ↦ Option.some.inj hy ▸ hspec⟩

theorem exec_bumpGeneration (h : exec db .bumpGeneration = (db', true)) :
    db' = { db with generation := db.generation + 1 } := by
  rw [exec] at h
  split at h
  · exact (congrArg Prod.fst h).symm
  · cases h

/-- Rows that were inserted have the keys of what they are the rows of. -/
theorem keyed_of_rows {α ρ κ : Type} [DecidableEq κ] {key : α → κ} {key' : ρ → κ}
    {row : α → Option ρ} (hkey : ∀ a x, row a = some x → key' x = key a) {as : List α} {xs : List ρ}
    (h : List.Forall₂ (fun a x ↦ row a = some x) as xs)
    (hunique : xs.Pairwise fun x y ↦ decide (key' x = key' y) = false) : Table.Keyed key as := by
  have hmap : as.map key = xs.map key' := by
    induction h with
    | nil => rfl
    | cons hax _ ih =>
        rw [List.map_cons, List.map_cons, hkey _ _ hax, ih (List.pairwise_cons.mp hunique).2]
  rw [Table.Keyed, hmap, List.Nodup, List.pairwise_map]
  exact hunique.imp of_decide_eq_false

/-- What a rollback that commits has put into the tables. -/
structure Restored (d : DynamicSpec F) (db db' : Database fl num) : Prop where
  providers :
    List.Forall₂ (fun p row ↦ providerRow num p = some row) d.providers db'.providers.ordered
  models : List.Forall₂ (fun m row ↦ modelRow num m = some row) d.models db'.models.ordered
  routes : List.Forall₂ (fun rt row ↦ routeRow num rt = some row) d.routes db'.routes.ordered
  plugins : List.Forall₂ (fun pc row ↦ pluginRow fl num pc = some row) d.plugins db'.plugins.ordered
  providers_keyed : Table.Keyed Provider.name d.providers
  models_keyed : Table.Keyed Model.modelAlias d.models
  routes_keyed : Table.Keyed Route.modelAlias d.routes
  generation : db'.generation = db.generation + 1
  /-- Without settings in the payload the old ones stay. -/
  settings_none : d.settings = none → db'.settings = db.settings
  settings : ∀ s ∈ d.settings, Jsonb.store num s.json = some db'.settings
  credentials : db'.credentials =
    db.credentials.filter fun c ↦ !db.providers.rows.any fun r ↦ r.2.name = c.providerName
  snapshots : db'.snapshots = db.snapshots

theorem restored_of_steps {d : DynamicSpec F} (h : Steps exec db (statements d) db') :
    Restored d db db' := by
  rw [statements] at h
  simp only [Transaction.steps_append] at h
  obtain ⟨_, ⟨_, ⟨_, ⟨_, ⟨_, ⟨_, hdelete, hproviders⟩, hmodels⟩, hroutes⟩, hplugins⟩, hsettings⟩,
    hbump⟩ := h
  obtain rfl := steps_deletes hdelete
  obtain ⟨providers, _, rfl, hp, hprows, hpkeys⟩ := steps_insertProviders hproviders
  obtain ⟨models, _, rfl, hm, hmrows, hmkeys⟩ := steps_insertModels hmodels
  obtain ⟨routes, _, rfl, hr, hrrows, hrkeys⟩ := steps_insertRoutes hroutes
  obtain ⟨plugins, _, rfl, hpc, hpcrows⟩ := steps_insertPlugins hplugins
  obtain ⟨spec, rfl, hnone, hsome⟩ := steps_updateSettings hsettings
  obtain rfl := exec_bumpGeneration hbump.single
  have hprows' :
    List.Forall₂ (fun p row ↦ providerRow num p = some row) d.providers providers.ordered :=
    hp ▸ hprows
  have hmrows' :
    List.Forall₂ (fun m row ↦ modelRow num m = some row) d.models models.ordered := hm ▸ hmrows
  have hrrows' : List.Forall₂ (fun rt row ↦ routeRow num rt = some row) d.routes routes.ordered :=
    hr ▸ hrrows
  exact
    { providers := hprows'
      models := hmrows'
      routes := hrrows'
      plugins := hpc ▸ hpcrows
      providers_keyed := keyed_of_rows (fun _ _ h ↦ (providerRow_spec h).1) hprows' (hpkeys .nil)
      models_keyed := keyed_of_rows (fun _ _ h ↦ (modelRow_spec h).1) hmrows' (hmkeys .nil)
      routes_keyed := keyed_of_rows (fun _ _ h ↦ (routeRow_spec h).1) hrrows' (hrkeys .nil)
      generation := rfl
      settings_none := hnone
      settings := hsome
      credentials := rfl
      snapshots := rfl }

end Steps

/-- An empty document reads like any other. -/
theorem getSettings_eq (db : Database fl num) :
    db.getSettings = record GatewaySettings.unmarshal .zero db.settings := by
  rw [getSettings]
  split
  · rename_i h
    rw [h]
    rfl
  · rfl

theorem Restored.getSettings {d : DynamicSpec F} {db db' : Database fl num} (h : Restored d db db')
    (hback : ∀ s ∈ d.settings,
      roundTrip num GatewaySettings.json (record GatewaySettings.unmarshal) .zero s = some s) :
    db'.getSettings = d.settings.or db.getSettings := by
  rw [getSettings_eq, getSettings_eq]
  cases hsettings : d.settings with
  | none => rw [h.settings_none hsettings, Option.none_or]
  | some s =>
    have hs := hback s hsettings
    rw [roundTrip, h.settings s hsettings, Option.bind_some] at hs
    rw [hs, Option.some_or]

/-- **What was restored is what a snapshot has.** -/
theorem Restored.snapshot {d : DynamicSpec F} {db db' : Database fl num} (h : Restored d db db')
    (hback : d.Restorable fl num) :
    db'.snapshot = (d.settings.or db.getSettings).map fun s ↦
      ⟨toString (db.generation + 1), d.providers, d.models, d.routes, d.plugins, some s, none⟩ := by
  have hproviders :
      listSpecs (record Provider.unmarshal) .zero ProviderRow.spec db'.providers =
      some d.providers :=
    listSpecs_eq (fun _ _ hrow ↦ (providerRow_spec hrow).2) hback.providers h.providers
  have hmodels :
      listSpecs (record Model.unmarshal) .zero ModelRow.spec db'.models = some d.models :=
    listSpecs_eq (fun _ _ hrow ↦ (modelRow_spec hrow).2) hback.models h.models
  have hroutes :
      listSpecs (record Route.unmarshal) .zero RouteRow.spec db'.routes = some d.routes :=
    listSpecs_eq (fun _ _ hrow ↦ (routeRow_spec hrow).2) hback.routes h.routes
  have hplugins :
      listSpecs (record (PluginSpec.unmarshal fl)) .zero PluginRow.spec db'.plugins =
      some d.plugins :=
    listSpecs_eq (fun _ _ hrow ↦ pluginRow_spec hrow) hback.plugins h.plugins
  rw [Database.snapshot, hproviders, hmodels, hroutes, hplugins,
    h.getSettings hback.settings, h.generation]
  cases d.settings.or db.getSettings <;> rfl

/-- A payload that unmarshals can be restored. -/
theorem restorable_of_getSnapshot (hfl : fl.Settled num) {db : Database fl num} {version : Int}
    {d : DynamicSpec F} (h : db.getSnapshot version = .ok (some d)) : d.Restorable fl num := by
  rw [getSnapshot] at h
  split at h
  · cases h
  · rename_i row hrow
    split at h
    · cases h
    · rename_i d' hread
      cases h
      obtain ⟨d₀, hd₀⟩ := row.saved
      exact DynamicSpec.restorable hfl (Option.bind_eq_some_iff.mpr ⟨_, hd₀, hread⟩)

theorem rollback_ok {db db' : Database fl num} {fault : ℕ → Bool} {version : Int}
    (h : db.rollback fault version = (.ok (), db')) :
    ∃ d, db.getSnapshot version = .ok (some d) ∧ Restored d db db' := by
  rw [rollback] at h
  split at h
  · cases h
  split at h
  · cases h
  · cases h
  rename_i d hsaved
  split at h
  · rename_i db₁ htransact
    obtain rfl : db₁ = db' := (Prod.mk.inj h).2
    exact ⟨d, hsaved, restored_of_steps (Transaction.steps_of_transact htransact)⟩
  · cases h

theorem rollback_error {db db' : Database fl num} {fault : ℕ → Bool} {version : Int}
    {e : RestoreError} (h : db.rollback fault version = (.error e, db')) : Unchanged db db' := by
  rw [rollback] at h
  split at h
  · exact (Prod.mk.inj h).2 ▸ .refl db
  split at h
  · exact (Prod.mk.inj h).2 ▸ .refl db
  · exact (Prod.mk.inj h).2 ▸ .refl db
  split at h
  · cases h
  · rename_i db₁ htransact
    obtain rfl : db₁ = db' := (Prod.mk.inj h).2
    obtain ⟨db₂, rfl⟩ := Transaction.abort_of_transact htransact
    exact unchanged_abort db db₂

/-- **Rollback restores exactly.**  After a rollback that succeeds the snapshot has the sections of
the payload, each in its order, and the settings of the payload or else the old ones, under the next
generation.  After one that fails, at whichever statement, the tables are as they were. -/
theorem rollback_restores (hfl : fl.Settled num) (db : Database fl num) (fault : ℕ → Bool)
    (version : Int) : (∀ db', db.rollback fault version = (.ok (), db') →
      ∃ d, db.getSnapshot version = .ok (some d) ∧
        db'.snapshot = (d.settings.or db.getSettings).map fun s ↦
          ⟨toString (db.generation + 1), d.providers, d.models, d.routes, d.plugins,
            some s, none⟩) ∧
    ∀ e db', db.rollback fault version = (.error e, db') → Unchanged db db' := by
  refine ⟨fun db' h ↦ ?_, fun _ _ h ↦ rollback_error h⟩
  obtain ⟨d, hsaved, hrestored⟩ := rollback_ok h
  exact ⟨d, hsaved, hrestored.snapshot (restorable_of_getSnapshot hfl hsaved)⟩

/-- Integers, which are kept and read as they are. -/
def wholeFloat : Float64 Int where
  parse := fun n ↦ match n with
    | .int k => some k
    | .frac _ => none
  format := .int

def wholeNumeric : Numeric := ⟨some, fun h ↦ (Option.some.inj h).symm⟩

theorem wholeFloat_settled : wholeFloat.Settled wholeNumeric := by
  rintro y n x hn hx
  cases Option.some.inj hn
  cases Option.some.inj hx
  exact ⟨.int y, rfl, rfl⟩

end Database

/-- A snapshot with a route and a plugin. -/
def DynamicSpec.sample : DynamicSpec Int where
  version := "1"
  providers := []
  models := []
  routes := [⟨"gpt", [⟨"openai", 1⟩], "priority"⟩]
  plugins := [⟨"quota", "pre", [("rps", .float 5)], true, ""⟩]
  settings := some ⟨⟨true, 64, 7⟩, false⟩
  raw := none

namespace Database

/-- The payload as it lies in `config_snapshots`. -/
def samplePayload : JsonValue :=
  (Jsonb.store wholeNumeric (DynamicSpec.sample.json wholeFloat)).getD .null

theorem store_sample :
    Jsonb.store wholeNumeric (DynamicSpec.sample.json wholeFloat) = some samplePayload := by
  have hsome :
    (Jsonb.store wholeNumeric (DynamicSpec.sample.json wholeFloat)).isSome = true := by decide
  rw [samplePayload, Option.getD_of_ne_none (Option.isSome_iff_ne_none.mp hsome)]

/-- A later configuration, with another provider and none of the rest. -/
def sample : Database wholeFloat wholeNumeric where
  providers := SerialTable.empty.push
    ⟨"azure", "openai", "openai", true, Provider.json { Provider.sample with name := "azure" }⟩
  models := .empty
  routes := .empty
  plugins := .empty
  credentials := []
  settings := .obj []
  generation := 7
  snapshots := [⟨1, samplePayload, _, store_sample⟩]

/-- The rollback to the sample, and one whose insert of the plugin fails. -/
theorem rollback_restores_sample :
    (sample.rollback (fun _ ↦ false) 1).2.snapshot =
      some { DynamicSpec.sample with version := "8" } ∧
      Unchanged sample (sample.rollback (fun i ↦ i = 6) 1).2 := by
  constructor
  · have hok : (sample.rollback (fun _ ↦ false) 1).1 = .ok () := by rfl
    have hpayload : sample.getSnapshot 1 = .ok (some .sample) := by rfl
    obtain ⟨d, hd, hsnapshot⟩ :=
      (rollback_restores wholeFloat_settled sample (fun _ ↦ false) 1).1 _ (Prod.ext hok rfl)
    obtain rfl : DynamicSpec.sample = d := Option.some.inj (Except.ok.inj (hpayload.symm.trans hd))
    exact hsnapshot
  · have herror : (sample.rollback (fun i ↦ i = 6) 1).1 = .error .sql := by rfl
    exact (rollback_restores wholeFloat_settled sample (fun i ↦ i = 6) 1).2
      _ _ (Prod.ext herror rfl)

end Database

/-! ## The tables of the repository -/

section Refinement

variable {F : Type} {fl : Float64 F} {num : Numeric} (text : List (String × AnyValue F) → String)

/-- The plugin with its parameters in a text. -/
def PluginSpec.config (pc : PluginSpec F) : PluginConfig :=
  ⟨pc.name, pc.phase, text pc.params, pc.enabled, pc.scope⟩

def DynamicSpec.dynamic (d : DynamicSpec F) : Dynamic :=
  ⟨d.version, d.providers, d.models, d.routes, d.plugins.map (PluginSpec.config text), d.settings⟩

/-- What the rows have is what the tables have. -/
structure Represents (db : Database fl num) (t : Tables) : Prop where
  contents : db.snapshot.map (DynamicSpec.dynamic text) = some (t.toContents.dynamic t.generation)
  names : ∀ name, (∃ r ∈ db.providers.rows, r.2.name = name) ↔ ∃ p ∈ t.providers, p.name = name
  credentials : db.credentials = t.credentials
  generation : db.generation = t.generation
  saved : ∀ version : Nat, ∃ d, db.getSnapshot version = .ok d ∧
    d.map (DynamicSpec.dynamic text) = t.getSnapshot version

variable {text} {db db' : Database fl num} {t : Tables}

/-- The rows as the migrations leave them. -/
def Database.initial (fl : Float64 F) (num : Numeric) : Database fl num where
  providers := .empty
  models := .empty
  routes := .empty
  plugins := .empty
  credentials := []
  settings := .obj []
  generation := 0
  snapshots := []

theorem represents_initial : Represents text (Database.initial fl num) .empty where
  contents := rfl
  names := by simp [Database.initial, SerialTable.empty, Tables.empty]
  credentials := rfl
  generation := rfl
  saved := fun _ ↦ ⟨none, rfl, rfl⟩

theorem Represents.of_unchanged (h : Represents text db t) (hsame : Database.Unchanged db db') :
    Represents text db' t := by
  have hsnapshot : db'.snapshot = db.snapshot := by
    simp only [Database.snapshot, Database.listSpecs, SerialTable.ordered, Database.getSettings,
      hsame.providers, hsame.models, hsame.routes, hsame.plugins, hsame.settings, hsame.generation]
  have hsaved : ∀ version, db'.getSnapshot version = db.getSnapshot version := by
    intro version
    simp only [Database.getSnapshot, hsame.snapshots]
  exact
    { contents := hsnapshot ▸ h.contents
      names := hsame.providers ▸ h.names
      credentials := hsame.credentials ▸ h.credentials
      generation := hsame.generation ▸ h.generation
      saved := fun version ↦ hsaved version ▸ h.saved version }

theorem Represents.getSettings (h : Represents text db t) : db.getSettings = some t.settings := by
  obtain ⟨d, hd, hdynamic⟩ := Option.map_eq_some_iff.mp h.contents
  simp only [Database.snapshot, Option.bind_eq_bind, Option.bind_eq_some_iff, Option.pure_def,
    Option.some_inj] at hd
  obtain ⟨_, -, _, -, _, -, _, -, s, hs, rfl⟩ := hd
  rw [hs]
  exact congrArg Dynamic.settings hdynamic

/-- The names of the rows that a rollback has put there. -/
theorem Database.Restored.names {d : DynamicSpec F} (h : Database.Restored d db db')
    (name : String) :
    (∃ r ∈ db'.providers.rows, r.2.name = name) ↔ ∃ p ∈ d.providers, p.name = name := by
  have hmem : (∃ r ∈ db'.providers.rows, r.2.name = name) ↔ ∃ x ∈ db'.providers.ordered,
      x.name = name := by
    constructor
    · rintro ⟨r, hr, hname⟩
      exact ⟨r.2, SerialTable.mem_ordered.mpr ⟨r, hr, rfl⟩, hname⟩
    · rintro ⟨x, hx, hname⟩
      obtain ⟨r, hr, rfl⟩ := SerialTable.mem_ordered.mp hx
      exact ⟨r, hr, hname⟩
  rw [hmem]
  have hrows := h.providers
  generalize d.providers = ps, db'.providers.ordered = xs at hrows
  induction hrows with
  | nil => simp
  | cons hax _ ih => simp [ih, (Database.providerRow_spec hax).1]

/-- **A rollback of the rows is a rollback of the tables**, and one that fails is none. -/
theorem rollback_represents (hfl : fl.Settled num) (h : Represents text db t) {fault : ℕ → Bool}
    {version : Nat} :
    (db.rollback fault version = (.ok (), db') → ∃ t', t.rollback version = .ok t' ∧
      Represents text db' t') ∧
      ∀ e, db.rollback fault version = (.error e, db') → Represents text db' t := by
  refine ⟨fun hok ↦ ?_, fun e herror ↦ h.of_unchanged (Database.rollback_error herror)⟩
  obtain ⟨d, hsaved, hrestored⟩ := Database.rollback_ok hok
  obtain ⟨d', hsaved', hget⟩ := h.saved version
  obtain rfl : some d = d' := Except.ok.inj (hsaved.symm.trans hsaved')
  have hkeys : (d.dynamic text).Keys :=
    ⟨hrestored.providers_keyed, hrestored.models_keyed, hrestored.routes_keyed⟩
  obtain ⟨t', ht'⟩ := restore_of_keys hkeys t
  have hrollback : t.rollback version = .ok t' := by
    rw [Tables.rollback, ← hget]
    exact ht'
  obtain ⟨-, rfl⟩ := restore_ok ht'
  refine ⟨_, hrollback, ?_⟩
  have hsnapshot := hrestored.snapshot (Database.restorable_of_getSnapshot hfl hsaved)
  rw [h.getSettings] at hsnapshot
  have hgetSnapshot : ∀ v, db'.getSnapshot v = db.getSnapshot v := by
    intro v
    simp only [Database.getSnapshot, hrestored.snapshots]
  refine
    { contents := ?_
      names := hrestored.names
      credentials := ?_
      generation := ?_
      saved := fun v ↦ hgetSnapshot v ▸ h.saved v }
  · have hversion : toString (db.generation + 1) = toString (t.generation + 1) := by
      rw [h.generation]
      rfl
    have hsettings : d.settings.or (some t.settings) = some (d.settings.getD t.settings) := by
      cases d.settings <;> rfl
    rw [hsnapshot, hversion, hsettings]
    rfl
  · rw [hrestored.credentials, h.credentials]
    refine List.filter_congr fun c _ ↦ ?_
    rw [Bool.eq_iff_iff]
    simpa using (h.names c.providerName).not
  · rw [hrestored.generation, h.generation]
    rfl

end Refinement

end Config
end Voxeltoad
