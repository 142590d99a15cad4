import Voxeltoad.Admin.Tenancy
import Voxeltoad.Lib.Isolation

/-!
# The directory of a tenant

What the tables of groups, applications and API keys hold of a tenant (`Directory.only`), and what
the mutations of `Voxeltoad.Admin.Tenancy` do to that.

A mutation of the tenant's own does to `only` what it does to the tables (`handleWrite_alone`), and
one of another tenant leaves `only` as it is (`Change.other`).  For the first, references between
rows have to stay within a tenant, which is an invariant (`Directory.WF`): the constraints that
refuse to delete a row look at the rows of all tenants.

There is one exception, and it is the database's.  The ids of rows and those of API keys are unique
over all tenants, so a key that asks for the id of another tenant's key is refused.  `Apart` leaves
that out.
-/

set_option autoImplicit false

namespace Voxeltoad

open Isolation

/-! ## The keys of a tenant -/

namespace Keys

/-- What a registry holds of a tenant. -/
def Registry.only (db : Registry) (tenantID : Int) : Registry where
  tenants := db.tenants
  groups := db.groups.filter fun g ↦ g.tenantID = tenantID
  applications := db.applications.filter fun a ↦ a.tenantID = tenantID
  apiKeys := db.apiKeys.filter fun k ↦ k.tenantID = tenantID

/-- References of a key are to rows of its tenant, as far as it has any. -/
structure Local (db : Registry) (k : ApiKey) : Prop where
  group : ∀ id, k.groupID = some id → Refers db.groups k.tenantID (some id)
  application : ∀ id, k.applicationID = some id → Refers db.applications k.tenantID (some id)

section Own

variable {faults : Nat → Bool} {tenantID : Int} {db db' : Registry}

/-- A new row clashes with no row of another tenant. -/
def Unclaimed (db : Registry) (tenantID id : Int) (keyID hash : String) : Prop :=
  ∀ k ∈ db.apiKeys, k.tenantID ≠ tenantID → k.id ≠ id ∧ k.keyID ≠ keyID ∧ k.hash ≠ hash

instance (db : Registry) (tenantID id : Int) (keyID hash : String) :
    Decidable (Unclaimed db tenantID id keyID hash) :=
  inferInstanceAs (Decidable (∀ k ∈ db.apiKeys, _))

end Own

/-! ### What is not the tenant's -/

/-- A change to the keys of a tenant, with references that stay within it. -/
structure Touches (db : Registry) (tenantID : Int) (f : ApiKey → ApiKey) : Prop where
  other : ∀ k, k.tenantID ≠ tenantID → f k = k
  tenant : ∀ k, (f k).tenantID = k.tenantID
  keeps : ∀ k, Local db k → Local db (f k)

section Touches

variable {faults : Nat → Bool} {tenantID : Int} {db db' : Registry}

theorem Touches.comp {f g : ApiKey → ApiKey} (hf : Touches db tenantID f)
    (hg : Touches db tenantID g) : Touches db tenantID fun k ↦ g (f k) where
  other k hne := by rw [hf.other k hne, hg.other k hne]
  tenant k := (hg.tenant (f k)).trans (hf.tenant k)
  keeps k hk := hg.keeps (f k) (hf.keeps k hk)

/-- The keys of any other tenant stay as they are. -/
theorem Touches.filter_eq {f : ApiKey → ApiKey} (hf : Touches db tenantID f) {other : Int}
    (hne : other ≠ tenantID) (keys : List ApiKey) :
    (keys.map f).filter (fun k ↦ k.tenantID = other) = keys.filter fun k ↦ k.tenantID = other := by
  refine filter_map_of_other (fun k ↦ ?_) keys
  by_cases hk : k.tenantID = tenantID
  · refine .inr ⟨decide_eq_false ?_, decide_eq_false ?_⟩
    · exact fun h ↦ hne (h.symm.trans hk)
    · exact fun h ↦ hne (h.symm.trans ((hf.tenant k).trans hk))
  · exact .inl (hf.other k hk)

theorem touches_same {p : ApiKey → Prop} [DecidablePred p] {f : ApiKey → ApiKey}
    (hp : ∀ k, p k → k.tenantID = tenantID) (htenant : ∀ k, (f k).tenantID = k.tenantID)
    (hf : ∀ k, p k → Local db k → Local db (f k)) :
    Touches db tenantID fun k ↦ if p k then f k else k where
  other k hne := if_neg fun hk ↦ hne (hp k hk)
  tenant k := by
    split
    · exact htenant k
    · rfl
  keeps k hk := by
    split
    case isTrue hpk => exact hf k hpk hk
    case isFalse => exact hk

theorem completeIdentity_touches {current : ApiKey} {identity : Option APIKeyIdentity}
    (h : completeIdentity faults tenantID current db identity = .ok db') :
    ∃ f, Touches db tenantID f ∧ db' = db.rewrite f := by
  have hsame : Touches db tenantID fun k ↦ k := ⟨fun _ _ ↦ rfl, fun _ ↦ rfl, fun _ hk ↦ hk⟩
  have hid : db = db.rewrite fun k ↦ k := by simp [Registry.rewrite]
  cases identity with
  | none =>
    obtain rfl := Except.ok.inj h
    exact ⟨_, hsame, hid⟩
  | some identity =>
    rw [completeIdentity] at h
    split at h
    case isTrue => cases h
    case isFalse =>
      split at h
      case isTrue =>
        obtain rfl := Except.ok.inj h
        exact ⟨_, hsame, hid⟩
      case isFalse =>
        obtain ⟨_, hvalid, h⟩ := Loop.bind_eq_ok.mp h
        obtain ⟨_, -, h⟩ := Loop.bind_eq_ok.mp h
        obtain rfl := Except.ok.inj h
        obtain ⟨hgroup, happ⟩ := validateAPIKeyIdentity_ok hvalid
        refine ⟨_, touches_same (p := fun k ↦ k.id = current.id ∧ k.tenantID = tenantID)
            (f := fun k ↦ { k with
              groupID := some identity.groupID, applicationID := some identity.applicationID,
              environment := identity.environment }) (fun k hk ↦ hk.2) (fun _ ↦ rfl)
            (fun k hk _ ↦ ⟨?_, ?_⟩), rfl⟩
        · rintro id hid
          rw [← hid, hk.2]
          exact hgroup
        · rintro id hid
          rw [← hid, hk.2]
          exact happ

theorem setModels_touches {current : ApiKey} {models : Option (Option (List String))}
    (h : setModels faults tenantID current db models = .ok db') :
    ∃ f, Touches db tenantID f ∧ db' = db.rewrite f := by
  cases models with
  | none =>
    obtain rfl := Except.ok.inj h
    exact ⟨fun k ↦ k, ⟨fun _ _ ↦ rfl, fun _ ↦ rfl, fun _ hk ↦ hk⟩, by simp [Registry.rewrite]⟩
  | some models =>
    obtain ⟨_, -, h⟩ := Loop.bind_eq_ok.mp h
    obtain rfl := Except.ok.inj h
    refine ⟨_, touches_same (p := fun k ↦ k.id = current.id ∧ k.tenantID = tenantID)
      (f := fun k ↦ { k with allowedModels := models.getD [] }) (fun k hk ↦ hk.2) (fun _ ↦ rfl) ?_,
      rfl⟩
    exact fun k _ hk ↦ ⟨hk.group, hk.application⟩

theorem updateAPIKey_touches {keyID : String} {patch : APIKeyUpdate} {found : Bool}
    (h : updateAPIKey faults tenantID keyID patch db = .ok (found, db')) :
    ∃ f, Touches db tenantID f ∧ db' = db.rewrite f := by
  rw [updateAPIKey] at h
  split at h
  case isTrue => cases h
  case isFalse =>
    obtain ⟨_, -, h⟩ := Loop.bind_eq_ok.mp h
    split at h
    · obtain ⟨_, -, h⟩ := Loop.bind_eq_ok.mp h
      cases h
      exact ⟨fun k ↦ k, ⟨fun _ _ ↦ rfl, fun _ ↦ rfl, fun _ hk ↦ hk⟩, by simp [Registry.rewrite]⟩
    · obtain ⟨db₁, hidentity, h⟩ := Loop.bind_eq_ok.mp h
      obtain ⟨db₂, hmodels, h⟩ := Loop.bind_eq_ok.mp h
      obtain ⟨_, -, h⟩ := Loop.bind_eq_ok.mp h
      cases h
      obtain ⟨f, hf, rfl⟩ := completeIdentity_touches hidentity
      obtain ⟨g, hg, rfl⟩ := setModels_touches hmodels
      refine ⟨_, hf.comp ⟨hg.other, hg.tenant, fun k hk ↦ ?_⟩, ?_⟩
      · have hlocal := hg.keeps k ⟨hk.group, hk.application⟩
        exact ⟨hlocal.group, hlocal.application⟩
      · simp [Registry.rewrite]

theorem revokeAPIKey_touches {keyID : String}
    (h : revokeAPIKey faults tenantID keyID db = .ok db') :
    ∃ f, Touches db tenantID f ∧ db' = db.rewrite f := by
  obtain ⟨_, -, h⟩ := Loop.bind_eq_ok.mp h
  obtain rfl := Except.ok.inj h
  refine ⟨_, touches_same (p := fun k ↦ k.keyID = keyID ∧ k.tenantID = tenantID ∧ k.revoked = false)
    (f := fun k ↦ { k with revoked := true }) (fun k hk ↦ hk.2.1) (fun _ ↦ rfl) ?_, rfl⟩
  exact fun k _ hk ↦ ⟨hk.group, hk.application⟩

end Touches

end Keys

/-! ## The directory of a tenant -/

namespace Admin

open Keys (ApiKey Resource Registry)

namespace Directory

/-- What a directory holds of a tenant. -/
def only (d : Directory) (tenantID : Int) : Directory where
  tenants := d.tenants
  groups := d.groups.filter fun g ↦ g.tenantID = tenantID
  applications := d.applications.filter fun a ↦ a.tenantID = tenantID
  apiKeys := d.apiKeys.filter fun k ↦ k.tenantID = tenantID

/-- **References stay within a tenant.** -/
structure WF (d : Directory) : Prop where
  groups_keyed : Table.Keyed Resource.id d.groups
  applications_keyed : Table.Keyed (fun a : ApplicationRow ↦ a.id) d.applications
  owner : ∀ a ∈ d.applications, Keys.Refers d.groups a.tenantID (some a.ownerGroupID)
  key : ∀ k ∈ d.apiKeys, Keys.Local d.registry k

variable {d : Directory} {tenantID : Int}

end Directory

/-! ## What a mutation changes -/

/-- **What a mutation does**: it changes rows of its tenant in one table, and takes away none that
is referred to. -/
inductive Change (d : Directory) (tenantID : Int) : Directory → Prop where
  | same : Change d tenantID d
  | groups {groups : List Resource} (hkeyed : Table.Keyed Resource.id groups)
      (hkept : ∀ g ∈ d.groups, (∃ a ∈ d.applications, a.ownerGroupID = g.id) ∨
        (∃ k ∈ d.apiKeys, k.groupID = some g.id) → ∃ g' ∈ groups, g'.id = g.id ∧
        g'.tenantID = g.tenantID)
      (hother : ∀ other, other ≠ tenantID →
        groups.filter (fun g ↦ g.tenantID = other) = d.groups.filter fun g ↦ g.tenantID = other) :
      Change d tenantID { d with groups := groups }
  | applications {applications : List ApplicationRow}
      (hkeyed : Table.Keyed (fun a : ApplicationRow ↦ a.id) applications)
      (howner : ∀ a ∈ applications, Keys.Refers d.groups a.tenantID (some a.ownerGroupID))
      (hkept : ∀ a ∈ d.applications, (∃ k ∈ d.apiKeys, k.applicationID = some a.id) →
        ∃ a' ∈ applications, a'.id = a.id ∧ a'.tenantID = a.tenantID)
      (hother : ∀ other, other ≠ tenantID →
        applications.filter (fun a ↦ a.tenantID = other) =
          d.applications.filter fun a ↦ a.tenantID = other) :
      Change d tenantID { d with applications := applications }
  | apiKeys {keys : List ApiKey} (hlocal : ∀ k ∈ keys, Keys.Local d.registry k)
      (hother : ∀ other, other ≠ tenantID →
        keys.filter (fun k ↦ k.tenantID = other) = d.apiKeys.filter fun k ↦ k.tenantID = other) :
      Change d tenantID { d with apiKeys := keys }

section Change

variable {d d' : Directory} {tenantID : Int}

theorem Change.other (h : Change d tenantID d') {other : Int} (hne : other ≠ tenantID) :
    d'.only other = d.only other := by
  cases h with
  | same => rfl
  | groups _ _ hother =>
      exact congrArg (fun rows ↦ { d.only other with groups := rows }) (hother other hne)
  | applications _ _ _ hother =>
    exact congrArg (fun rows ↦ { d.only other with applications := rows }) (hother other hne)
  | apiKeys _ hother =>
      exact congrArg (fun rows ↦ { d.only other with apiKeys := rows }) (hother other hne)

theorem Change.wf (h : Change d tenantID d') (hd : d.WF) : d'.WF := by
  cases h with
  | same => exact hd
  | @groups groups hkeyed hkept _ =>
    refine ⟨hkeyed, hd.applications_keyed, fun a ha ↦ ?_,
      fun k hk ↦ ⟨fun id hid ↦ ?_, (hd.key k hk).application⟩⟩
    · obtain ⟨g, hg, hid, htenant⟩ := hd.owner a ha
      obtain ⟨g', hg', hid', htenant'⟩ := hkept g hg (.inl ⟨a, ha, Option.some.inj hid⟩)
      exact ⟨g', hg', hid.trans (congrArg some hid'.symm), htenant'.trans htenant⟩
    · obtain ⟨g, hg, hid', htenant⟩ := (hd.key k hk).group id hid
      obtain ⟨g', hg', hid'', htenant'⟩ := hkept g hg (.inr ⟨k, hk, hid.trans hid'⟩)
      exact ⟨g', hg', hid'.trans (congrArg some hid''.symm), htenant'.trans htenant⟩
  | @applications applications hkeyed howner hkept _ =>
    refine ⟨hd.groups_keyed, hkeyed, howner, fun k hk ↦ ⟨(hd.key k hk).group, fun id hid ↦ ?_⟩⟩
    obtain ⟨r, hr, hid', htenant⟩ := (hd.key k hk).application id hid
    obtain ⟨a, ha, rfl⟩ := List.mem_map.mp hr
    obtain ⟨a', ha', hid'', htenant'⟩ := hkept a ha ⟨k, hk, hid.trans hid'⟩
    exact ⟨a'.toResource, List.mem_map_of_mem ha', hid'.trans (congrArg some hid''.symm),
      htenant'.trans htenant⟩
  | apiKeys hlocal _ =>
    refine ⟨hd.groups_keyed, hd.applications_keyed, hd.owner, fun k hk ↦ ?_⟩
    exact ⟨(hlocal k hk).group, (hlocal k hk).application⟩

/-- A change to keys of the tenant. -/
theorem Change.touches (hd : d.WF) {f : ApiKey → ApiKey} (hf : Keys.Touches d.registry tenantID f) :
    Change d tenantID { d with apiKeys := d.apiKeys.map f } := by
  refine .apiKeys (fun k hk ↦ ?_) fun other hne ↦ hf.filter_eq hne d.apiKeys
  obtain ⟨k₀, hk₀, rfl⟩ := List.mem_map.mp hk
  exact hf.keeps k₀ (hd.key k₀ hk₀)

variable {hash : String → String} {aliases : List String}

theorem postAPIKey_change (hd : d.WF) (body : PostAPIKey) (id : Int) (plaintext : String) :
    Change d tenantID (postAPIKey hash aliases tenantID d body id plaintext).2 := by
  rw [postAPIKey]
  split
  case isTrue => exact .same
  case isFalse =>
    split
    · exact .same
    · dsimp only
      split
      · exact .same
      · exact .same
      · rename_i db hdb
        obtain ⟨k, rfl, howned, -, rfl⟩ := Keys.createEnterpriseAPIKey_ok hdb
        refine .apiKeys (fun k' hk' ↦ ?_) fun other hne ↦ ?_
        · rcases List.mem_append.mp hk' with hk' | hk'
          · exact hd.key k' hk'
          · rw [List.mem_singleton.mp hk']
            exact ⟨fun id hid ↦ hid ▸ howned.group, fun id hid ↦ hid ▸ howned.application⟩
        · show (d.apiKeys ++ [k]).filter _ = _
          rw [List.filter_append, List.filter_singleton, decide_eq_false (Ne.symm hne)]
          exact List.append_nil _

theorem patchAPIKey_change (hd : d.WF) (keyID : String) (body : PatchAPIKey) :
    Change d tenantID (patchAPIKey aliases tenantID d keyID body).2 := by
  rw [patchAPIKey]
  split
  · exact .same
  · exact .same
  · split
    case isTrue => exact .same
    case isFalse =>
      split
      · exact .same
      · split
        · exact .same
        · exact .same
        · exact .same
        · rename_i db hdb
          obtain ⟨f, hf, rfl⟩ := Keys.updateAPIKey_touches hdb
          exact .touches hd hf

theorem deleteAPIKey_change (hd : d.WF) (keyID : String) :
    Change d tenantID (deleteAPIKey tenantID d keyID).2 := by
  rw [deleteAPIKey]
  split
  · exact .same
  · rename_i db hdb
    split
    case isTrue =>
      obtain ⟨f, hf, rfl⟩ := Keys.revokeAPIKey_touches hdb
      exact .touches hd hf
    case isFalse => exact .same

/-- Rows of other tenants are not enabled or disabled. -/
theorem filter_enabled {ρ : Type} (toResource : ρ → Resource) {f : ρ → ρ}
    (hf : ∀ r, (toResource (f r)).tenantID = (toResource r).tenantID) {p : ρ → Prop}
    [DecidablePred p] (hp : ∀ r, p r → (toResource r).tenantID = tenantID) {other : Int}
    (hne : other ≠ tenantID) (rows : List ρ) :
    (rows.map fun r ↦ if p r then f r else r).filter (fun r ↦ (toResource r).tenantID = other) =
      rows.filter fun r ↦ (toResource r).tenantID = other := by
  refine filter_map_of_other (fun r ↦ ?_) rows
  by_cases hr : p r
  · refine .inr ⟨decide_eq_false ?_, decide_eq_false ?_⟩
    · exact fun h ↦ hne (h.symm.trans (hp r hr))
    · rw [if_pos hr, hf]
      exact fun h ↦ hne (h.symm.trans (hp r hr))
  · exact .inl (if_neg hr)

theorem postGroup_change (hd : d.WF) (name : String) (id : Int) :
    Change d tenantID (postGroup tenantID d name id).2 := by
  rw [postGroup]
  split
  case isTrue => exact .same
  case isFalse =>
    split
    · exact .same
    · rename_i groups hcreate
      rw [Keys.createResource] at hcreate
      split at hcreate
      case isTrue => cases hcreate
      case isFalse hfresh =>
        obtain rfl := Except.ok.inj hcreate
        refine .groups
          (hd.groups_keyed.append fun g hg hid ↦ hfresh (List.any_eq_true.mpr ⟨g, hg, ?_⟩))
          (fun g hg _ ↦ ⟨g, List.mem_append_left _ hg, rfl, rfl⟩) fun other hne ↦ ?_
        · simp [hid]
        · rw [List.filter_append, List.filter_singleton, decide_eq_false (Ne.symm hne)]
          exact List.append_nil _

theorem patchGroup_change (hd : d.WF) (name : String) (enabled : Option Bool) :
    Change d tenantID (patchGroup tenantID d name enabled).2 := by
  cases enabled with
  | none => exact .same
  | some enabled =>
    rw [patchGroup]
    split
    case isFalse => exact .same
    case isTrue =>
      refine .groups ?_ (fun g hg _ ↦ ⟨_, List.mem_map_of_mem hg, ?_⟩) fun other hne ↦
        filter_enabled id (f := fun g ↦ { g with enabled := enabled }) (fun _ ↦ rfl)
        (fun _ ↦ And.left) hne d.groups
      · rw [Table.Keyed, Keys.setEnabled, List.map_map]
        refine (congrArg List.Nodup (List.map_congr_left fun g _ ↦ ?_)).mpr hd.groups_keyed
        rw [Function.comp_apply]
        split <;> rfl
      · split <;> exact ⟨rfl, rfl⟩

theorem deleteGroup_change (hd : d.WF) (name : String) :
    Change d tenantID (deleteGroup tenantID d name).2 := by
  rw [deleteGroup]
  split
  case isTrue => exact .same
  case isFalse =>
    split
    case isTrue => exact .same
    case isFalse =>
      split
      case isTrue => exact .same
      case isFalse hunowned =>
        split
        · exact .same
        · rename_i groups hdelete
          split
          case isFalse => exact .same
          case isTrue =>
            rw [Keys.deleteResource] at hdelete
            split at hdelete
            case isTrue => cases hdelete
            case isFalse hunused =>
              obtain rfl := Except.ok.inj hdelete
              refine .groups (hd.groups_keyed.filter _)
                (fun g hg hused ↦ ⟨g, List.mem_filter.mpr ⟨hg, ?_⟩, rfl, rfl⟩)
                fun other hne ↦ filter_filter_of_imp fun g _ hg ↦ ?_
              · refine decide_eq_true fun hmatch ↦ ?_
                rcases hused with ⟨a, ha, hid⟩ | ⟨k, hk, hid⟩
                · refine hunowned (List.any_eq_true.mpr ⟨g, hg, ?_⟩)
                  rw [Bool.and_eq_true, List.any_eq_true]
                  exact ⟨decide_eq_true hmatch, a, ha, decide_eq_true hid⟩
                · refine hunused (List.any_eq_true.mpr ⟨g, hg, ?_⟩)
                  simp only [Bool.and_eq_true, decide_eq_true_eq, List.any_eq_true]
                  exact ⟨hmatch, k, hk, hid⟩
              · exact decide_eq_true fun hmatch ↦ hne ((of_decide_eq_true hg).symm.trans hmatch.1)

/-- The directory that a new application leaves. -/
theorem newApplication_change (hd : d.WF) {ownerGroup name : String} {g : Resource}
    (hg : d.groups.find? (fun g ↦ Directory.named tenantID ownerGroup g) = some g) {id : Int}
    (hfresh : ¬ (d.applications.any fun a ↦ a.id = id || (a.tenantID = tenantID && a.name = name)) =
      true) :
    Change d tenantID
    { d with applications := d.applications ++ [⟨⟨id, tenantID, name, true⟩, g.id⟩] } := by
  have hmatch := List.find?_some hg
  refine .applications
    (hd.applications_keyed.append fun a ha hid ↦ hfresh (List.any_eq_true.mpr ⟨a, ha, ?_⟩))
    (fun a ha ↦ ?_) (fun a ha _ ↦ ⟨a, List.mem_append_left _ ha, rfl, rfl⟩) fun other hne ↦ ?_
  · simp [hid]
  · rcases List.mem_append.mp ha with ha | ha
    · exact hd.owner a ha
    · rw [List.mem_singleton.mp ha]
      exact ⟨g, List.mem_of_find?_eq_some hg, rfl, (of_decide_eq_true hmatch).1⟩
  · rw [List.filter_append, List.filter_singleton, decide_eq_false (Ne.symm hne)]
    exact List.append_nil _

theorem setApplicationEnabled_change (hd : d.WF) (name : String) (enabled : Bool) :
    Change d tenantID (setApplicationEnabled tenantID d name enabled) := by
  refine .applications ?_ (fun a ha ↦ ?_) (fun a ha _ ↦ ⟨_, List.mem_map_of_mem ha, ?_⟩)
      fun other hne ↦
    filter_enabled ApplicationRow.toResource (f := fun a ↦ { a with enabled := enabled })
    (fun _ ↦ rfl)
      (p := fun a ↦ Directory.named tenantID name a.toResource)
      (fun _ ↦ And.left) hne d.applications
  · rw [Table.Keyed, List.map_map]
    refine (congrArg List.Nodup (List.map_congr_left fun a _ ↦ ?_)).mpr hd.applications_keyed
    rw [Function.comp_apply]
    split <;> rfl
  · obtain ⟨a₀, ha₀, rfl⟩ := List.mem_map.mp ha
    split
    · exact hd.owner a₀ ha₀
    · exact hd.owner a₀ ha₀
  · split <;> exact ⟨rfl, rfl⟩

theorem postApplication_change (hd : d.WF) (name ownerGroup : String) (id : Int) :
    Change d tenantID (postApplication tenantID d name ownerGroup id).2 := by
  rw [postApplication]
  split
  case isTrue => exact .same
  case isFalse =>
    split
    case isTrue => exact .same
    case isFalse =>
      split
      · exact .same
      · rename_i g hg
        split
        case isTrue => exact .same
        case isFalse hfresh =>
          have hchange := newApplication_change hd hg hfresh
          dsimp only
          split <;> exact hchange

theorem patchApplication_change (hd : d.WF) (name : String) (enabled : Option Bool) :
    Change d tenantID (patchApplication tenantID d name enabled).2 := by
  cases enabled with
  | none => exact .same
  | some enabled =>
    rw [patchApplication]
    dsimp only
    split
    case isFalse => exact .same
    case isTrue =>
      have hchange : Change d tenantID (setApplicationEnabled tenantID d name enabled) :=
        setApplicationEnabled_change hd name enabled
      split <;> exact hchange

theorem deleteApplication_change (hd : d.WF) (name : String) :
    Change d tenantID (deleteApplication tenantID d name).2 := by
  rw [deleteApplication]
  split
  case isTrue => exact .same
  case isFalse =>
    split
    case isTrue => exact .same
    case isFalse hunused =>
      split
      case isFalse => exact .same
      case isTrue =>
        refine .applications (hd.applications_keyed.filter _)
          (fun a ha ↦ hd.owner a (List.mem_of_mem_filter ha))
          (fun a ha hused ↦ ⟨a, List.mem_filter.mpr ⟨ha, ?_⟩, rfl, rfl⟩)
          fun other hne ↦ filter_filter_of_imp fun a _ ha ↦ ?_
        · obtain ⟨k, hk, hid⟩ := hused
          refine decide_eq_true fun hmatch ↦ hunused (List.any_eq_true.mpr ⟨a, ha, ?_⟩)
          rw [Bool.and_eq_true, List.any_eq_true]
          exact ⟨decide_eq_true hmatch, k, hk, decide_eq_true hid⟩
        · exact decide_eq_true fun hmatch ↦ hne ((of_decide_eq_true ha).symm.trans hmatch.1)

/-- **Any mutation.** -/
theorem handleWrite_change (hd : d.WF) (w : TenantWrite) :
    Change d tenantID (handleWrite hash aliases tenantID d w).2 := by
  cases w with
  | postAPIKey body id plaintext => exact postAPIKey_change hd body id plaintext
  | patchAPIKey keyID body => exact patchAPIKey_change hd keyID body
  | deleteAPIKey keyID => exact deleteAPIKey_change hd keyID
  | postGroup name id => exact postGroup_change hd name id
  | patchGroup name enabled => exact patchGroup_change hd name enabled
  | deleteGroup name => exact deleteGroup_change hd name
  | postApplication name ownerGroup id => exact postApplication_change hd name ownerGroup id
  | patchApplication name enabled => exact patchApplication_change hd name enabled
  | deleteApplication name => exact deleteApplication_change hd name

end Change

/-! ## Mutations of a tenant -/

section Own

open Directory (named)

variable {hash : String → String} {aliases : List String} {tenantID : Int} {d : Directory}

/-- What a mutation adds does not clash with a row of another tenant.  Identity columns see to the
ids. -/
def Apart (hash : String → String) (tenantID : Int) (d : Directory) : TenantWrite → Prop
  | .postAPIKey body id plaintext =>
      Keys.Unclaimed d.registry tenantID id body.keyID (hash plaintext)
  | .postGroup _ id => ∀ g ∈ d.groups, g.tenantID ≠ tenantID → g.id ≠ id
  | .postApplication _ _ id => ∀ a ∈ d.applications, a.tenantID ≠ tenantID → a.id ≠ id
  | _ => True

instance (w : TenantWrite) : Decidable (Apart hash tenantID d w) := by
  cases w <;> unfold Apart <;> infer_instance

end Own

end Admin
end Voxeltoad
