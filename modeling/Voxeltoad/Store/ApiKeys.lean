import Voxeltoad.Lib.Loop
import Voxeltoad.Lib.Run
import Voxeltoad.Lib.Table

/-!
# The identity of an API key

`TenantRepo` of `internal/store`: a repository is bound to a tenant, and it issues, updates and
revokes API keys.  A key that is issued has an identity: the group that consumes, the application,
and the environment.  Keys from before have some of it or none, and `UpdateAPIKey` may complete it,
once.

Every call is a transaction, and the locks it takes serialise it with the others, so a concurrent
execution is a sequence of calls.  Any statement of a transaction may fail (`faults` says which);
the transaction is then rolled back.  Groups and applications come and go in between: the foreign
keys of `api_keys` refuse to delete one that a key refers to.
-/

set_option autoImplicit false

namespace Voxeltoad

namespace Keys

/-! ## Tables -/

/-- `tenants`. -/
structure Tenant where
  id : Int
  name : String
  enabled : Bool
  deriving DecidableEq, Repr

/-- A row of `groups` or of `applications`.  The group that owns an application is left out: all it
could do here is refuse one more deletion. -/
structure Resource where
  id : Int
  tenantID : Int
  name : String
  enabled : Bool
  deriving DecidableEq, Repr

/-- `api_keys`. -/
structure ApiKey where
  id : Int
  keyID : String
  hash : String
  tenantID : Int
  groupID : Option Int
  applicationID : Option Int
  environment : String
  allowedModels : List String
  revoked : Bool
  deriving DecidableEq, Repr

structure Registry where
  tenants : List Tenant
  groups : List Resource
  applications : List Resource
  apiKeys : List ApiKey
  deriving DecidableEq, Repr

/-- The errors of the repository: `ErrInvalidAPIKeyIdentity`, `ErrAPIKeyIdentityImmutable`, and what
the database says to a statement. -/
inductive KeyError where
  | invalidIdentity
  | identityImmutable
  | database
  deriving DecidableEq, Repr

/-! ## Identities -/

/-- `APIKeyIdentity`. -/
structure APIKeyIdentity where
  groupID : Int
  applicationID : Int
  environment : String
  deriving DecidableEq, Repr

/-- `valid`. -/
def APIKeyIdentity.valid (i : APIKeyIdentity) : Bool :=
  i.groupID > 0 && i.applicationID > 0 &&
    (i.environment == "dev" || i.environment == "staging" || i.environment == "prod")

/-- No part of the identity of a key is missing. -/
def ApiKey.complete (k : ApiKey) : Bool :=
  k.groupID.isSome && k.applicationID.isSome && k.environment != ""

/-- A part of the identity of a key is there and differs. -/
def ApiKey.conflicts (k : ApiKey) (identity : APIKeyIdentity) : Bool :=
  k.groupID.any (· ≠ identity.groupID) || k.applicationID.any (· ≠ identity.applicationID) ||
    (k.environment != "" && k.environment != identity.environment)

/-- `APIKeySpec`.  A slice may be nil. -/
structure APIKeySpec where
  keyID : String
  hash : String
  groupID : Option Int
  allowedModels : Option (List String)
  applicationID : Option Int
  environment : String
  deriving DecidableEq, Repr

/-- `APIKeyUpdate`. -/
structure APIKeyUpdate where
  allowedModels : Option (Option (List String))
  identity : Option APIKeyIdentity
  deriving DecidableEq, Repr

/-! ## Statements -/

/-- The `i`-th statement of a transaction, as far as it may fail. -/
def statement (faults : Nat → Bool) (i : Nat) : Except KeyError Unit :=
  if faults i then .error .database else .ok ()

/-- `SELECT EXISTS (…)`, and the error if not. -/
def requireRow (faults : Nat → Bool) (i : Nat) (found : Bool) : Except KeyError Unit := do
  statement faults i
  if found then .ok () else .error .invalidIdentity

section Repository

variable (faults : Nat → Bool) (tenantID : Int)

/-- `validateAPIKeyIdentity`. -/
def validateAPIKeyIdentity (identity : APIKeyIdentity) (db : Registry) : Except KeyError Unit := do
  requireRow faults 1 (db.tenants.any fun t ↦ t.id = tenantID && t.enabled)
  requireRow faults 2
    (db.groups.any fun g ↦ g.id = identity.groupID && g.tenantID = tenantID && g.enabled)
  requireRow faults 3
    (db.applications.any fun a ↦ a.id = identity.applicationID && a.tenantID =
      tenantID && a.enabled)

/-- `createAPIKey`: the columns `id`, `key_id` and `hash` are unique.  `id` is what the identity
column comes up with. -/
def createAPIKey (id : Int) (spec : APIKeySpec) (db : Registry) : Except KeyError Registry := do
  statement faults 4
  if db.apiKeys.any fun k ↦ k.id = id || k.keyID = spec.keyID || k.hash = spec.hash then
    .error .database
  else .ok { db with apiKeys := db.apiKeys ++
    [⟨id, spec.keyID, spec.hash, tenantID, spec.groupID, spec.applicationID, spec.environment,
      spec.allowedModels.getD [], false⟩] }

/-- **`CreateEnterpriseAPIKey`.** -/
def createEnterpriseAPIKey (id : Int) (spec : APIKeySpec) (db : Registry) :
    Except KeyError Registry :=
  match spec.groupID, spec.applicationID with
  | some groupID, some applicationID =>
    let identity : APIKeyIdentity := ⟨groupID, applicationID, spec.environment⟩
    if ¬identity.valid then .error .invalidIdentity
    else do
      validateAPIKeyIdentity faults tenantID identity db
      let db ← createAPIKey faults tenantID id spec db
      statement faults 5
      .ok db
  | _, _ => .error .invalidIdentity

/-- `UPDATE api_keys SET … WHERE id = ? AND tenant_id = ?`. -/
def Registry.updateKey (db : Registry) (id tenantID : Int) (f : ApiKey → ApiKey) : Registry :=
  { db with apiKeys := db.apiKeys.map fun k ↦ if k.id = id ∧ k.tenantID = tenantID then f k else k }

/-- The row that `UpdateAPIKey` locks.  An id of 0 is how it sees that there is none. -/
def Registry.current (db : Registry) (tenantID : Int) (keyID : String) : Option ApiKey :=
  (db.apiKeys.find? fun k ↦ k.tenantID = tenantID ∧ k.keyID = keyID ∧ k.revoked = false).filter
    fun k ↦ k.id ≠ 0

/-- The first half of `UpdateAPIKey`: the identity. -/
def completeIdentity (current : ApiKey) (db : Registry) :
    Option APIKeyIdentity → Except KeyError Registry
  | none => .ok db
  | some identity =>
    if current.conflicts identity then .error .identityImmutable
    else if current.complete then .ok db
    else do
      validateAPIKeyIdentity faults tenantID identity db
      statement faults 4
      .ok (db.updateKey current.id tenantID fun k ↦
        { k with groupID := some identity.groupID, applicationID := some identity.applicationID,
                 environment := identity.environment })

/-- The second half: the models. -/
def setModels (current : ApiKey) (db : Registry) :
    Option (Option (List String)) → Except KeyError Registry
  | none => .ok db
  | some models => do
    statement faults 5
    .ok (db.updateKey current.id tenantID fun k ↦ { k with allowedModels := models.getD [] })

/-- **`UpdateAPIKey`.**  Whether there was such a key, and the tables after it. -/
def updateAPIKey (keyID : String) (patch : APIKeyUpdate) (db : Registry) :
    Except KeyError (Bool × Registry) :=
  if patch.identity.any fun i ↦ !i.valid then .error .invalidIdentity
  else do
    statement faults 0
    match db.current tenantID keyID with
    | none =>
      statement faults 6
      .ok (false, db)
    | some current =>
      let db ← completeIdentity faults tenantID current db patch.identity
      let db ← setModels faults tenantID current db patch.allowedModels
      statement faults 6
      .ok (true, db)

/-- **`RevokeAPIKey`.** -/
def revokeAPIKey (keyID : String) (db : Registry) : Except KeyError Registry := do
  statement faults 0
  .ok { db with apiKeys := db.apiKeys.map fun k ↦
    if k.keyID = keyID ∧ k.tenantID = tenantID ∧ k.revoked = false then { k with revoked := true }
      else k }

/-! ## Groups and applications -/

/-- `CreateGroup` and `Create`: `id` and the name within the tenant are unique. -/
def createResource (id : Int) (name : String) (rows : List Resource) :
    Except KeyError (List Resource) :=
  if rows.any fun r ↦ r.id = id || (r.tenantID = tenantID && r.name = name) then .error .database
  else .ok (rows ++ [⟨id, tenantID, name, true⟩])

/-- `SetGroupEnabled` and `SetEnabled`. -/
def setEnabled (name : String) (enabled : Bool) (rows : List Resource) : List Resource :=
  rows.map fun r ↦ if r.tenantID = tenantID ∧ r.name = name then { r with enabled := enabled }
  else r

/-- `DeleteGroup` and `Delete`: the foreign key of the API keys refuses to delete a row they refer
to. -/
def deleteResource (name : String) (refer : ApiKey → Option Int) (keys : List ApiKey)
    (rows : List Resource) : Except KeyError (List Resource) :=
  if rows.any fun r ↦ r.tenantID = tenantID && r.name = name && keys.any fun k ↦ refer k =
    some r.id then .error .database
  else .ok (rows.filter fun r ↦ ¬(r.tenantID = tenantID ∧ r.name = name))

end Repository

/-! ## Calls -/

/-- A call of a repository. -/
inductive Op where
  | createEnterpriseAPIKey (faults : Nat → Bool) (tenantID id : Int) (spec : APIKeySpec)
  | updateAPIKey (faults : Nat → Bool) (tenantID : Int) (keyID : String) (patch : APIKeyUpdate)
  | revokeAPIKey (faults : Nat → Bool) (tenantID : Int) (keyID : String)
  | setTenantEnabled (name : String) (enabled : Bool)
  | createGroup (tenantID id : Int) (name : String)
  | setGroupEnabled (tenantID : Int) (name : String) (enabled : Bool)
  | deleteGroup (tenantID : Int) (name : String)
  | createApplication (tenantID id : Int) (name : String)
  | setApplicationEnabled (tenantID : Int) (name : String) (enabled : Bool)
  | deleteApplication (tenantID : Int) (name : String)

namespace Op

/-- The tenant that the repository is bound to.  Tenants are enabled from outside. -/
def tenantID : Op → Option Int
  | .createEnterpriseAPIKey _ tenantID _ _ => some tenantID
  | .updateAPIKey _ tenantID _ _ => some tenantID
  | .revokeAPIKey _ tenantID _ => some tenantID
  | .setTenantEnabled _ _ => none
  | .createGroup tenantID _ _ => some tenantID
  | .setGroupEnabled tenantID _ _ => some tenantID
  | .deleteGroup tenantID _ => some tenantID
  | .createApplication tenantID _ _ => some tenantID
  | .setApplicationEnabled tenantID _ _ => some tenantID
  | .deleteApplication tenantID _ => some tenantID

/-- The transaction that a call runs. -/
def tx (db : Registry) : Op → Except KeyError Registry
  | .createEnterpriseAPIKey faults tenantID id spec =>
    Keys.createEnterpriseAPIKey faults tenantID id spec db
  | .updateAPIKey faults tenantID keyID patch =>
    (Keys.updateAPIKey faults tenantID keyID patch db).map Prod.snd
  | .revokeAPIKey faults tenantID keyID => Keys.revokeAPIKey faults tenantID keyID db
  | .setTenantEnabled name enabled =>
    .ok { db with tenants := db.tenants.map fun t ↦
      if t.name = name then { t with enabled := enabled } else t }
  | .createGroup tenantID id name =>
    (createResource tenantID id name db.groups).map fun groups ↦ { db with groups := groups }
  | .setGroupEnabled tenantID name enabled =>
    .ok { db with groups := setEnabled tenantID name enabled db.groups }
  | .deleteGroup tenantID name =>
    (deleteResource tenantID name ApiKey.groupID db.apiKeys db.groups).map fun groups ↦
      { db with groups := groups }
  | .createApplication tenantID id name =>
    (createResource tenantID id name db.applications).map fun applications ↦
      { db with applications := applications }
  | .setApplicationEnabled tenantID name enabled =>
    .ok { db with applications := setEnabled tenantID name enabled db.applications }
  | .deleteApplication tenantID name =>
    (deleteResource tenantID name ApiKey.applicationID db.apiKeys db.applications).map
      fun applications ↦ { db with applications := applications }

end Op

/-- A transaction that fails is rolled back. -/
def step (db : Registry) (op : Op) : Registry :=
  match op.tx db with
  | .ok db' => db'
  | .error _ => db

/-! ## What a call may do to a key -/

/-- **The identity of a key is kept**: the parts that are there do not change. -/
structure Kept (k k' : ApiKey) : Prop where
  id : k'.id = k.id
  keyID : k'.keyID = k.keyID
  tenantID : k'.tenantID = k.tenantID
  group : ∀ groupID, k.groupID = some groupID → k'.groupID = some groupID
  application : ∀ applicationID, k.applicationID = some applicationID →
    k'.applicationID = some applicationID
  environment : k.environment ≠ "" → k'.environment = k.environment

theorem Kept.refl (k : ApiKey) : Kept k k :=
  ⟨rfl, rfl, rfl, fun _ h ↦ h, fun _ h ↦ h, fun _ ↦ rfl⟩

theorem Kept.trans {k k' k'' : ApiKey} (h : Kept k k') (h' : Kept k' k'') : Kept k k'' where
  id := h'.id.trans h.id
  keyID := h'.keyID.trans h.keyID
  tenantID := h'.tenantID.trans h.tenantID
  group := fun groupID hgroup ↦ h'.group groupID (h.group groupID hgroup)
  application :=
    fun applicationID happ ↦ h'.application applicationID (h.application applicationID happ)
  environment := by
    intro henv
    have heq := h.environment henv
    exact (h'.environment (heq ▸ henv)).trans heq

/-- The row that a column refers to is one of the key's own tenant. -/
def Refers (rows : List Resource) (tenantID : Int) (id : Option Int) : Prop :=
  ∃ r ∈ rows, id = some r.id ∧ r.tenantID = tenantID

/-- **A key is owned**: its group and its application are of its own tenant. -/
structure Owned (db : Registry) (k : ApiKey) : Prop where
  group : Refers db.groups k.tenantID k.groupID
  application : Refers db.applications k.tenantID k.applicationID

theorem Owned.congr {db : Registry} {k k' : ApiKey} (h : Owned db k)
    (htenant : k'.tenantID = k.tenantID) (hgroup : k'.groupID = k.groupID)
    (happ : k'.applicationID = k.applicationID) : Owned db k' := by
  refine ⟨?_, ?_⟩
  · rw [htenant, hgroup]
    exact h.group
  · rw [htenant, happ]
    exact h.application

/-- A change to the keys of one tenant.  Identities are kept, and one that becomes complete is
owned. -/
structure Rewrites (db : Registry) (tenantID : Int) (f : ApiKey → ApiKey) : Prop where
  other : ∀ k ∈ db.apiKeys, k.tenantID ≠ tenantID → f k = k
  kept : ∀ k ∈ db.apiKeys, Kept k (f k)
  owned : ∀ k ∈ db.apiKeys, (f k).complete = true → Owned db (f k) ∨
    (k.complete = true ∧ (f k).groupID = k.groupID ∧ (f k).applicationID = k.applicationID)

/-- The tables after a change to the keys. -/
def Registry.rewrite (db : Registry) (f : ApiKey → ApiKey) : Registry :=
  { db with apiKeys := db.apiKeys.map f }

theorem Rewrites.id (db : Registry) (tenantID : Int) : Rewrites db tenantID fun k ↦ k :=
  ⟨fun _ _ _ ↦ rfl, fun k _ ↦ Kept.refl k, fun _ _ h ↦ .inr ⟨h, rfl, rfl⟩⟩

/-- One change after another. -/
theorem Rewrites.comp {db : Registry} {tenantID : Int} {f g : ApiKey → ApiKey}
    (hf : Rewrites db tenantID f) (hg : Rewrites (db.rewrite f) tenantID g) :
    Rewrites db tenantID fun k ↦ g (f k) := by
  have hmem : ∀ k ∈ db.apiKeys, f k ∈ (db.rewrite f).apiKeys := fun k hk ↦ List.mem_map_of_mem hk
  refine ⟨?_, ?_, ?_⟩
  · intro k hk hne
    have hfk := hf.other k hk hne
    have hgk := hg.other (f k) (hmem k hk) (hfk.symm ▸ hne)
    rw [hgk, hfk]
  · exact fun k hk ↦ (hf.kept k hk).trans (hg.kept (f k) (hmem k hk))
  · intro k hk hcomplete
    rcases hg.owned (f k) (hmem k hk) hcomplete with howned | ⟨hcomplete, hgroup, happ⟩
    · exact .inl ⟨howned.group, howned.application⟩
    · rcases hf.owned k hk hcomplete with howned | ⟨hcomplete, hgroup', happ'⟩
      · exact .inl (howned.congr (hg.kept (f k) (hmem k hk)).tenantID hgroup happ)
      · exact .inr ⟨hcomplete, hgroup.trans hgroup', happ.trans happ'⟩

/-! ## What the transactions do -/

theorem requireRow_ok {faults : Nat → Bool} {i : Nat} {found : Bool} {u : Unit}
    (h : requireRow faults i found = .ok u) : found = true := by
  obtain ⟨_, -, h⟩ := Loop.bind_eq_ok.mp h
  split at h
  · assumption
  · cases h

section Transactions

variable {faults : Nat → Bool} {tenantID : Int} {db db' : Registry}

/-- An identity that is valid is of the repository's tenant. -/
theorem validateAPIKeyIdentity_ok {identity : APIKeyIdentity} {u : Unit}
    (h : validateAPIKeyIdentity faults tenantID identity db = .ok u) :
    Refers db.groups tenantID (some identity.groupID) ∧
      Refers db.applications tenantID (some identity.applicationID) := by
  obtain ⟨_, -, h⟩ := Loop.bind_eq_ok.mp h
  obtain ⟨_, hgroup, happ⟩ := Loop.bind_eq_ok.mp h
  have hgroup := requireRow_ok hgroup
  have happ := requireRow_ok happ
  simp only [List.any_eq_true, Bool.and_eq_true, decide_eq_true_eq] at hgroup happ
  obtain ⟨g, hg, ⟨hgid, hgtenant⟩, -⟩ := hgroup
  obtain ⟨a, ha, ⟨haid, hatenant⟩, -⟩ := happ
  exact ⟨⟨g, hg, congrArg some hgid.symm, hgtenant⟩, ⟨a, ha, congrArg some haid.symm, hatenant⟩⟩

/-- **A key that is issued** is new, complete and owned. -/
theorem createEnterpriseAPIKey_ok {id : Int} {spec : APIKeySpec}
    (h : createEnterpriseAPIKey faults tenantID id spec db = .ok db') :
    ∃ k, k.tenantID = tenantID ∧ Owned db k ∧ (∀ k' ∈ db.apiKeys, k'.id ≠ k.id) ∧
      db' = { db with apiKeys := db.apiKeys ++ [k] } := by
  rw [createEnterpriseAPIKey] at h
  split at h
  · rename_i groupID applicationID hgroup happ
    dsimp only at h
    split at h
    · cases h
    · obtain ⟨_, hvalid, h⟩ := Loop.bind_eq_ok.mp h
      obtain ⟨hgroups, happs⟩ := validateAPIKeyIdentity_ok hvalid
      obtain ⟨db₁, hcreate, h⟩ := Loop.bind_eq_ok.mp h
      obtain ⟨_, -, h⟩ := Loop.bind_eq_ok.mp h
      obtain rfl := Except.ok.inj h
      obtain ⟨_, -, h⟩ := Loop.bind_eq_ok.mp hcreate
      split at h
      · cases h
      · rename_i hfresh
        refine ⟨_, rfl, ?_, ?_, (Except.ok.inj h).symm⟩
        · refine ⟨?_, ?_⟩
          · rw [hgroup]
            exact hgroups
          · rw [happ]
            exact happs
        · intro k' hk' heq
          refine hfresh (List.any_eq_true.mpr ⟨k', hk', ?_⟩)
          simp [heq]
  · cases h

theorem mem_of_current {keyID : String} {current : ApiKey}
    (h : db.current tenantID keyID = some current) :
    current ∈ db.apiKeys ∧ current.tenantID = tenantID := by
  obtain ⟨hfind, -⟩ := Option.filter_eq_some_iff.mp h
  have hcond := List.find?_some hfind
  simp only [decide_eq_true_eq] at hcond
  exact ⟨List.mem_of_find?_eq_some hfind, hcond.1⟩

/-- An identity that does not conflict agrees with the parts that are there. -/
theorem kept_of_not_conflicts {k : ApiKey} {identity : APIKeyIdentity} (h : ¬k.conflicts identity) :
    Kept k { k with groupID := some identity.groupID, applicationID := some identity.applicationID,
                    environment := identity.environment } := by
  simp only [ApiKey.conflicts, Bool.or_eq_true, Bool.and_eq_true, bne_iff_ne, Option.any_eq_true,
    decide_eq_true_eq, not_or, not_exists, not_and, not_not] at h
  obtain ⟨⟨hgroup, happ⟩, henv⟩ := h
  refine ⟨rfl, rfl, rfl, ?_, ?_, ?_⟩
  · intro groupID hsome
    rw [hgroup groupID hsome]
  · intro applicationID hsome
    rw [happ applicationID hsome]
  · exact fun hne ↦ (henv hne).symm

/-- The identity is completed, or left alone. -/
theorem completeIdentity_ok {current : ApiKey} {identity : Option APIKeyIdentity}
    (hkeyed : Table.Keyed ApiKey.id db.apiKeys) (hcurrent : current ∈ db.apiKeys)
    (htenant : current.tenantID = tenantID)
    (h : completeIdentity faults tenantID current db identity = .ok db') :
    ∃ f, Rewrites db tenantID f ∧ db' = db.rewrite f := by
  have hsame : db = db.rewrite fun k ↦ k := by simp [Registry.rewrite]
  cases identity with
  | none =>
    obtain rfl := Except.ok.inj h
    exact ⟨_, Rewrites.id db tenantID, hsame⟩
  | some identity =>
    rw [completeIdentity] at h
    split at h
    · cases h
    · rename_i hconflicts
      split at h
      · obtain rfl := Except.ok.inj h
        exact ⟨_, Rewrites.id db tenantID, hsame⟩
      · obtain ⟨_, hvalid, h⟩ := Loop.bind_eq_ok.mp h
        obtain ⟨_, -, h⟩ := Loop.bind_eq_ok.mp h
        obtain rfl := Except.ok.inj h
        obtain ⟨hgroup, happ⟩ := validateAPIKeyIdentity_ok hvalid
        refine ⟨_, ⟨?_, ?_, ?_⟩, rfl⟩
        · exact fun k _ hne ↦ if_neg fun hk ↦ hne hk.2
        · intro k hk
          dsimp only
          split
          · rename_i hid
            obtain rfl := hkeyed.eq_of_key hk hcurrent hid.1
            exact kept_of_not_conflicts hconflicts
          · exact Kept.refl k
        · intro k hk hcomplete
          dsimp only at hcomplete ⊢
          split
          · rename_i hid
            refine .inl ⟨?_, ?_⟩
            · rw [← hid.2] at hgroup
              exact hgroup
            · rw [← hid.2] at happ
              exact happ
          · rename_i hid
            rw [if_neg hid] at hcomplete
            exact .inr ⟨hcomplete, rfl, rfl⟩

/-- A change that does not touch the identity. -/
theorem rewrites_of_same {p : ApiKey → Prop} [DecidablePred p] {f : ApiKey → ApiKey}
    (hp : ∀ k, p k → k.tenantID = tenantID)
    (hf : ∀ k, (f k).id = k.id ∧ (f k).keyID = k.keyID ∧ (f k).tenantID = k.tenantID ∧
      (f k).groupID = k.groupID ∧ (f k).applicationID = k.applicationID ∧
      (f k).environment = k.environment) :
    Rewrites db tenantID fun k ↦ if p k then f k else k := by
  refine ⟨?_, ?_, ?_⟩
  · exact fun k _ hne ↦ if_neg fun hk ↦ hne (hp k hk)
  · intro k _
    obtain ⟨hid, hkey, htenant, hgroup, happ, henv⟩ := hf k
    split
    · exact ⟨hid, hkey, htenant, fun _ h ↦ hgroup.trans h, fun _ h ↦ happ.trans h, fun _ ↦ henv⟩
    · exact Kept.refl k
  · intro k _ hcomplete
    obtain ⟨-, -, -, hgroup, happ, henv⟩ := hf k
    by_cases hk : p k
    · rw [if_pos hk] at hcomplete ⊢
      rw [ApiKey.complete, hgroup, happ, henv] at hcomplete
      exact .inr ⟨hcomplete, hgroup, happ⟩
    · rw [if_neg hk] at hcomplete ⊢
      exact .inr ⟨hcomplete, rfl, rfl⟩

/-- The models of a key are no part of its identity. -/
theorem setModels_ok {current : ApiKey} {models : Option (Option (List String))}
    (h : setModels faults tenantID current db models = .ok db') :
    ∃ f, Rewrites db tenantID f ∧ db' = db.rewrite f := by
  cases models with
  | none =>
    obtain rfl := Except.ok.inj h
    exact ⟨_, Rewrites.id db tenantID, by simp [Registry.rewrite]⟩
  | some models =>
    obtain ⟨_, -, h⟩ := Loop.bind_eq_ok.mp h
    obtain rfl := Except.ok.inj h
    refine ⟨_, rewrites_of_same (p := fun k ↦ k.id = current.id ∧ k.tenantID = tenantID)
      (f := fun k ↦ { k with allowedModels := models.getD [] }) ?_ ?_, rfl⟩
    · exact fun _ hk ↦ hk.2
    · exact fun _ ↦ ⟨rfl, rfl, rfl, rfl, rfl, rfl⟩

/-- **`UpdateAPIKey`** changes keys of its tenant, and keeps their identity. -/
theorem updateAPIKey_ok {keyID : String} {patch : APIKeyUpdate} {found : Bool}
    (hkeyed : Table.Keyed ApiKey.id db.apiKeys)
    (h : updateAPIKey faults tenantID keyID patch db = .ok (found, db')) :
    ∃ f, Rewrites db tenantID f ∧ db' = db.rewrite f := by
  rw [updateAPIKey] at h
  split at h
  · cases h
  · obtain ⟨_, -, h⟩ := Loop.bind_eq_ok.mp h
    split at h
    · obtain ⟨_, -, h⟩ := Loop.bind_eq_ok.mp h
      cases h
      exact ⟨_, Rewrites.id db tenantID, by simp [Registry.rewrite]⟩
    · rename_i current hcurrent
      obtain ⟨hmem, htenant⟩ := mem_of_current hcurrent
      obtain ⟨db₁, hidentity, h⟩ := Loop.bind_eq_ok.mp h
      obtain ⟨db₂, hmodels, h⟩ := Loop.bind_eq_ok.mp h
      obtain ⟨_, -, h⟩ := Loop.bind_eq_ok.mp h
      cases h
      obtain ⟨f, hf, rfl⟩ := completeIdentity_ok hkeyed hmem htenant hidentity
      obtain ⟨g, hg, rfl⟩ := setModels_ok hmodels
      refine ⟨_, hf.comp hg, ?_⟩
      simp [Registry.rewrite]

/-- `RevokeAPIKey` is a change to keys of its tenant, too. -/
theorem revokeAPIKey_ok {keyID : String} (h : revokeAPIKey faults tenantID keyID db = .ok db') :
    ∃ f, Rewrites db tenantID f ∧ db' = db.rewrite f := by
  obtain ⟨_, -, h⟩ := Loop.bind_eq_ok.mp h
  obtain rfl := Except.ok.inj h
  refine ⟨_, rewrites_of_same
    (p := fun k ↦ k.keyID = keyID ∧ k.tenantID = tenantID ∧ k.revoked = false)
    (f := fun k ↦ { k with revoked := true }) ?_ ?_, rfl⟩
  · exact fun _ hk ↦ hk.2.1
  · exact fun _ ↦ ⟨rfl, rfl, rfl, rfl, rfl, rfl⟩

/-- A row that a key refers to is still there after a call on groups or applications. -/
theorem Refers.setEnabled {rows : List Resource} {tenantID' : Int} {id : Option Int} {name : String}
    {enabled : Bool} (h : Refers rows tenantID' id) :
    Refers (Keys.setEnabled tenantID name enabled rows) tenantID' id := by
  obtain ⟨r, hr, hid, htenant⟩ := h
  refine ⟨_, List.mem_map_of_mem hr, ?_, ?_⟩
  · split
    · exact hid
    · exact hid
  · split
    · exact htenant
    · exact htenant

theorem Refers.createResource {rows rows' : List Resource} {tenantID' id' : Int} {id : Option Int}
    {name : String} (hrows : Keys.createResource tenantID id' name rows = .ok rows')
    (h : Refers rows tenantID' id) : Refers rows' tenantID' id := by
  rw [Keys.createResource] at hrows
  split at hrows
  · cases hrows
  · obtain rfl := Except.ok.inj hrows
    obtain ⟨r, hr, hid, htenant⟩ := h
    exact ⟨r, List.mem_append_left _ hr, hid, htenant⟩

theorem Refers.deleteResource {rows rows' : List Resource} {tenantID' : Int} {name : String}
    {refer : ApiKey → Option Int} {keys : List ApiKey} {k : ApiKey} (hk : k ∈ keys)
    (hrows : Keys.deleteResource tenantID name refer keys rows = .ok rows')
    (h : Refers rows tenantID' (refer k)) : Refers rows' tenantID' (refer k) := by
  rw [Keys.deleteResource] at hrows
  split at hrows
  · cases hrows
  · rename_i hnone
    obtain rfl := Except.ok.inj hrows
    obtain ⟨r, hr, hid, htenant⟩ := h
    refine ⟨r, List.mem_filter.mpr ⟨hr, ?_⟩, hid, htenant⟩
    -- The foreign key would have refused to delete the row.
    refine decide_eq_true fun hmatch ↦ hnone (List.any_eq_true.mpr ⟨r, hr, ?_⟩)
    simp only [Bool.and_eq_true, decide_eq_true_eq, List.any_eq_true]
    exact ⟨hmatch, k, hk, hid⟩

end Transactions

/-! ## Runs of calls -/

/-- **What a call does**: it changes keys of its tenant, it issues one, or it does not touch
them. -/
inductive Effect (db : Registry) (op : Op) (db' : Registry) : Prop where
  | rewrite (tenantID : Int) (f : ApiKey → ApiKey) (hop : op.tenantID = some tenantID)
      (h : Rewrites db tenantID f) (heq : db' = db.rewrite f)
  | issue (k : ApiKey) (howned : Owned db k) (hfresh : ∀ k' ∈ db.apiKeys, k'.id ≠ k.id)
      (heq : db' = { db with apiKeys := db.apiKeys ++ [k] })
  | elsewhere (hkeys : db'.apiKeys = db.apiKeys)
      (howned : ∀ k ∈ db.apiKeys, Owned db k → Owned db' k)

theorem map_eq_ok {α β : Type} {x : Except KeyError α} {f : α → β} {b : β} (h : x.map f = .ok b) :
    ∃ a, x = .ok a ∧ f a = b := by
  cases x with
  | error e => cases h
  | ok a => exact ⟨a, rfl, Except.ok.inj h⟩

theorem tx_effect {db db' : Registry} {op : Op} (hkeyed : Table.Keyed ApiKey.id db.apiKeys)
    (h : op.tx db = .ok db') : Effect db op db' := by
  cases op with
  | createEnterpriseAPIKey faults tenantID id spec =>
    obtain ⟨k, -, howned, hfresh, heq⟩ := createEnterpriseAPIKey_ok h
    exact .issue k howned hfresh heq
  | updateAPIKey faults tenantID keyID patch =>
    obtain ⟨⟨found, db₁⟩, hupdate, rfl⟩ := map_eq_ok h
    obtain ⟨f, hf, heq⟩ := updateAPIKey_ok hkeyed hupdate
    exact .rewrite tenantID f rfl hf heq
  | revokeAPIKey faults tenantID keyID =>
    obtain ⟨f, hf, heq⟩ := revokeAPIKey_ok h
    exact .rewrite tenantID f rfl hf heq
  | setTenantEnabled name enabled =>
    obtain rfl := Except.ok.inj h
    exact .elsewhere rfl fun k _ howned ↦ ⟨howned.group, howned.application⟩
  | createGroup tenantID id name =>
    obtain ⟨groups, hrows, rfl⟩ := map_eq_ok h
    exact .elsewhere rfl fun k _ howned ↦ ⟨howned.group.createResource hrows, howned.application⟩
  | setGroupEnabled tenantID name enabled =>
    obtain rfl := Except.ok.inj h
    exact .elsewhere rfl fun k _ howned ↦ ⟨howned.group.setEnabled, howned.application⟩
  | deleteGroup tenantID name =>
    obtain ⟨groups, hrows, rfl⟩ := map_eq_ok h
    exact .elsewhere rfl fun k hk howned ↦
      ⟨howned.group.deleteResource hk hrows, howned.application⟩
  | createApplication tenantID id name =>
    obtain ⟨applications, hrows, rfl⟩ := map_eq_ok h
    exact .elsewhere rfl fun k _ howned ↦ ⟨howned.group, howned.application.createResource hrows⟩
  | setApplicationEnabled tenantID name enabled =>
    obtain rfl := Except.ok.inj h
    exact .elsewhere rfl fun k _ howned ↦ ⟨howned.group, howned.application.setEnabled⟩
  | deleteApplication tenantID name =>
    obtain ⟨applications, hrows, rfl⟩ := map_eq_ok h
    exact .elsewhere rfl fun k hk howned ↦
      ⟨howned.group, howned.application.deleteResource hk hrows⟩

theorem step_effect {db : Registry} (hkeyed : Table.Keyed ApiKey.id db.apiKeys) (op : Op) :
    Effect db op (step db op) := by
  rw [step]
  split
  · rename_i db' h
    exact tx_effect hkeyed h
  · exact .elsewhere rfl fun _ _ howned ↦ howned

/-- **The invariant**: a primary key, and ownership of the identities that are complete. -/
structure Inv (db : Registry) : Prop where
  keyed : Table.Keyed ApiKey.id db.apiKeys
  owned : ∀ k ∈ db.apiKeys, k.complete = true → Owned db k

theorem Effect.inv {db db' : Registry} {op : Op} (h : Effect db op db')
    (hdb : Inv db) : Inv db' := by
  cases h with
  | rewrite tenantID f hop hf heq =>
    subst heq
    refine ⟨?_, ?_⟩
    · have hids : (db.apiKeys.map f).map ApiKey.id = db.apiKeys.map ApiKey.id := by
        rw [List.map_map]
        exact List.map_congr_left fun k hk ↦ (hf.kept k hk).id
      rw [Table.Keyed, Registry.rewrite, hids]
      exact hdb.keyed
    · intro k' hk' hcomplete
      obtain ⟨k, hk, rfl⟩ := List.mem_map.mp hk'
      rcases hf.owned k hk hcomplete with howned | ⟨hcomplete, hgroup, happ⟩
      · exact ⟨howned.group, howned.application⟩
      · have howned := (hdb.owned k hk hcomplete).congr (hf.kept k hk).tenantID hgroup happ
        exact ⟨howned.group, howned.application⟩
  | issue k howned hfresh heq =>
    subst heq
    refine ⟨hdb.keyed.append hfresh, ?_⟩
    intro k' hk' hcomplete
    rcases List.mem_append.mp hk' with hk' | hk'
    · exact ⟨(hdb.owned k' hk' hcomplete).group, (hdb.owned k' hk' hcomplete).application⟩
    · rw [List.mem_singleton.mp hk']
      exact ⟨howned.group, howned.application⟩
  | elsewhere hkeys howned =>
    refine ⟨hkeys ▸ hdb.keyed, fun k hk hcomplete ↦ ?_⟩
    rw [hkeys] at hk
    exact howned k hk (hdb.owned k hk hcomplete)

/-- A key is still there after a call, with its identity. -/
theorem Effect.kept {db db' : Registry} {op : Op} (h : Effect db op db') {k : ApiKey}
    (hk : k ∈ db.apiKeys) : ∃ k' ∈ db'.apiKeys, Kept k k' := by
  cases h with
  | rewrite tenantID f hop hf heq =>
    subst heq
    exact ⟨f k, List.mem_map_of_mem hk, hf.kept k hk⟩
  | issue k' howned hfresh heq =>
    subst heq
    exact ⟨k, List.mem_append_left _ hk, Kept.refl k⟩
  | elsewhere hkeys howned => exact ⟨k, hkeys ▸ hk, Kept.refl k⟩

/-- A call of another tenant's repository leaves a key alone. -/
theorem Effect.other {db db' : Registry} {op : Op} (h : Effect db op db') {k : ApiKey}
    (hk : k ∈ db.apiKeys) (hop : op.tenantID ≠ some k.tenantID) : k ∈ db'.apiKeys := by
  cases h with
  | rewrite tenantID f hop' hf heq =>
    subst heq
    have hne : k.tenantID ≠ tenantID := fun heq ↦ hop (heq ▸ hop')
    exact List.mem_map.mpr ⟨k, hk, hf.other k hk hne⟩
  | issue k' howned hfresh heq =>
    subst heq
    exact List.mem_append_left _ hk
  | elsewhere hkeys howned => exact hkeys ▸ hk

theorem inv_run {db : Registry} (hdb : Inv db) (ops : List Op) : Inv (Run.run step db ops) :=
  Run.invariant (fun db op (h : Inv db) ↦ (step_effect h.keyed op).inv h) ops hdb

/-- A key is still there after any number of calls, with its identity. -/
theorem kept_run {db : Registry} (hdb : Inv db) (ops : List Op) {k : ApiKey} (hk : k ∈ db.apiKeys) :
    ∃ k' ∈ (Run.run step db ops).apiKeys, Kept k k' := by
  have hinv : Inv (Run.run step db ops) ∧ ∃ k' ∈ (Run.run step db ops).apiKeys, Kept k k' := by
    refine Run.invariant (I := fun s ↦ Inv s ∧ ∃ k' ∈ s.apiKeys, Kept k k') ?_ ops
      ⟨hdb, k, hk, Kept.refl k⟩
    rintro s op ⟨hs, k', hk', hkept⟩
    have heffect := step_effect hs.keyed op
    obtain ⟨k'', hk'', hkept'⟩ := heffect.kept hk'
    exact ⟨heffect.inv hs, k'', hk'', hkept.trans hkept'⟩
  exact hinv.2

/-- **The identity of an API key is immutable and owned.**  After any calls through any
repositories: whatever calls follow, each key is still there, its identity kept; each key with a
complete identity is owned; an `UpdateAPIKey` that fails changes nothing; and a call through the
repository of another tenant leaves a key as it is. -/
theorem api_key_identity (db : Registry) (hdb : Inv db) (ops : List Op) :
    Table.Keyed ApiKey.id (Run.run step db ops).apiKeys ∧
      (∀ ops', ∀ k ∈ (Run.run step db ops).apiKeys,
        ∃ k' ∈ (Run.run step db (ops ++ ops')).apiKeys, Kept k k') ∧
      (∀ k ∈ (Run.run step db ops).apiKeys, k.complete = true → Owned (Run.run step db ops) k) ∧
      (∀ faults tenantID keyID patch e,
        updateAPIKey faults tenantID keyID patch (Run.run step db ops) = .error e →
        step (Run.run step db ops) (.updateAPIKey faults tenantID keyID patch) =
          Run.run step db ops) ∧
      ∀ op, ∀ k ∈ (Run.run step db ops).apiKeys, op.tenantID ≠ some k.tenantID →
        k ∈ (step (Run.run step db ops) op).apiKeys := by
  have hinv := inv_run hdb ops
  refine ⟨hinv.keyed, ?_, hinv.owned, ?_, ?_⟩
  · intro ops' k hk
    rw [Run.run_append]
    exact kept_run hinv ops' hk
  · intro faults tenantID keyID patch e herror
    rw [step, Op.tx, herror]
    rfl
  · exact fun op k hk hop ↦ (step_effect hinv.keyed op).other hk hop

/-- Two tenants, and a key of the first one from before, which has a group and no application. -/
def legacy : Registry where
  tenants := [⟨1, "acme", true⟩, ⟨2, "globex", true⟩]
  groups := [⟨10, 1, "core", true⟩, ⟨20, 2, "core", true⟩]
  applications := [⟨100, 1, "chat", true⟩]
  apiKeys := [⟨1, "k1", "h1", 1, some 10, none, "", ["gpt"], false⟩]

/-- The other tenant tries to take the key over, and then it is completed by its own. -/
def completion : List Op :=
  [.updateAPIKey (fun _ ↦ false) 2 "k1" ⟨some none, some ⟨20, 100, "prod"⟩⟩,
    .updateAPIKey (fun _ ↦ false) 1 "k1" ⟨none, some ⟨10, 100, "prod"⟩⟩]

theorem legacy_inv : Inv legacy := by
  refine ⟨by decide, ?_⟩
  intro k hk hcomplete
  rw [List.mem_singleton.mp hk] at hcomplete
  cases hcomplete

theorem api_key_identity_completed :
    (Run.run step legacy completion).apiKeys =
        [⟨1, "k1", "h1", 1, some 10, some 100, "prod", ["gpt"], false⟩] ∧
      ∀ k ∈ (Run.run step legacy completion).apiKeys, k.complete = true →
        Owned (Run.run step legacy completion) k :=
  ⟨by decide, (api_key_identity legacy legacy_inv completion).2.2.1⟩

end Keys

end Voxeltoad
