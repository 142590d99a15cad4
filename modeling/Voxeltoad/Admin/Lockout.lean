import Voxeltoad.Admin.Operators

/-!
# Administrative lockout

The handlers of `internal/admin` try to keep the platform administrable: the last super-admin is
neither deleted nor moved to another role.  What they count is the role *text*, which `PUT` does
not write, and role `PATCH` counts nothing at all.  So the last operator that holds the wildcard can
lose it in three ways, and `Strips` says when a request does that: it passes the checks of its
handler, and whoever holds the wildcard is the operator it deletes, or the operator it moves to a
role without the wildcard, or holds it through the role it rewrites.

`administrable_iff` is that this is exact: in a run from an administrable state, every state is
administrable iff no request strips the platform.
-/

set_option autoImplicit false

namespace Voxeltoad
namespace Admin

variable {hashPassword : String → String → String}

/-- Some operator's loaded permissions contain the wildcard. -/
def Administrable (db : Db) : Prop := ∃ op ∈ db.operators, db.IsAdmin op

instance (db : Db) : Decidable (Administrable db) := inferInstanceAs (Decidable (∃ op ∈ _, _))

/-- The call passes the checks of its handler, and everyone who holds the wildcard loses it. -/
def StripsAll (db : Db) : Call → Prop
  | .deleteOperator (some id) =>
    (∀ op ∈ db.operatorByID id, ¬ LastSuperAdmin db op) ∧
      ∀ op ∈ db.operators, db.IsAdmin op → op.id = id
  | .putOperator (some id) body _ =>
    (checkRole db id body.roleID body.tenantID = .ok () ∧
        db.Updatable id body.email body.roleID body.tenantID) ∧
      (∃ r ∈ body.roleID, wildcard ∉ db.permissionsOf r) ∧
      ∀ op ∈ db.operators, db.IsAdmin op → op.id = id
  | .patchRole (some id) body =>
    db.roleByID id ≠ none ∧
      (∃ ps ∈ body.permissions, (unknownPermission ps = none ∧ ps.Nodup) ∧ wildcard ∉ ps) ∧
      ∀ op ∈ db.operators, db.IsAdmin op → op.roleID = id
  | _ => False

/-- An operator with the wildcard makes a call that takes it from everyone. -/
def Strips (db : Db) (req : Request) : Prop :=
  (∃ op ∈ db.operatorByID req.actor, db.IsAdmin op) ∧ StripsAll db req.call

/-! ## What each call leaves of the wildcard -/

theorem Administrable.mono {db db' : Db} (h : Administrable db)
    (hops : ∀ op ∈ db.operators, op ∈ db'.operators)
    (hperm : ∀ op ∈ db.operators, ∀ p ∈ db.permissions, p.roleID = op.roleID →
      p ∈ db'.permissions) : Administrable db' := by
  obtain ⟨op, hop, hadmin⟩ := h
  obtain ⟨p, hp, hstar⟩ := List.mem_map.mp hadmin
  obtain ⟨hp, hid⟩ := List.mem_filter.mp hp
  refine ⟨op, hops op hop, List.mem_map.mpr ⟨p, List.mem_filter.mpr ⟨?_, hid⟩, hstar⟩⟩
  exact hperm op hop p hp (by simpa using hid)

theorem deleteOperator_administrable (id : Int) {db : Db} (h : Administrable db) :
    Administrable (deleteOperator (some id) db).2 ↔
      ¬ StripsAll db (.deleteOperator (some id)) := by
  rw [deleteOperator_db]
  split
  · rename_i hlast
    constructor
    · rintro ⟨op, hop, hadmin⟩ ⟨-, hall⟩
      obtain ⟨hop, hid⟩ := List.mem_filter.mp hop
      exact absurd (hall op hop hadmin) (by simpa using hid)
    · intro hstrip
      by_contra hnone
      refine hstrip ⟨hlast, fun op hop hadmin ↦ ?_⟩
      by_contra hid
      exact hnone ⟨op, List.mem_filter.mpr ⟨hop, by simpa using hid⟩, hadmin⟩
  · rename_i hlast
    exact ⟨fun _ hstrip ↦ hlast hstrip.1, fun _ ↦ h⟩

theorem putOperator_administrable (id : Int) (body : PutOperator) (salt : String) {db : Db}
    (h : Administrable db) :
    Administrable (putOperator hashPassword (some id) body salt db).2 ↔
      ¬ StripsAll db (.putOperator (some id) body salt) := by
  rw [putOperator_db]
  split
  · rename_i hok
    constructor
    · rintro ⟨op, hop, hadmin⟩ ⟨-, ⟨r, hr, hweak⟩, hall⟩
      obtain ⟨op₀, hop₀, rfl⟩ := Table.mem_modify.mp hop
      split at hadmin
      · -- The rewritten row loads its permissions from the new role.
        refine hweak ?_
        have hrole : (putRow hashPassword body salt op₀).roleID = r := by
          rw [putRow, OperatorRow.updated, Option.mem_def.mp hr]
          rfl
        rwa [Db.IsAdmin, hrole] at hadmin
      · rename_i hid
        exact hid (hall op₀ hop₀ hadmin)
    · intro hstrip
      by_cases hall : ∀ op ∈ db.operators, db.IsAdmin op → op.id = id
      · obtain ⟨op, hop, hadmin⟩ := h
        refine ⟨_, Table.mem_modify_of_eq hop (hall op hop hadmin), ?_⟩
        by_cases hrole : body.roleID = none
        · have hkeep : (putRow hashPassword body salt op).roleID = op.roleID := by
            rw [putRow, OperatorRow.updated, hrole]
            rfl
          rw [Db.IsAdmin, hkeep]
          exact hadmin
        · obtain ⟨r, hr⟩ := Option.ne_none_iff_exists'.mp hrole
          have hnew : (putRow hashPassword body salt op).roleID = r := by
            rw [putRow, OperatorRow.updated, hr]
            rfl
          rw [Db.IsAdmin, hnew]
          by_contra hweak
          exact hstrip ⟨hok, ⟨r, hr, hweak⟩, hall⟩
      · push Not at hall
        obtain ⟨op, hop, hadmin, hid⟩ := hall
        exact ⟨op, Table.mem_modify.mpr ⟨op, hop, if_neg hid⟩, hadmin⟩
  · rename_i hok
    exact ⟨fun _ hstrip ↦ hok hstrip.1, fun _ ↦ h⟩

/-- The permissions of a role after those of role `id` were replaced. -/
theorem wildcard_granted {db db' : Db} {id : Int} {permissions : List String}
    (h : db'.permissions = (db.permissions.filter fun p ↦ p.roleID ≠ id) ++
      permissions.map (PermissionRow.mk id)) (roleID : Int) :
    wildcard ∈ db'.permissionsOf roleID ↔
      if roleID = id then wildcard ∈ permissions else wildcard ∈ db.permissionsOf roleID := by
  simp only [Db.permissionsOf, h, List.filter_append, List.filter_filter, List.map_append,
    List.mem_append, List.mem_map, List.mem_filter]
  split
  · rename_i heq
    subst heq
    constructor
    · rintro (⟨p, ⟨-, hp⟩, -⟩ | ⟨p, ⟨⟨q, hq, rfl⟩, -⟩, hstar⟩)
      · simp at hp
      · exact hstar ▸ hq
    · intro h
      exact .inr ⟨_, ⟨⟨wildcard, h, rfl⟩, by simp⟩, rfl⟩
  · rename_i hne
    constructor
    · rintro (⟨p, ⟨hp, hid⟩, hstar⟩ | ⟨p, ⟨⟨q, hq, rfl⟩, hid⟩, -⟩)
      · simp only [ne_eq, Bool.and_eq_true, decide_eq_true_eq] at hid
        exact ⟨p, ⟨hp, by simpa using hid.1⟩, hstar⟩
      · simp only [decide_eq_true_eq] at hid
        exact absurd hid.symm hne
    · rintro ⟨p, ⟨hp, hid⟩, hstar⟩
      refine .inl ⟨p, ⟨hp, ?_⟩, hstar⟩
      simp only [decide_eq_true_eq] at hid
      simp [hid, hne]

@[simp] theorem describeRole_operators (db : Db) (id : Int) (description : Option String) :
    (db.describeRole id description).operators = db.operators := by
  cases description <;> rfl

@[simp] theorem describeRole_permissions (db : Db) (id : Int) (description : Option String) :
    (db.describeRole id description).permissions = db.permissions := by
  cases description <;> rfl

theorem patchRole_administrable (id : Int) (body : PatchRole) {db : Db} (h : Administrable db) :
    Administrable (patchRole (some id) body db).2 ↔ ¬ StripsAll db (.patchRole (some id) body) := by
  by_cases hrole : db.roleByID id = none
  · rw [patchRole, hrole]
    exact ⟨fun _ hstrip ↦ hstrip.1 hrole, fun _ ↦ h⟩
  · have hdescribed : Administrable (db.describeRole id body.description) :=
      h.mono (by simp) fun _ _ p hp _ ↦ by simpa using hp
    rw [patchRole_db id body db hrole]
    split
    · rename_i hnone
      refine ⟨fun _ hstrip ↦ ?_, fun _ ↦ hdescribed⟩
      obtain ⟨-, ⟨ps, hps, -⟩, -⟩ := hstrip
      rw [hnone] at hps
      cases hps
    · rename_i permissions hperm
      split
      · rename_i hok
        constructor
        · rintro ⟨op, hop, hadmin⟩ ⟨-, ⟨ps, hps, -, hweak⟩, hall⟩
          rw [hperm] at hps
          cases hps
          rw [Db.IsAdmin, wildcard_granted rfl] at hadmin
          split at hadmin
          · exact hweak hadmin
          · rename_i hid
            exact hid (hall op (by simpa using hop) hadmin)
        · intro hstrip
          by_contra hnone
          have hlost : ∀ op ∈ db.operators,
              ¬ if op.roleID = id then wildcard ∈ permissions else db.IsAdmin op :=
            fun op hop hadmin ↦
              hnone ⟨op, by simpa using hop, (wildcard_granted rfl op.roleID).mpr hadmin⟩
          obtain ⟨op, hop, hadmin⟩ := h
          have hall : ∀ op ∈ db.operators, db.IsAdmin op → op.roleID = id := by
            intro op hop hadmin
            by_contra hid
            exact hlost op hop (by rwa [if_neg hid])
          refine hstrip ⟨hrole, ⟨permissions, hperm, hok, fun hstar ↦ ?_⟩, hall⟩
          exact hlost op hop (by rwa [if_pos (hall op hop hadmin)])
      · rename_i hok
        refine ⟨fun _ hstrip ↦ ?_, fun _ ↦ hdescribed⟩
        obtain ⟨-, ⟨ps, hps, hps_ok, -⟩, -⟩ := hstrip
        rw [hperm] at hps
        cases hps
        exact hok hps_ok

/-! ## Runs -/

/-- The other calls add an operator or a role, or delete a role that no operator has. -/
theorem Effect.administrable {db db' : Db} {call : Call} (heff : Effect hashPassword db call db')
    (hput : ∀ id body salt, call ≠ .putOperator id body salt)
    (hdelete : ∀ id, call ≠ .deleteOperator id) (hpatch : ∀ id body, call ≠ .patchRole id body)
    (h : Administrable db) : Administrable db' := by
  cases heff with
  | unchanged => exact h
  | created => exact h.mono (fun op hop ↦ List.mem_append_left _ hop) fun _ _ p hp _ ↦ hp
  | updated => exact absurd rfl (hput _ _ _)
  | deleted => exact absurd rfl (hdelete _)
  | roleCreated => exact h.mono (fun op hop ↦ hop) fun _ _ p hp _ ↦ List.mem_append_left _ hp
  | described => exact absurd rfl (hpatch _ _)
  | granted => exact absurd rfl (hpatch _ _)
  | roleDeleted hunused =>
    refine h.mono (fun op hop ↦ hop) fun op hop p hp hid ↦ List.mem_filter.mpr ⟨hp, ?_⟩
    simpa [hid] using hunused op hop

theorem handle_administrable (call : Call) {db : Db} (h : Administrable db) :
    Administrable (handle hashPassword call db).2 ↔ ¬ StripsAll db call := by
  have hother := (@handle_effect hashPassword call db).administrable
  cases call with
  | deleteOperator id =>
    cases id with
    | none => exact ⟨fun _ hstrip ↦ hstrip, fun _ ↦ h⟩
    | some id => exact deleteOperator_administrable id h
  | putOperator id body salt =>
    cases id with
    | none => exact ⟨fun _ hstrip ↦ hstrip, fun _ ↦ h⟩
    | some id => exact putOperator_administrable id body salt h
  | patchRole id body =>
    cases id with
    | none => exact ⟨fun _ hstrip ↦ hstrip, fun _ ↦ h⟩
    | some id => exact patchRole_administrable id body h
  | listOperators | listRoles | postOperator | postRole | deleteRole =>
    exact ⟨fun _ hstrip ↦ hstrip, fun _ ↦ hother nofun nofun nofun h⟩

theorem step_administrable (db : Db) (req : Request) (h : Administrable db) :
    Administrable (step hashPassword db req) ↔ ¬ Strips db req := by
  rw [step_eq, Strips]
  split
  · rename_i hactor
    rw [handle_administrable req.call h]
    exact ⟨fun hcall hstrip ↦ hcall hstrip.2, fun hstrip hcall ↦ hstrip ⟨hactor, hcall⟩⟩
  · rename_i hactor
    exact ⟨fun _ hstrip ↦ hactor hstrip.1, fun _ ↦ h⟩

/-- **Administrative lockout.**  From a state with an operator that holds the wildcard, every state
of a run has one iff no request of the run takes it from everyone. -/
theorem administrable_iff (db : Db) (reqs : List Request) (h : Administrable db) :
    (∀ p ∈ Run.visited (step hashPassword) db reqs, Administrable p) ↔
      Run.Along (step hashPassword) (fun db req ↦ ¬ Strips db req) db reqs :=
  Run.visited_iff_along (J := fun _ ↦ True) (fun _ _ h ↦ h)
  (fun db req _ ↦ step_administrable db req)
    trivial h

/-- The roles the migrations seed, and the operator of the bootstrap. -/
def seeded : Db where
  tenants := []
  roles := [⟨1, "super-admin", .global, true, "Built-in global administrator with all permissions"⟩,
    ⟨2, "tenant-admin", .tenant, true, "Built-in tenant administrator"⟩]
  permissions := ⟨1, "*"⟩ :: (["api_key.read", "api_key.write", "group.read", "group.write",
    "usage.read", "audit.read", "request_log.read", "quota.read", "password.write"].map
      (PermissionRow.mk 2))
  operators := [⟨1, "root@example.com", "$", "super-admin", 1, none⟩]
  roleSeq := 3
  operatorSeq := 2

/-- A hash that runs. -/
def sampleHash (salt password : String) : String := salt ++ "$" ++ password

/-- A second super-admin, a custom role, and the first super-admin is moved to it: the second one
is still there. -/
def handover : List Request :=
  [⟨1, .postOperator ⟨"second@example.com", "pw", "super-admin", 0, none⟩ "s"⟩,
    ⟨1, .postRole ⟨"viewer", "global", "", ["usage.read"]⟩⟩,
    ⟨1, .putOperator (some 1) ⟨"", "", some 3, none⟩ ""⟩]

theorem administrable_handover :
    Run.Along (step sampleHash) (fun db req ↦ ¬ Strips db req) seeded handover :=
  (administrable_iff seeded handover (by decide)).mp (by decide)

/-- The second super-admin follows the first: both texts still say `super-admin`, so neither is
the last one to the guard.  Rewriting the only role with the wildcard does it in one request. -/
theorem lockout :
    (¬ ∀ p ∈ Run.visited (step sampleHash) seeded
        (handover ++ [⟨2, .putOperator (some 2) ⟨"", "", some 3, none⟩ ""⟩]), Administrable p) ∧
      ¬ ∀ p ∈ Run.visited (step sampleHash) seeded
        [⟨1, .patchRole (some 1) ⟨none, some ["usage.read"]⟩⟩], Administrable p := by
  decide

end Admin
end Voxeltoad
