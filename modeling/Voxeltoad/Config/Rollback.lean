import Voxeltoad.Config.Repo

/-!
# Rollback and stored credentials

`Rollback` empties `providers` and fills it again from a saved snapshot.  The rows of
`provider_credentials` hang off `providers` by a foreign key with `ON DELETE CASCADE`, a snapshot
has no credentials to put back, and so a rollback leaves none.  `rollback_keeps_iff` says that the
stored credentials of a version survive a rollback to it exactly when there are none to survive.
-/

set_option autoImplicit false

namespace Voxeltoad
namespace Config

/-- A statement or transaction on the tables.  `save` stands for every snapshot that is saved,
whatever its payload. -/
inductive Op where
  | mutate (m : Mutation)
  | upsertCredential (name : String) (cred : Credential)
  | deleteCredential (name : String)
  | save (version : Nat) (d : Dynamic)
  deriving DecidableEq, Repr

def Tables.step (t : Tables) : Op → Tables
  | .mutate m => t.mutate m
  | .upsertCredential name cred => (t.upsertCredential name cred).getD t
  | .deleteCredential name => t.deleteCredential name
  | .save version d => t.saveSnapshot version d

/-! ## The foreign key -/

/-- Every credential belongs to a provider. -/
def Tables.ForeignKey (t : Tables) : Prop :=
  ∀ c ∈ t.credentials, ∃ p ∈ t.providers, p.name = c.providerName

theorem Tables.ForeignKey.of_names {t t' : Tables} (h : t.ForeignKey)
    (hcred : ∀ c ∈ t'.credentials, c ∈ t.credentials)
    (hnames : ∀ p ∈ t.providers, ∃ p' ∈ t'.providers, p'.name = p.name) : t'.ForeignKey := by
  intro c hc
  obtain ⟨p, hp, hname⟩ := h c (hcred c hc)
  obtain ⟨p', hp', hname'⟩ := hnames p hp
  exact ⟨p', hp', hname'.trans hname⟩

theorem upsert_names {p : Provider} {rows : List Provider} :
    ∀ q ∈ rows, ∃ q' ∈ Table.upsert Provider.name p rows, q'.name = q.name := by
  intro q hq
  by_cases hname : q.name = p.name
  · exact ⟨p, Table.mem_upsert.mpr (.inl rfl), hname.symm⟩
  · exact ⟨q, Table.mem_upsert.mpr (.inr ⟨hq, hname⟩), rfl⟩

theorem deleteProviders_foreignKey {t : Tables} (h : t.ForeignKey) (p : Provider → Bool) :
    (t.deleteProviders p).ForeignKey := by
  intro c hc
  obtain ⟨hc, hkeep⟩ := List.mem_filter.mp hc
  obtain ⟨q, hq, hname⟩ := h c hc
  refine ⟨q, List.mem_filter.mpr ⟨hq, ?_⟩, hname⟩
  simp only [not_exists, not_and, decide_eq_true_eq] at hkeep
  simpa using fun hp ↦ hkeep q hq hp hname

/-- A rollback leaves no credential. -/
theorem restore_credentials {t t' : Tables} {d : Dynamic} (h : t.ForeignKey)
    (hrestore : t.restore d = .ok t') : t'.credentials = [] := by
  obtain ⟨-, rfl⟩ := restore_ok hrestore
  refine List.filter_eq_nil_iff.mpr fun c hc ↦ ?_
  obtain ⟨p, hp, hname⟩ := h c hc
  simpa using ⟨p, hp, hname⟩

theorem Mutated.foreignKey {t t' : Tables} {m : Mutation} (hm : Mutated t m t')
    (h : t.ForeignKey) : t'.ForeignKey := by
  cases hm with
  | upsertProvider p => exact h.of_names (fun _ hc ↦ hc) upsert_names
  | patchProvider name patch =>
    refine h.of_names (fun _ hc ↦ hc) fun q hq ↦ ?_
    refine ⟨_, Table.mem_modify.mpr ⟨q, hq, rfl⟩, ?_⟩
    split <;> rfl
  | deleteProvider name => exact deleteProviders_foreignKey h _
  | rollback t' hsaved hrestore =>
    intro c hc
    rw [restore_credentials h hrestore] at hc
    cases hc
  | _ => exact h

theorem step_foreignKey (t : Tables) (o : Op) (h : t.ForeignKey) : (t.step o).ForeignKey := by
  cases o with
  | mutate m => exact (mutated t m).foreignKey h
  | upsertCredential name cred =>
    simp only [Tables.step, Tables.upsertCredential]
    split
    · rename_i hprovider
      intro c hc
      rcases Table.mem_upsert.mp hc with rfl | ⟨hc, -⟩
      · exact hprovider
      · exact h c hc
    · exact h
  | deleteCredential name => exact fun c hc ↦ h c (List.mem_filter.mp hc).1
  | save version d =>
    simp only [Tables.step, Tables.saveSnapshot]
    split <;> exact h

theorem step_keys (t : Tables) (o : Op) (h : t.Keys) : (t.step o).Keys := by
  cases o with
  | mutate m => exact (mutated t m).keys h
  | upsertCredential name cred =>
    simp only [Tables.step, Tables.upsertCredential]
    split <;> exact { h with }
  | deleteCredential name => exact { h with }
  | save version d =>
    simp only [Tables.step, Tables.saveSnapshot]
    split <;> exact { h with }

/-! ## What a rollback keeps -/

/-- Every provider of `d` with a stored credential still has it. -/
def KeepsCredentials (t t' : Tables) (d : Dynamic) : Prop :=
  ∀ p ∈ d.providers, ∀ name, p.apiKeyRef = dbProviderRef name →
    ∀ c ∈ t.credentials, c.providerName = name → c ∈ t'.credentials

/-- **Rollback and credentials.**  In every state that can be reached, a rollback to a saved version
keeps the credentials of its providers iff none of its providers has one. -/
theorem rollback_keeps_iff (ops : List Op) (version : Nat) (d : Dynamic) (t' : Tables)
    (hsaved : (Run.run Tables.step .empty ops).getSnapshot version = some d)
    (hrollback : (Run.run Tables.step .empty ops).rollback version = .ok t') :
    KeepsCredentials (Run.run Tables.step .empty ops) t' d ↔
      ∀ p ∈ d.providers, ∀ name, p.apiKeyRef = dbProviderRef name →
        (Run.run Tables.step .empty ops).getCredential name = none := by
  have hfk : (Run.run Tables.step .empty ops).ForeignKey :=
    Run.invariant step_foreignKey ops nofun
  rw [Tables.rollback, hsaved] at hrollback
  have hnil := restore_credentials hfk hrollback
  constructor
  · intro hkeep p hp name href
    rw [Tables.getCredential, Option.map_eq_none_iff, Table.find_eq_none_iff]
    intro c hc hname
    have hmem := hkeep p hp name href c hc hname
    rw [hnil] at hmem
    cases hmem
  · intro hnone p hp name href c hc hname
    have habsent := hnone p hp name href
    rw [Tables.getCredential, Option.map_eq_none_iff, Table.find_eq_none_iff] at habsent
    exact absurd hname (habsent c hc)

/-- A provider with a key in the database. -/
def Provider.sample : Provider where
  name := "openai-prod"
  type := "openai"
  endpoints := [⟨"", "openai", "https://api.openai.com/v1", none⟩]
  apiKeyRef := "db://provider/openai-prod"
  timeouts := ⟨0, 0, 0⟩
  weight := 1

def sampleCredential : Credential := ⟨[1, 2, 3], [0], "AES-256-GCM", "v0"⟩

/-- The provider is created, its key is stored, and the snapshot of its generation is saved. -/
def Op.stored : List Op :=
  [.mutate (.upsertProvider .sample), .upsertCredential "openai-prod" sampleCredential,
    .save 1 ⟨"1", [.sample], [], [], [], some .zero⟩]

/-- The rolled back configuration has the provider and not its key, so the data plane cannot build a
dispatcher from it. -/
theorem rollback_drops_credential :
    let t := Run.run Tables.step .empty Op.stored
    let t' := t.mutate (.rollback 1)
    (∃ d, t.getSnapshot 1 = some d ∧ t.rollback 1 = .ok t' ∧ ¬ KeepsCredentials t t' d) ∧
      resolveSecret (fun _ ↦ none) (fun _ ↦ some "sk") t.getCredential Provider.sample.apiKeyRef =
        .ok "sk" ∧
      resolveSecret (fun _ ↦ none) (fun _ ↦ some "sk") t'.getCredential Provider.sample.apiKeyRef =
        .error (.noCredential "openai-prod") := by
  refine ⟨⟨⟨"1", [.sample], [], [], [], some .zero⟩, by decide, by rfl, fun hkeep ↦ ?_⟩,
    by decide, by decide⟩
  have hmem := hkeep .sample (by decide) "openai-prod" (by decide) ⟨"openai-prod", sampleCredential⟩
    (by decide) rfl
  exact absurd hmem (by decide)

/-- With a key in the environment there is nothing to lose. -/
theorem rollback_keeps_env :
    let t := Run.run Tables.step .empty
      [.mutate (.upsertProvider { Provider.sample with apiKeyRef := "env://KEY" }),
        .save 1 ⟨"1", [{ Provider.sample with apiKeyRef := "env://KEY" }], [], [], [], some .zero⟩]
    KeepsCredentials t (t.mutate (.rollback 1))
      ⟨"1", [{ Provider.sample with apiKeyRef := "env://KEY" }], [], [], [], some .zero⟩ := by
  refine (rollback_keeps_iff _ 1 _ _ (by decide) (by rfl)).mpr fun p hp name href ↦ ?_
  rfl

end Config
end Voxeltoad
