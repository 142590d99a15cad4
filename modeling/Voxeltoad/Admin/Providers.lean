import Voxeltoad.Admin.Config
import Voxeltoad.Lib.Transaction

/-!
# Provider writes that fail

The provider `POST` and `PATCH …/credential` of `internal/admin/crud_provider.go`, with everything
that can go wrong in them.  In `Admin.Config` a request fails over what is in it and in the tables.
Here it also fails over the service that encrypts a key and over any statement that it sends
(`Backend`).

Each handler makes two writes.  The provider and the generation are written in one transaction, and
the credential in a statement of its own.  So a request that is answered with an error has left
nothing behind unless it failed between the two (`Torn`): `POST` when the provider is written and
its key cannot be stored, `PATCH` when the key is stored and the provider is not written.  That
these are all the cases is `provider_writes_atomic_iff`.
-/

set_option autoImplicit false

namespace Voxeltoad
namespace Admin

open Response
open Config hiding Op

/-! ## What can fail -/

/-- What the handlers reach the tables through. -/
structure Backend where
  /-- `credService`, when it is configured, and how it encrypts a key. -/
  service : Option (String → Except String Credential)
  /-- `credRepo` is configured. -/
  repo : Bool
  /-- What the `i`-th statement of `UpsertProvider` fails with.  The one after the last is the
  commit. -/
  providerFault : ℕ → Option String
  /-- What the statement of `CredentialRepo.Upsert` fails with, when it is not the foreign key. -/
  credentialFault : Option String
  /-- What `GetProvider` fails with. -/
  getFault : Option String

/-- The statements of `UpsertProvider`. -/
inductive ProviderStatement where
  | upsert (p : Config.Provider)
  | bumpGeneration

def ProviderStatement.exec (t : Tables) : ProviderStatement → Tables × Bool
  | .upsert p => ({ t with providers := Table.upsert Config.Provider.name p t.providers }, true)
  | .bumpGeneration => (t.bump, true)

/-- The provider that a `POST` writes. -/
def ProviderRequest.written (body : ProviderRequest) : Config.Provider :=
  { body.provider with
    apiKeyRef := effectiveAPIKeyRef body.provider.name body.apiKey body.provider.apiKeyRef }

namespace Backend

variable (b : Backend)

/-- The transaction of `UpsertProvider`. -/
def writeProvider (p : Config.Provider) (t : Tables) : Tables × Bool :=
  Transaction.transact ProviderStatement.exec (fun t _ ↦ t) (fun i ↦ (b.providerFault i).isSome) 0
    [.upsert p, .bumpGeneration] t

/-- **`ConfigRepo.UpsertProvider`**: the tables after it, and its error. -/
def upsertProvider (p : Config.Provider) (t : Tables) : Tables × Option String :=
  match b.writeProvider p t with
  | (t, true) => (t, none)
  | (t, false) => (t, (List.range 3).findSome? b.providerFault)

/-- `ConfigRepo.GetProvider`. -/
def getProvider (name : String) (t : Tables) : Except String (Option Config.Provider) :=
  match b.getFault with
  | some msg => .error msg
  | none => .ok (t.getProvider name)

/-- `CredentialRepo.Upsert`. -/
def upsertCredential (name : String) (cred : Credential) (t : Tables) : Tables × Option String :=
  match b.credentialFault with
  | some msg => (t, some ("store: upsert credential for " ++ quote name ++ ": " ++ msg))
  | none =>
    match t.upsertCredential name cred with
    | none =>
      (t, some ("store: upsert credential for " ++ quote name ++ ": " ++
        (DbError.foreignKey "provider_credentials" "fk_provider_credentials_provider").text))
    | some t => (t, none)

/-- **`persistProviderCredential`.** -/
def persistProviderCredential (name apiKey : String) (t : Tables) : Tables × Option String :=
  if apiKey = "" then (t, none)
  else
    match b.service with
    | none => (t, some "credential encryption service not configured")
    | some encrypt =>
      if b.repo = false then (t, some "credential repository not configured")
      else
        match encrypt apiKey with
        | .error msg => (t, some ("encrypt credential: " ++ msg))
        | .ok cred =>
          match b.upsertCredential name cred t with
          | (t, some msg) => (t, some ("store credential: " ++ msg))
          | (t, none) => (t, none)

/-- **Provider `POST`.**  The body may fail to bind. -/
def postProvider (body : Except String ProviderRequest) (t : Tables) :
    Response ConfigReply × Tables :=
  match body with
  | .error msg => (badRequest ("invalid request body: " ++ msg), t)
  | .ok body =>
    if body.provider.name = "" then (badRequest "provider name is required", t)
    else
      match validateProvider body.provider.name body.provider.endpoints with
      | .error msg => (badRequest msg, t)
      | .ok () =>
        match b.upsertProvider body.written t with
        | (t, some msg) => (internalErr msg, t)
        | (t, none) =>
          match b.persistProviderCredential body.written.name body.apiKey t with
          | (t, some msg) => (.error .providerCreateFailed msg, t)
          | (t, none) => (.ok 201 body.written.name (.provider (maskedProvider body.written)), t)

/-- What `PATCH …/credential` does after the credential: the provider gets the reference. -/
def updatePointer (name ref : String) (t : Tables) : Response ConfigReply × Tables :=
  match b.getProvider name t with
  | .error msg => (internalErr msg, t)
  | .ok none => (.error .providerNotFound "", t)
  | .ok (some p) =>
    match b.upsertProvider { p with apiKeyRef := ref } t with
    | (t, some msg) => (internalErr msg, t)
    | (t, none) => (.ok 200 name (.apiKeyRef (maskAPIKeyRef ref)), t)

/-- **Provider `PATCH …/credential`.** -/
def patchCredential (name : String) (body : Except String PatchCredential) (t : Tables) :
    Response ConfigReply × Tables :=
  match body with
  | .error msg => (badRequest ("invalid request body: " ++ msg), t)
  | .ok body =>
    if body.apiKey = "" ∧
      body.apiKeyRef = "" then (badRequest "api_key or api_key_ref is required", t)
    else
      match b.persistProviderCredential name body.apiKey t with
      | (t, some msg) => (.error .providerUpdateFailed msg, t)
      | (t, none) => b.updatePointer name (effectiveAPIKeyRef name body.apiKey body.apiKeyRef) t

/-- A request that writes a provider or its credential. -/
inductive Call where
  | postProvider (body : Except String ProviderRequest)
  | patchCredential (name : String) (body : Except String PatchCredential)

def handle : Call → Tables → Response ConfigReply × Tables
  | .postProvider body, t => b.postProvider body t
  | .patchCredential name body, t => b.patchCredential name body t

/-! ## The two writes -/

/-- No statement of `UpsertProvider` fails. -/
def Commits : Prop := ∀ i < 3, b.providerFault i = none

instance : Decidable b.Commits := inferInstanceAs (Decidable (∀ i < 3, _))

/-- The key is encrypted, and the statement that stores it does not fail over anything but the
foreign key. -/
def Stores (apiKey : String) (cred : Credential) : Prop :=
  b.repo = true ∧ b.credentialFault = none ∧ ∃ encrypt, b.service = some encrypt ∧
  encrypt apiKey = .ok cred

variable {b}

theorem upsertProvider_of_commits (h : b.Commits) (p : Config.Provider) (t : Tables) :
    b.upsertProvider p t = (t.upsertProvider p, none) := by
  have hsteps :
      Transaction.Steps ProviderStatement.exec t [.upsert p, .bumpGeneration]
      (t.upsertProvider p) :=
    .cons rfl (.cons rfl .nil)
  have hwrite : b.writeProvider p t = (t.upsertProvider p, true) := by
    refine Transaction.transact_of_steps hsteps fun i _ hi ↦ ?_
    rw [h i (Nat.lt_succ_of_le hi), Option.isSome_none]
  rw [upsertProvider, hwrite]

/-- A transaction that fails leaves nothing behind. -/
theorem upsertProvider_of_not_commits (h : ¬ b.Commits) (p : Config.Provider) (t : Tables) :
    ∃ msg, b.upsertProvider p t = (t, some msg) := by
  simp only [Commits, not_forall] at h
  obtain ⟨i, hi, hfault⟩ := h
  have hsome : (b.providerFault i).isSome := Option.isSome_iff_ne_none.mpr hfault
  have hfirst : ((List.range 3).findSome? b.providerFault).isSome :=
    List.findSome?_isSome_iff.mpr ⟨i, List.mem_range.mpr hi, hsome⟩
  obtain ⟨msg, hmsg⟩ := Option.isSome_iff_exists.mp hfirst
  rcases hwrite : b.writeProvider p t with ⟨t', ok⟩
  have hfails : (b.writeProvider p t).2 = false :=
    Transaction.transact_of_fault hsome (Nat.zero_le i) (Nat.le_of_lt_succ hi)
  rw [hwrite] at hfails
  cases hfails
  obtain ⟨_, rfl⟩ := Transaction.abort_of_transact hwrite
  exact ⟨msg, by rw [upsertProvider, hwrite, hmsg]⟩

/-- What `persistProviderCredential` can do. -/
inductive Persisted (b : Backend) (name apiKey : String) (t : Tables) :
    Tables × Option String → Prop
  | nothing (hkey : apiKey = "") : Persisted b name apiKey t (t, none)
  | stored {cred : Credential} (hkey : apiKey ≠ "") (hstores : b.Stores apiKey cred)
      (hknown : ∃ p ∈ t.providers, p.name = name) :
      Persisted b name apiKey t
        ({ t with
          credentials := Table.upsert CredentialRow.providerName ⟨name, cred⟩ t.credentials }, none)
  /-- The foreign key refuses the row. -/
  | unknown (msg : String) (hkey : apiKey ≠ "") (hunknown : ¬ ∃ p ∈ t.providers, p.name = name) :
      Persisted b name apiKey t (t, some msg)
  | failed (msg : String) (hkey : apiKey ≠ "") (hstores : ∀ cred, ¬ b.Stores apiKey cred) :
      Persisted b name apiKey t (t, some msg)

theorem persisted (name apiKey : String) (t : Tables) :
    Persisted b name apiKey t (b.persistProviderCredential name apiKey t) := by
  rw [persistProviderCredential]
  split
  · rename_i hkey
    exact .nothing hkey
  · rename_i hkey
    split
    · rename_i hservice
      refine .failed _ hkey fun cred ⟨_, _, encrypt, hsome, _⟩ ↦ ?_
      rw [hservice] at hsome
      cases hsome
    · rename_i encrypt hservice
      split
      · rename_i hrepo
        refine .failed _ hkey fun cred ⟨htrue, _⟩ ↦ ?_
        rw [hrepo] at htrue
        cases htrue
      · rename_i hrepo
        split
        · rename_i msg hencrypt
          refine .failed _ hkey fun cred ⟨_, _, encrypt', hsome, hok⟩ ↦ ?_
          rw [hservice] at hsome
          cases hsome
          rw [hencrypt] at hok
          cases hok
        · rename_i cred hencrypt
          rw [upsertCredential]
          cases hfault : b.credentialFault with
          | some msg =>
            refine .failed _ hkey fun cred ⟨_, hnone, _⟩ ↦ ?_
            rw [hfault] at hnone
            cases hnone
          | none =>
            have hstores : b.Stores apiKey cred :=
              ⟨Bool.eq_true_of_not_eq_false hrepo, hfault, encrypt, hservice, hencrypt⟩
            rw [Tables.upsertCredential]
            by_cases hknown : ∃ p ∈ t.providers, p.name = name
            · simp only [if_pos hknown]
              exact .stored hkey hstores hknown
            · simp only [if_neg hknown]
              exact .unknown _ hkey hknown

/-! ## Nothing fails -/

variable (service : Service) (nonce : List UInt8)

/-- The backend in which nothing fails that does not fail in `Admin.Config`. -/
def reliable : Backend where
  service := service.map fun encrypt key ↦ .ok (encrypt nonce key)
  repo := true
  providerFault := fun _ ↦ none
  credentialFault := none
  getFault := none

theorem upsertProvider_reliable (p : Config.Provider) (t : Tables) :
    (reliable service nonce).upsertProvider p t = (t.upsertProvider p, none) :=
  upsertProvider_of_commits (fun _ _ ↦ rfl) p t

theorem persistProviderCredential_reliable (name apiKey : String) (t : Tables) :
    (reliable service nonce).persistProviderCredential name apiKey t =
      match Admin.persistProviderCredential service t name apiKey nonce with
      | .error msg => (t, some msg)
      | .ok t' => (t', none) := by
  simp only [persistProviderCredential, Admin.persistProviderCredential]
  split
  · rfl
  · cases service with
    | none => rfl
    | some encrypt =>
      simp only [reliable, Option.map_some, upsertCredential, Bool.true_eq_false, if_false]
      cases t.upsertCredential name (encrypt nonce apiKey) with
      | none => simp only [← String.append_assoc, String.reduceAppend]
      | some t' => rfl

/-- **Without faults these are the handlers of `Admin.Config`.** -/
theorem postProvider_reliable (body : ProviderRequest) (t : Tables) :
    (reliable service nonce).postProvider (.ok body) t =
      Admin.postProvider service body nonce t := by
  simp only [postProvider, Admin.postProvider]
  split
  · rfl
  · cases validateProvider body.provider.name body.provider.endpoints with
    | error msg => rfl
    | ok =>
      simp only [upsertProvider_reliable, persistProviderCredential_reliable]
      rcases hstored :
        Admin.persistProviderCredential service (t.upsertProvider body.written) body.written.name
        body.apiKey nonce with msg | t'
      all_goals
        rw [ProviderRequest.written] at hstored
        simp only [ProviderRequest.written, hstored]

theorem patchCredential_reliable (name : String) (body : PatchCredential) (t : Tables) :
    (reliable service nonce).patchCredential name (.ok body) t =
      Admin.patchCredential service name body nonce t := by
  simp only [patchCredential, Admin.patchCredential, persistProviderCredential_reliable]
  split
  · rfl
  · cases Admin.persistProviderCredential service t name body.apiKey nonce with
    | error msg => rfl
    | ok t' =>
      have hget : (reliable service nonce).getProvider name t' = .ok (t'.getProvider name) := rfl
      simp only [updatePointer, hget]
      cases t'.getProvider name with
      | none => rfl
      | some p => simp only [upsertProvider_reliable]

/-! ## Requests that fail half way -/

/-- The tables that a provider is kept in are as before. -/
def Untouched (t t' : Tables) : Prop :=
  t'.providers = t.providers ∧ t'.credentials = t.credentials ∧ t'.generation = t.generation

instance (t t' : Tables) : Decidable (Untouched t t') := inferInstanceAs (Decidable (_ ∧ _ ∧ _))

/-- The row of the provider has the credential already. -/
def Holds (t : Tables) (name : String) (cred : Credential) : Prop :=
  ⟨name, cred⟩ ∈ t.credentials ∧ ∀ row ∈ t.credentials, row.providerName = name → row = ⟨name, cred⟩

/-- **The requests that fail between their two writes.** -/
inductive Torn (b : Backend) (t : Tables) : Call → Prop
  /-- The provider is written, and its key cannot be stored. -/
  | postProvider {body : ProviderRequest} (hname : body.provider.name ≠ "")
      (hvalid : validateProvider body.provider.name body.provider.endpoints = .ok ())
      (hcommits : b.Commits) (hkey : body.apiKey ≠ "")
      (hstores : ∀ cred, ¬ b.Stores body.apiKey cred) : Torn b t (.postProvider (.ok body))
  /-- The key is stored, and the provider is not read or not written. -/
  | patchCredential {name : String} {body : PatchCredential} {cred : Credential}
      (hkey : body.apiKey ≠ "") (hstores : b.Stores body.apiKey cred)
      (hknown : ∃ p ∈ t.providers, p.name = name) (hnew : ¬ Holds t name cred)
      (hfails : b.getFault ≠ none ∨ ¬ b.Commits) : Torn b t (.patchCredential name (.ok body))

theorem Stores.unique {apiKey : String} {cred cred' : Credential} (h : b.Stores apiKey cred)
    (h' : b.Stores apiKey cred') : cred = cred' := by
  obtain ⟨_, _, encrypt, hservice, hok⟩ := h
  obtain ⟨_, _, encrypt', hservice', hok'⟩ := h'
  obtain rfl := Option.some.inj (hservice.symm.trans hservice')
  exact Except.ok.inj (hok.symm.trans hok')

/-- **What a torn `POST` leaves**: the provider, with a reference to a row that was not written. -/
theorem postProvider_of_torn {body : ProviderRequest} {t : Tables}
    (h : Torn b t (.postProvider (.ok body))) :
    ∃ msg, b.postProvider (.ok body) t = (.error .providerCreateFailed msg,
      t.upsertProvider body.written) := by
  obtain ⟨hname, hvalid, hcommits, hkey, hstores⟩ := h
  simp only [postProvider, if_neg hname, hvalid, upsertProvider_of_commits hcommits]
  generalize hpersist :
    b.persistProviderCredential body.written.name body.apiKey (t.upsertProvider body.written) =
    stored
  cases hpersist ▸ persisted body.written.name body.apiKey (t.upsertProvider body.written) with
  | nothing hempty => exact absurd hempty hkey
  | stored _ hcred => exact absurd hcred (hstores _)
  | unknown msg | failed msg => exact ⟨msg, rfl⟩

/-- The data plane cannot use such a provider, unless it had a credential before. -/
theorem postProvider_dangles {body : ProviderRequest} {t : Tables}
    (h : Torn b t (.postProvider (.ok body))) (hnone : t.getCredential body.provider.name = none) :
    ∃ p, (b.postProvider (.ok body) t).2.getProvider body.provider.name = some p ∧
    ∀ env decrypt key,
      resolveSecret env decrypt (b.postProvider (.ok body) t).2.getCredential p.apiKeyRef ≠
        .ok key := by
  obtain ⟨msg, hmsg⟩ := postProvider_of_torn h
  obtain ⟨_, _, _, hkey, _⟩ := h
  rw [hmsg]
  refine ⟨body.written, ?_, fun env decrypt key hresolves ↦ ?_⟩
  · exact Table.find_upsert.trans (if_pos rfl)
  · have href : body.written.apiKeyRef = dbProviderRef body.provider.name := if_pos hkey
    rw [href] at hresolves
    obtain ⟨enc, henc, _⟩ := resolveSecret_dbProviderRef env decrypt _ hresolves
    exact Option.some_ne_none enc (henc.symm.trans hnone)

theorem postProvider_of_not_torn {body : Except String ProviderRequest} {t : Tables}
    (h : ¬ Torn b t (.postProvider body)) (herror : ¬ (b.postProvider body t).1.Success) :
    (b.postProvider body t).2 = t := by
  cases body with
  | error msg => rfl
  | ok body =>
    simp only [postProvider] at herror ⊢
    by_cases hname : body.provider.name = ""
    · rw [if_pos hname]
    · rw [if_neg hname] at herror ⊢
      cases hvalid : validateProvider body.provider.name body.provider.endpoints with
      | error msg => rfl
      | ok =>
        by_cases hcommits : b.Commits
        · simp only [hvalid, upsertProvider_of_commits hcommits] at herror ⊢
          generalize hpersist :
            b.persistProviderCredential body.written.name body.apiKey
            (t.upsertProvider body.written) = stored at herror ⊢
          cases hpersist ▸ persisted body.written.name body.apiKey
              (t.upsertProvider body.written) with
          | nothing | stored => exact absurd (by simp) herror
          | unknown msg hkey hunknown =>
            -- The provider has just been written.
            exact absurd ⟨body.written, Table.mem_upsert.mpr (.inl rfl), rfl⟩ hunknown
          | failed msg hkey hstores =>
              exact absurd (.postProvider hname hvalid hcommits hkey hstores) h
        · obtain ⟨msg, hmsg⟩ := upsertProvider_of_not_commits hcommits body.written t
          simp only [hmsg]

/-- The second half of a `PATCH` is one write. -/
theorem updatePointer_of_error {name ref : String} {t : Tables}
    (herror : ¬ (b.updatePointer name ref t).1.Success) : (b.updatePointer name ref t).2 = t := by
  rw [updatePointer] at herror ⊢
  generalize b.getProvider name t = found at herror ⊢
  rcases found with msg | _ | p
  · rfl
  · rfl
  · by_cases hcommits : b.Commits
    · simp only [upsertProvider_of_commits hcommits] at herror
      exact absurd (by simp) herror
    · obtain ⟨msg, hmsg⟩ := upsertProvider_of_not_commits hcommits { p with apiKeyRef := ref } t
      simp only [hmsg]

theorem success_updatePointer_iff {name ref : String} {t : Tables}
    (hknown : ∃ p ∈ t.providers, p.name = name) :
    (b.updatePointer name ref t).1.Success ↔ b.getFault = none ∧ b.Commits := by
  obtain ⟨p, hp⟩ := Option.isSome_iff_exists.mp (Table.find_isSome_iff.mpr hknown)
  have hp : t.getProvider name = some p := hp
  rw [updatePointer, getProvider]
  cases b.getFault with
  | some msg => simp [internalErr, Success, status, AppErr.unexpected]
  | none =>
    simp only [hp]
    by_cases hcommits : b.Commits
    · simp [upsertProvider_of_commits hcommits, hcommits]
    · obtain ⟨msg, hmsg⟩ := upsertProvider_of_not_commits hcommits { p with apiKeyRef := ref } t
      simp [hmsg, hcommits, internalErr, Success, status, AppErr.unexpected]

/-- **What a torn `PATCH` leaves**: the new credential, and the provider as it was. -/
theorem patchCredential_of_torn {name : String} {body : PatchCredential} {t : Tables}
    (h : Torn b t (.patchCredential name (.ok body))) :
    ¬ (b.patchCredential name (.ok body) t).1.Success ∧ ∃ cred, ¬ Holds t name cred ∧
      (b.patchCredential name (.ok body) t).2 =
        { t with
          credentials := Table.upsert CredentialRow.providerName ⟨name, cred⟩ t.credentials } := by
  cases h with
  | @patchCredential _ _ cred hkey hstores hknown hnew hfails =>
    have hbody : ¬ (body.apiKey = "" ∧ body.apiKeyRef = "") := fun h ↦ hkey h.1
    simp only [patchCredential, if_neg hbody]
    generalize hpersist : b.persistProviderCredential name body.apiKey t = stored
    cases hpersist ▸ persisted name body.apiKey t with
    | nothing hempty => exact absurd hempty hkey
    | unknown _ _ hunknown => exact absurd hknown hunknown
    | failed _ _ hnone => exact absurd hstores (hnone cred)
    | @stored cred' _ hstores' _ =>
      obtain rfl := hstores.unique hstores'
      have herror : ¬ (b.updatePointer name (effectiveAPIKeyRef name body.apiKey body.apiKeyRef)
          { t with
            credentials := Table.upsert CredentialRow.providerName ⟨name, cred⟩ t.credentials
          }).1.Success := by
        intro hsuccess
        obtain ⟨hget, hcommits⟩ := (success_updatePointer_iff (by exact hknown)).mp hsuccess
        exact hfails.elim (· hget) (· hcommits)
      exact ⟨herror, cred, hnew, updatePointer_of_error herror⟩

theorem patchCredential_of_not_torn {name : String}
    {body : Except String PatchCredential} {t : Tables}
    (h : ¬ Torn b t (.patchCredential name body))
    (herror : ¬ (b.patchCredential name body t).1.Success) :
    (b.patchCredential name body t).2 = t := by
  cases body with
  | error msg => rfl
  | ok body =>
    simp only [patchCredential] at herror ⊢
    by_cases hbody : body.apiKey = "" ∧ body.apiKeyRef = ""
    · rw [if_pos hbody]
    · rw [if_neg hbody] at herror ⊢
      generalize hpersist : b.persistProviderCredential name body.apiKey t = stored at herror ⊢
      cases hpersist ▸ persisted name body.apiKey t with
      | nothing => exact updatePointer_of_error herror
      | unknown | failed => rfl
      | @stored cred hkey hstores hknown =>
        have hfails : b.getFault ≠ none ∨ ¬ b.Commits := by
          rw [← not_and_or]
          exact fun hfine ↦ herror ((success_updatePointer_iff (by exact hknown)).mpr hfine)
        have hholds : Holds t name cred := by
          by_contra hnew
          exact h (.patchCredential hkey hstores hknown hnew hfails)
        have hsame :
            Table.upsert CredentialRow.providerName ⟨name, cred⟩ t.credentials = t.credentials :=
          Table.upsert_eq_self_iff.mpr hholds
        refine (updatePointer_of_error herror).trans ?_
        rw [hsame]

/-- A request that is torn is answered with an error, and has changed the tables. -/
theorem handle_of_torn {call : Call} {t : Tables} (h : Torn b t call) :
    ¬ (b.handle call t).1.Success ∧ ¬ Untouched t (b.handle call t).2 := by
  have htorn := h
  cases h with
  | @postProvider body =>
    obtain ⟨msg, hmsg⟩ := postProvider_of_torn htorn
    rw [handle, hmsg]
    refine ⟨by simp [Success, status, AppErr.providerCreateFailed], ?_⟩
    rintro ⟨-, -, hgen⟩
    exact Nat.succ_ne_self _ hgen
  | @patchCredential name body =>
    obtain ⟨herror, cred, hnew, hleft⟩ := patchCredential_of_torn htorn
    refine ⟨herror, ?_⟩
    rintro ⟨-, hcred, -⟩
    rw [handle, hleft] at hcred
    exact hnew (Table.upsert_eq_self_iff.mp hcred)

/-- Any other request that is answered with an error has changed no table at all. -/
theorem handle_of_not_torn {call : Call} {t : Tables} (h : ¬ Torn b t call)
    (herror : ¬ (b.handle call t).1.Success) : (b.handle call t).2 = t := by
  cases call with
  | postProvider body => exact postProvider_of_not_torn h herror
  | patchCredential name body => exact patchCredential_of_not_torn h herror

variable (b) in
/-- **A request that is answered with an error has left the tables alone, unless it was torn.** -/
theorem provider_writes_atomic_iff (call : Call) (t : Tables) :
    (¬ (b.handle call t).1.Success → Untouched t (b.handle call t).2) ↔ ¬ Torn b t call := by
  constructor
  · intro h htorn
    obtain ⟨herror, hchanged⟩ := handle_of_torn htorn
    exact hchanged (h herror)
  · intro h herror
    rw [handle_of_not_torn h herror]
    exact ⟨rfl, rfl, rfl⟩

/-- A plane without `GATEWAY_PROVIDER_CREDENTIAL_KEK`. -/
def keyless : Backend := { reliable none [] with repo := false }

/-- A plane whose connection breaks when `UpsertProvider` commits. -/
def broken : Backend :=
  { reliable (some fun nonce key ↦ ⟨key.toUTF8.data.toList, nonce, "AES-256-GCM", "v0"⟩) [0] with
    providerFault := fun i ↦ if i = 2 then some "driver: bad connection" else none }

def sampleRequest : ProviderRequest := ⟨{ Config.Provider.sample with apiKeyRef := "" }, "sk"⟩

def sampleTables : Tables :=
  { Tables.empty with
    providers := [{ Config.Provider.sample with apiKeyRef := "env://OPENAI_KEY" }]
    generation := 1 }

/-- The `POST` that is answered with an error has created the provider, and the `PATCH` has replaced
the key. -/
theorem failed_writes_stay :
    let created := keyless.handle (.postProvider (.ok sampleRequest)) .empty
    let patched := broken.handle (.patchCredential "openai-prod" (.ok ⟨"sk", ""⟩)) sampleTables
    (created.1 = .error .providerCreateFailed "credential encryption service not configured" ∧
        created.2.providers = [.sample] ∧ created.2.generation = 1 ∧ ¬ Untouched .empty created.2) ∧
      (patched.1 = internalErr "driver: bad connection" ∧
        patched.2.providers = sampleTables.providers ∧
        patched.2.credentials = [⟨"openai-prod", ⟨[115, 107], [0], "AES-256-GCM", "v0"⟩⟩] ∧
        ¬ Untouched sampleTables patched.2) := by
  decide

end Backend
end Admin
end Voxeltoad
