import Mathlib.Data.List.Basic
import Mathlib.Data.List.Infix

/-!
# Credential references

`internal/config/secret.go` and `dbref.go`, and the `db` scheme that `cmd/gateway/main.go`
registers.  A provider refers to its upstream key by a text: `env://VAR`, `plain://literal`, a bare
literal, or `db://provider/<name>` for a row of `provider_credentials`.  The environment of the
process and the cipher are parameters.
-/

set_option autoImplicit false

namespace Voxeltoad

/-- `strings.Cut`, with what is before and after the first separator. -/
def cut (sep : List Char) : List Char → Option (List Char × List Char)
  | [] => if sep = [] then some ([], []) else none
  | c :: cs =>
    if sep <+: c :: cs then some ([], (c :: cs).drop sep.length)
    else (cut sep cs).map fun p ↦ (c :: p.1, p.2)

/-- The scheme of a reference and what comes after it. -/
def cutScheme (ref : String) : Option (String × String) :=
  (cut "://".toList ref.toList).map fun p ↦ (String.ofList p.1, String.ofList p.2)

/-- `DBProviderRefPrefix`. -/
def dbProviderRefPrefix : String := "db://provider/"

/-- `DBProviderRef`. -/
def dbProviderRef (providerName : String) : String := dbProviderRefPrefix ++ providerName

/-- `effectiveAPIKeyRef`: a key that was sent in the clear is replaced by the reference to the row
that it is stored in. -/
def effectiveAPIKeyRef (providerName apiKey apiKeyRef : String) : String :=
  if apiKey ≠ "" then dbProviderRef providerName else apiKeyRef

/-- `ParseDBProviderPath`. -/
def parseDBProviderPath (path : String) : Option String :=
  if "provider/".toList <+: path.toList then
    let name := String.ofList (path.toList.drop "provider/".toList.length)
    if name = "" then none else some name
  else none

/-- `Credential`: an encrypted key.  The row it is stored in has the name of the provider too. -/
structure Credential where
  ciphertext : List UInt8
  nonce : List UInt8
  algorithm : String
  keyVersion : String
  deriving DecidableEq, Repr

/-- Why a reference does not resolve. -/
inductive SecretError where
  | empty
  | unknownScheme (scheme : String)
  | envNotSet (varName : String)
  | invalidPath (path : String)
  | noCredential (name : String)
  | decrypt (name : String)
  deriving DecidableEq, Repr

variable (env : String → Option String) (decrypt : Credential → Option String)
  (credential : String → Option Credential)

/-- The `db` scheme. -/
def resolveDB (path : String) : Except SecretError String :=
  match parseDBProviderPath path with
  | none => .error (.invalidPath path)
  | some name =>
    match credential name with
    | none => .error (.noCredential name)
    | some enc =>
      match decrypt enc with
      | none => .error (.decrypt name)
      | some plain => .ok plain

/-- **`ResolveSecret`.** -/
def resolveSecret (ref : String) : Except SecretError String :=
  if ref = "" then .error .empty
  else
    match cutScheme ref with
    | none => .ok ref
    | some ("env", varName) =>
      match env varName with
      | none => .error (.envNotSet varName)
      | some v => .ok v
    | some ("plain", s) => .ok s
    | some ("db", path) => resolveDB decrypt credential path
    | some (scheme, _) => .error (.unknownScheme scheme)

/-! ## The reference to a stored credential -/

theorem cutScheme_dbProviderRef (name : String) :
    cutScheme (dbProviderRef name) = some ("db", "provider/" ++ name) := by
  have hsplit : (dbProviderRef name).toList =
      'd' :: 'b' :: "://".toList ++ ("provider/" ++ name).toList := by
    simp [dbProviderRef, dbProviderRefPrefix]
  have hcut : cut "://".toList (dbProviderRef name).toList =
      some (['d', 'b'], ("provider/" ++ name).toList) := by
    simp [hsplit, cut]
  rw [cutScheme, hcut, Option.map_some, String.ofList_toList]

theorem parseDBProviderPath_provider {name : String} (h : name ≠ "") :
    parseDBProviderPath ("provider/" ++ name) = some name := by
  have hrest : ("provider/" ++ name).toList.drop "provider/".toList.length = name.toList := by
    simp
  have hpre : "provider/".toList <+: ("provider/" ++ name).toList := by
    simp
  rw [parseDBProviderPath, if_pos hpre, hrest, String.ofList_toList]
  exact if_neg h

/-- The reference to a row resolves to what the row decrypts to. -/
theorem resolveSecret_dbProviderRef {name key : String}
    (h : resolveSecret env decrypt credential (dbProviderRef name) = .ok key) :
    ∃ enc, credential name = some enc ∧ decrypt enc = some key := by
  have hne : dbProviderRef name ≠ "" := by
    intro hnil
    simpa [dbProviderRef, dbProviderRefPrefix] using congrArg String.toList hnil
  rw [resolveSecret, if_neg hne, cutScheme_dbProviderRef] at h
  simp only [resolveDB] at h
  split at h
  · cases h
  · rename_i name' hname'
    have hsame : name' = name := by
      by_cases hempty : name = ""
      · subst hempty
        simp [parseDBProviderPath] at hname'
      · rw [parseDBProviderPath_provider hempty] at hname'
        exact (Option.some.inj hname').symm
    subst hsame
    split at h
    · cases h
    · rename_i enc henc
      split at h
      · cases h
      · rename_i plain hplain
        cases h
        exact ⟨enc, henc, hplain⟩

end Voxeltoad
