import Voxeltoad.Proxy.Affinity

/-!
# The session key

`sessionKeyExtractor` of `internal/proxy/affinity.go`.  A request names its session in a configured
header, in a header of some vendor, or in its body; the first of them that holds a well-formed id
wins, and the beginning of the conversation stands in when none does.

A header map has no order.  Here it is a list of entries, in the order in which a `range` over it
happens to go, so the other orders are the permutations of the list.  The vendor headers are taken
from that range, and the first hit is returned: which one that is depends on the order as soon as
two of them hold different ids.
-/

set_option autoImplicit false

namespace Voxeltoad

open Unmarshal (foldName)

/-! ## Headers -/

/-- A character of a header name. -/
def isTokenChar (c : Char) : Bool :=
  c.isAlphanum || "!#$%&*+-.^_|~".toList.contains c || c.toNat = 0x27 || c.toNat = 0x60

/-- `http.Header`, as `net/http` hands it to a handler: no name comes twice, and every name is a
token. -/
structure Header where
  entries : List (String × List Bytes)
  keyed : Assoc.Keyed entries
  token : ∀ e ∈ entries, e.1.toList.all isTokenChar = true

/-- Capitalize the first letter and every letter after a hyphen, and no others. -/
def capitalize (upper : Bool) : List Char → List Char
  | [] => []
  | c :: cs => (if upper then c.toUpper else c.toLower) :: capitalize (c = '-') cs

/-- `textproto.CanonicalMIMEHeaderKey`. -/
def canonicalHeaderKey (name : String) : String :=
  if name.toList.all isTokenChar then String.ofList (capitalize true name.toList) else name

/-- `Header.Get`. -/
def Header.get (h : Header) (name : String) : Bytes :=
  ((h.entries.lookup (canonicalHeaderKey name)).bind List.head?).getD []

/-! ## Values -/

/-- The encodings of the characters that are white space. -/
def spaces : List Bytes :=
  [[0x09], [0x0A], [0x0B], [0x0C], [0x0D], [0x20], [0xC2, 0x85], [0xC2, 0xA0], [0xE1, 0x9A, 0x80],
    [0xE2, 0x80, 0x80], [0xE2, 0x80, 0x81], [0xE2, 0x80, 0x82], [0xE2, 0x80, 0x83],
    [0xE2, 0x80, 0x84], [0xE2, 0x80, 0x85], [0xE2, 0x80, 0x86], [0xE2, 0x80, 0x87],
    [0xE2, 0x80, 0x88], [0xE2, 0x80, 0x89], [0xE2, 0x80, 0x8A], [0xE2, 0x80, 0xA8],
    [0xE2, 0x80, 0xA9], [0xE2, 0x80, 0xAF], [0xE2, 0x81, 0x9F], [0xE3, 0x80, 0x80]]

/-- Drop up to `n` of the given pieces from the front. -/
def dropPieces (pieces : List Bytes) : Nat → Bytes → Bytes
  | 0, b => b
  | n + 1, b =>
    match pieces.find? fun piece ↦ piece.isPrefixOf b with
    | none => b
    | some piece => dropPieces pieces n (b.drop piece.length)

/-- `strings.TrimSpace`. -/
def trimSpace (b : Bytes) : Bytes :=
  let left := dropPieces spaces b.length b
  (dropPieces (spaces.map List.reverse) left.length left.reverse).reverse

def sessionIDMinLen : Nat := 8

def sessionIDMaxLen : Nat := 128

/-- A byte of a session id: a letter or a digit of ASCII, an underscore or a hyphen. -/
def isSessionIDByte (b : UInt8) : Bool :=
  (48 ≤ b && b ≤ 57) || (65 ≤ b && b ≤ 90) || (97 ≤ b && b ≤ 122) || b = 95 || b = 45

/-- `validateSessionID`, with `none` for the empty text. -/
def validateSessionID (v : Bytes) : Option Bytes :=
  if sessionIDMinLen ≤ v.length ∧ v.length ≤ sessionIDMaxLen ∧ v.all isSessionIDByte then some v
    else none

/-! ## The extractor -/

/-- Where a session key comes from. -/
inductive SessionSource where
  | headerConfig
  | headerGeneric
  | bodySession
  | bodyMetadata
  | bodyUser
  | prefixHash
  deriving DecidableEq, Repr

/-- `bodyIdentity`. -/
structure BodyIdentity where
  sessionID : Bytes
  metadataSessionID : Bytes
  user : Bytes
  deriving Repr

/-- `genericSessionIDHeaderRE` on a token: a vendor between `x-` and `-session-id`, in any case. -/
def genericSessionIDHeader (name : String) : Bool :=
  let cs := name.toList.map Char.toLower
  "x-".toList.isPrefixOf cs && "-session-id".toList.isSuffixOf cs && 14 ≤ cs.length

/-- `sessionKeyExtractor`. -/
structure SessionKeyExtractor where
  headers : List String

namespace SessionKeyExtractor

/-- `isConfigured`, for a token. -/
def isConfigured (e : SessionKeyExtractor) (name : String) : Bool :=
  e.headers.any fun c ↦ foldName c = foldName name

/-- The id in a configured header. -/
def configuredID (e : SessionKeyExtractor) (h : Header) : Option Bytes :=
  e.headers.findSome? fun name ↦ validateSessionID (trimSpace (h.get name))

/-- The id in the header of a vendor: the step of the range over the header map. -/
def vendorID (e : SessionKeyExtractor) (entry : String × List Bytes) : Option Bytes :=
  if genericSessionIDHeader entry.1 ∧ e.isConfigured entry.1 = false then
    entry.2.head?.bind fun v ↦ validateSessionID (trimSpace v)
  else none

/-- The key of the conversation, if there is one. -/
def prefixID (sha256 : Bytes → Vector UInt8 32) (msgs : List Message) : Option Bytes :=
  if prefixHash sha256 msgs = "" then none else some (utf8 (prefixHash sha256 msgs))

/-- **`key`**: the first source that holds a session id. -/
def key (e : SessionKeyExtractor) (sha256 : Bytes → Vector UInt8 32) (h : Header)
    (req : Option (List Message)) (id : BodyIdentity) : Option (Bytes × SessionSource) :=
  ((e.configuredID h).map fun v ↦ (v, .headerConfig)) <|>
  ((h.entries.findSome? e.vendorID).map fun v ↦ (v, .headerGeneric)) <|>
  ((validateSessionID id.sessionID).map fun v ↦ (v, .bodySession)) <|>
  ((validateSessionID id.metadataSessionID).map fun v ↦ (v, .bodyMetadata)) <|>
  ((validateSessionID id.user).map fun v ↦ (v, .bodyUser)) <|>
  ((req.bind (prefixID sha256)).map fun v ↦ (v, .prefixHash))

end SessionKeyExtractor

/-! ## The order of the headers -/

/-- Two header maps with the same entries, enumerated in different orders. -/
def Header.Same (h h' : Header) : Prop := h'.entries.Perm h.entries

theorem Header.Same.get {h h' : Header} (hsame : h.Same h') (name : String) :
    h'.get name = h.get name := by
  rw [Header.get, Header.get, h.keyed.lookup_perm hsame]

/-- The entries in another order. -/
def Header.reorder (h : Header) (entries : List (String × List Bytes))
    (hperm : entries.Perm h.entries) : Header where
  entries := entries
  keyed := (hperm.map Prod.fst).nodup_iff.mpr h.keyed
  token := fun e he ↦ h.token e (hperm.mem_iff.mp he)

namespace SessionKeyExtractor

variable {e : SessionKeyExtractor} {h h' : Header}

theorem configuredID_same (hsame : h.Same h') : e.configuredID h' = e.configuredID h := by
  simp only [configuredID, hsame.get]

/-- The header map does not leave open which id is meant: a configured header holds one, or all the
vendor headers that hold one hold the same. -/
def Unambiguous (e : SessionKeyExtractor) (h : Header) : Prop :=
  (e.configuredID h).isSome ∨
    ∀ a ∈ h.entries, ∀ b ∈ h.entries, ∀ x y, e.vendorID a = some x → e.vendorID b = some y → x = y

/-- The key is that of the vendor headers when no configured header holds an id. -/
theorem key_of_vendorID (hnone : e.configuredID h = none) {x : Bytes}
    (hx : h.entries.findSome? e.vendorID = some x) (sha256 : Bytes → Vector UInt8 32)
    (req : Option (List Message)) (id : BodyIdentity) :
    e.key sha256 h req id = some (x, .headerGeneric) := by
  rw [key, hnone, hx]
  rfl

/-- The key is that of the configured headers when one of them holds an id. -/
theorem key_of_configuredID {x : Bytes} (hx : e.configuredID h = some x)
    (sha256 : Bytes → Vector UInt8 32) (req : Option (List Message)) (id : BodyIdentity) :
    e.key sha256 h req id = some (x, .headerConfig) := by
  rw [key, hx]
  rfl

/-- The key and its source are the same for every order of the headers, and so is the order in which
the providers are tried. -/
def Stable (e : SessionKeyExtractor) (sha256 : Bytes → Vector UInt8 32) (h : Header)
    (req : Option (List Message)) (id : BodyIdentity) : Prop :=
  ∀ h', h.Same h' → e.key sha256 h' req id = e.key sha256 h req id ∧
    ∀ (score : Option Bytes → String → UInt64) (ps : List RouteProvider),
      hrwOrder (score ((e.key sha256 h' req id).map Prod.fst)) ps =
        hrwOrder (score ((e.key sha256 h req id).map Prod.fst)) ps

end SessionKeyExtractor

open SessionKeyExtractor

/-- **When the session key is a function of the request**: just when the headers do not leave open
which id is meant. -/
theorem sessionKey_iff (e : SessionKeyExtractor) (sha256 : Bytes → Vector UInt8 32) (h : Header)
    (req : Option (List Message)) (id : BodyIdentity) :
    e.Stable sha256 h req id ↔ e.Unambiguous h := by
  constructor
  · intro hstable
    cases hnone : e.configuredID h with
    | some x => exact .inl (by rw [hnone]; rfl)
    | none =>
      refine .inr (Assoc.findSome?_perm_iff.mp fun entries hperm ↦ ?_)
      have hsame : h.Same (h.reorder entries hperm) := hperm
      have hnone' := (configuredID_same (e := e) hsame).trans hnone
      cases hfind : h.entries.findSome? e.vendorID with
      | none =>
        rw [List.findSome?_eq_none_iff] at hfind ⊢
        exact fun a ha ↦ hfind a (hperm.mem_iff.mp ha)
      | some x =>
        -- some header of the other order is hit as well, and its id is the key there
        obtain ⟨a, ha, hx⟩ := List.exists_of_findSome?_eq_some hfind
        have hsome : (entries.findSome? e.vendorID).isSome :=
          List.findSome?_isSome_iff.mpr ⟨a, hperm.mem_iff.mpr ha, by simp [hx]⟩
        obtain ⟨y, hy⟩ := Option.isSome_iff_exists.mp hsome
        have hkey := (hstable _ hsame).1
        rw [key_of_vendorID hnone hfind,
          key_of_vendorID (h := h.reorder entries hperm) hnone' hy] at hkey
        rw [hy, (Prod.mk.inj (Option.some.inj hkey)).1]
  · intro hunambiguous h' hsame
    have hkey : e.key sha256 h' req id = e.key sha256 h req id := by
      rcases hunambiguous with hsome | hagree
      · obtain ⟨x, hx⟩ := Option.isSome_iff_exists.mp hsome
        rw [key_of_configuredID hx, key_of_configuredID ((configuredID_same hsame).trans hx)]
      · have hfind := Assoc.findSome?_perm_iff.mpr hagree h'.entries hsame
        rw [key, key, configuredID_same hsame, hfind]
    exact ⟨hkey, fun score ps ↦ by rw [hkey]⟩

/-- Two vendor headers with different ids, enumerated in two orders, give two keys. -/
theorem sessionKey_ambiguous :
    ¬ ∀ (e : SessionKeyExtractor) (sha256 : Bytes → Vector UInt8 32) (h : Header)
      (req : Option (List Message)) (id : BodyIdentity), e.Stable sha256 h req id := by
  intro hall
  let a : String × List Bytes := ("X-Foo-Session-Id", [List.replicate 8 97])
  let b : String × List Bytes := ("X-Bar-Session-Id", [List.replicate 8 98])
  let h : Header := ⟨[a, b], by decide, by decide⟩
  have hstable :=
    hall ⟨["X-Voxeltoad-Session", "X-Session-Id"]⟩ (fun _ ↦ Vector.replicate 32 0) h none
    ⟨[], [], []⟩ (h.reorder [b, a] (List.Perm.swap a b [])) (List.Perm.swap a b [])
  exact absurd hstable.1 (by decide)

end Voxeltoad
