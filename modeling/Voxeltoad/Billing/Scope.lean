import Mathlib.Data.List.Basic
import Voxeltoad.Billing.Accounting

/-!
# Quota scopes

A quota row is keyed by a scope: `tenant:<name>`, `key:<id>`, or a group scope.  Group names are
unique only inside a tenant, so a group scope carries both names, each escaped on its own
(`internal/billing/scope.go`); a row `group:<name>` without a tenant is left over from before.
-/

set_option autoImplicit false

namespace Voxeltoad

/-! ## Escaping

A Go string is a sequence of bytes, and the escaping works on bytes; so does the model. -/

/-- The bytes of a string. -/
def bytesOf (s : String) : List UInt8 := s.toByteArray.data.toList

/-- The bytes `url.PathEscape` leaves alone: letters, digits, `-_.~` and `$&+:=@`. -/
def pathUnescaped (b : UInt8) : Bool :=
  (48 ≤ b && b ≤ 57) || (65 ≤ b && b ≤ 90) || (97 ≤ b && b ≤ 122) ||
    [45, 95, 46, 126, 36, 38, 43, 58, 61, 64].contains b

/-- An upper-case hexadecimal digit. -/
def upperHex (n : UInt8) : UInt8 := if n < 10 then 48 + n else 55 + n

/-- `url.PathEscape`: every other byte becomes `%XX`. -/
def pathEscape (s : List UInt8) : List UInt8 :=
  s.flatMap fun b ↦ if pathUnescaped b then [b] else [37, upperHex (b / 16), upperHex (b % 16)]

/-- The value of a hexadecimal digit of either case. -/
def unhex (b : UInt8) : Option UInt8 :=
  if 48 ≤ b && b ≤ 57 then some (b - 48)
  else if 65 ≤ b && b ≤ 70 then some (b - 55)
  else if 97 ≤ b && b ≤ 102 then some (b - 87)
  else none

/-- `url.PathUnescape`. -/
def pathUnescape : List UInt8 → Option (List UInt8)
  | [] => some []
  | 37 :: a :: b :: rest => do
    let a ← unhex a
    let b ← unhex b
    return (a * 16 + b) :: (← pathUnescape rest)
  | 37 :: _ => none
  | c :: rest => do return c :: (← pathUnescape rest)

/-! ## Scopes -/

/-- `GroupScope`, on the bytes of the two names. -/
def groupScopeBytes (tenant group : List UInt8) : List UInt8 :=
  bytesOf "group:" ++ pathEscape tenant ++ [47] ++ pathEscape group

/-- `GroupScope` encodes each name independently, so that slashes and percent signs cannot alias a
different tenant/group pair. -/
def groupScope (tenant group : String) : String :=
  "group:" ++ (escaped tenant ++ ("/" ++ escaped group))
where
  /-- What escaping leaves is ASCII. -/
  escaped (s : String) : String :=
    String.ofList ((pathEscape (bytesOf s)).map fun b ↦ Char.ofNat b.toNat)

/-- `ParseGroupScope`, on the bytes of the scope. -/
def parseGroupScopeBytes (bytes : List UInt8) : Except AccountingError (List UInt8 × List UInt8) :=
  match (bytes.drop 6).splitOn 47 with
  | [tenant, group] =>
    if ¬ (bytesOf "group:").isPrefixOf bytes then
      .error (.invalidPolicy "ambiguous group quota scope")
    else match pathUnescape tenant with
      | none => .error (.invalidPolicy "invalid tenant escape")
      | some tenant => match pathUnescape group with
        | none => .error (.invalidPolicy "noncanonical group quota scope")
        | some group =>
          if tenant = [] ∨ group = [] ∨ groupScopeBytes tenant group ≠ bytes then
            .error (.invalidPolicy "noncanonical group quota scope")
          else .ok (tenant, group)
  | _ => .error (.invalidPolicy "ambiguous group quota scope")

/-- `ParseGroupScope`: the two names of a canonical group scope. -/
def parseGroupScope (scope : String) : Except AccountingError (List UInt8 × List UInt8) :=
  parseGroupScopeBytes (bytesOf scope)

/-- The scope of a tenant. -/
def tenantScope (tenant : String) : String := "tenant:" ++ tenant

/-- The scope of an API key. -/
def keyScope (apiKeyID : String) : String := "key:" ++ apiKeyID

/-- The scope of a group from before group scopes were qualified by their tenant. -/
def legacyGroupScope (group : String) : String := "group:" ++ group

theorem tenantScope_ne_groupScope (t t' g : String) : tenantScope t ≠ groupScope t' g := by
  intro h
  have := congrArg String.toList h
  simp [tenantScope, groupScope] at this

theorem tenantScope_ne_keyScope (t k : String) : tenantScope t ≠ keyScope k := by
  intro h
  have := congrArg String.toList h
  simp [tenantScope, keyScope] at this

theorem groupScope_ne_keyScope (t g k : String) : groupScope t g ≠ keyScope k := by
  intro h
  have := congrArg String.toList h
  simp [groupScope, keyScope] at this

/-! ## What escaping does -/

theorem unhex_upperHex {n : UInt8} (h : n < 16) : unhex (upperHex n) = some n := by
  unfold unhex upperHex
  grind

/-- A digit is ASCII, and not the separator. -/
theorem upperHex_bounds {n : UInt8} (h : n < 16) : upperHex n < 128 ∧ upperHex n ≠ 47 := by
  unfold upperHex
  grind

/-- What is left alone is ASCII, and neither the escape nor the separator. -/
theorem pathUnescaped_bounds {b : UInt8} (h : pathUnescaped b = true) :
    b < 128 ∧ b ≠ 37 ∧ b ≠ 47 := by
  refine ⟨?_, by rintro rfl; exact absurd h (by decide), by rintro rfl; exact absurd h (by decide)⟩
  simp only [pathUnescaped, Bool.or_eq_true, Bool.and_eq_true, decide_eq_true_eq,
    List.contains_iff_mem, List.mem_cons, List.not_mem_nil, or_false] at h
  rcases h with ((⟨-, h⟩ | ⟨-, h⟩) | ⟨-, h⟩) | h
  · exact UInt8.lt_of_le_of_lt h (by decide)
  · exact UInt8.lt_of_le_of_lt h (by decide)
  · exact UInt8.lt_of_le_of_lt h (by decide)
  · rcases h with rfl | rfl | rfl | rfl | rfl | rfl | rfl | rfl | rfl | rfl <;> decide

/-- The two halves of a byte. -/
theorem halves (b : UInt8) : b / 16 < 16 ∧ b % 16 < 16 ∧ b / 16 * 16 + b % 16 = b := by
  grind

theorem pathEscape_cons (b : UInt8) (s : List UInt8) : pathEscape (b :: s) =
    (if pathUnescaped b then [b] else [37, upperHex (b / 16), upperHex (b % 16)]) ++ pathEscape s :=
  List.flatMap_cons

/-- Escaped text is ASCII without the separator. -/
theorem pathEscape_bounds {s : List UInt8} {c : UInt8} (h : c ∈ pathEscape s) :
    c < 128 ∧ c ≠ 47 := by
  obtain ⟨b, -, hc⟩ := List.mem_flatMap.mp h
  obtain ⟨hhigh, hlow, -⟩ := halves b
  split at hc
  · rename_i hb
    obtain ⟨hlt, -, hne⟩ := pathUnescaped_bounds hb
    obtain rfl := List.mem_singleton.mp hc
    exact ⟨hlt, hne⟩
  · simp only [List.mem_cons, List.not_mem_nil, or_false] at hc
    rcases hc with rfl | rfl | rfl
    · decide
    · exact upperHex_bounds hhigh
    · exact upperHex_bounds hlow

/-- **Escaped text reads back.** -/
theorem pathUnescape_pathEscape (s : List UInt8) : pathUnescape (pathEscape s) = some s := by
  induction s with
  | nil => rfl
  | cons b s ih =>
    rw [pathEscape_cons]
    split
    · rename_i hb
      have hne := (pathUnescaped_bounds hb).2.1
      rw [List.singleton_append, pathUnescape, ih]
      · rfl
      all_goals grind
    · obtain ⟨hhigh, hlow, hb⟩ := halves b
      simp [pathUnescape, unhex_upperHex hhigh, unhex_upperHex hlow, ih, hb]

theorem pathEscape_injective {s s' : List UInt8} (h : pathEscape s = pathEscape s') : s = s' := by
  have hread := pathUnescape_pathEscape s
  rw [h, pathUnescape_pathEscape] at hread
  exact (Option.some.inj hread).symm

/-! ## The codec -/

/-- Behind the tag, a group scope is split at its only separator. -/
theorem splitOn_groupScopeBytes (tenant group : List UInt8) :
    ((groupScopeBytes tenant group).drop 6).splitOn 47 = [pathEscape tenant, pathEscape group] := by
  have hdrop :
      (groupScopeBytes tenant group).drop 6 = pathEscape tenant ++ 47 :: pathEscape group := by
    rw [groupScopeBytes, List.append_assoc, List.append_assoc]
    rfl
  rw [hdrop, List.splitOn_append_cons_self_of_not_mem fun h ↦ (pathEscape_bounds h).2 rfl,
    List.splitOn_eq_singleton fun h ↦ (pathEscape_bounds h).2 rfl]

/-- `ParseGroupScope` accepts canonical spellings only. -/
theorem parseGroupScopeBytes_eq_ok_iff {scope tenant group : List UInt8} :
    parseGroupScopeBytes scope = .ok (tenant, group) ↔
      tenant ≠ [] ∧ group ≠ [] ∧ groupScopeBytes tenant group = scope := by
  constructor
  · intro h
    unfold parseGroupScopeBytes at h
    grind
  · rintro ⟨htenant, hgroup, rfl⟩
    have htag : (bytesOf "group:").isPrefixOf (groupScopeBytes tenant group) := by
      rw [List.isPrefixOf_iff_prefix, groupScopeBytes, List.append_assoc, List.append_assoc]
      exact List.prefix_append _ _
    simp only [parseGroupScopeBytes, splitOn_groupScopeBytes, pathUnescape_pathEscape, htag,
      htenant, hgroup]
    simp

/-- Behind a tag that is different, nothing is a group scope. -/
theorem groupScopeBytes_ne {tag : List UInt8} (htag : tag.head? ≠ (bytesOf "group:").head?)
    (hne : tag ≠ []) (tenant group name : List UInt8) :
    groupScopeBytes tenant group ≠ tag ++ name := by
  intro h
  obtain ⟨b, rest, rfl⟩ := List.exists_cons_of_ne_nil hne
  have hhead : (groupScopeBytes tenant group).head? = (bytesOf "group:").head? := by
    rw [groupScopeBytes, List.append_assoc, List.append_assoc]
    rfl
  rw [h, List.cons_append, List.head?_cons] at hhead
  exact htag hhead

/-! ## Scopes as strings -/

theorem bytesOf_append (s s' : String) : bytesOf (s ++ s') = bytesOf s ++ bytesOf s' := by
  simp [bytesOf]

theorem bytesOf_ofList (cs : List Char) :
    bytesOf (String.ofList cs) = cs.flatMap String.utf8EncodeChar := by
  simp [bytesOf, List.utf8Encode]

/-- ASCII is one byte a character. -/
theorem utf8EncodeChar_ascii {b : UInt8} (h : b < 128) :
    String.utf8EncodeChar (Char.ofNat b.toNat) = [b] := by
  have hlt : b.toNat < 128 := h
  have hnat : (Char.ofNat b.toNat).toNat = b.toNat := by
    have hvalid : b.toNat.isValidChar := .inl (by omega)
    rw [Char.ofNat, dif_pos hvalid]
    rfl
  have hsize : (Char.ofNat b.toNat).utf8Size = 1 := by
    rw [Char.utf8Size_eq_one_iff]
    rw [UInt32.le_iff_toNat_le]
    change (Char.ofNat b.toNat).toNat ≤ 127
    omega
  rw [String.utf8EncodeChar_eq_singleton hsize, List.singleton_inj]
  apply UInt8.toNat_inj.mp
  rw [UInt32.toNat_toUInt8]
  change (Char.ofNat b.toNat).toNat % 256 = _
  omega

/-- The text of a group scope has the bytes of the group scope. -/
theorem bytesOf_groupScope (tenant group : String) :
    bytesOf (groupScope tenant group) = groupScopeBytes (bytesOf tenant) (bytesOf group) := by
  have hescaped : ∀ s, bytesOf (groupScope.escaped s) = pathEscape (bytesOf s) := by
    intro s
    rw [groupScope.escaped, bytesOf_ofList, List.flatMap_map]
    calc (pathEscape (bytesOf s)).flatMap (fun b ↦ String.utf8EncodeChar (Char.ofNat b.toNat))
        = (pathEscape (bytesOf s)).flatMap (fun b ↦ [b]) :=
          List.flatMap_congr fun b hb ↦ utf8EncodeChar_ascii (pathEscape_bounds hb).1
      _ = pathEscape (bytesOf s) := by simp
  rw [groupScope, bytesOf_append, bytesOf_append, bytesOf_append, hescaped, hescaped,
    groupScopeBytes]
  simp [List.append_assoc]
  rfl

/-- **Group scopes are a codec**: parsing is the inverse of `GroupScope` on non-empty names and
accepts nothing else, different pairs of names have different scopes, and no tenant or key has the
scope of a group.  Names and scopes are strings of any bytes. -/
theorem group_scope_codec :
    (∀ tenant group, tenant ≠ [] → group ≠ [] →
      parseGroupScopeBytes (groupScopeBytes tenant group) = .ok (tenant, group)) ∧
    (∀ tenant group tenant' group', groupScopeBytes tenant group = groupScopeBytes tenant' group' →
      tenant = tenant' ∧ group = group') ∧
    (∀ scope, (∃ names, parseGroupScopeBytes scope = .ok names) ↔
      ∃ tenant group, tenant ≠ [] ∧ group ≠ [] ∧ groupScopeBytes tenant group = scope) ∧
    (∀ tenant group name, groupScopeBytes tenant group ≠ bytesOf "tenant:" ++ name ∧
      groupScopeBytes tenant group ≠ bytesOf "key:" ++ name) ∧
    ∀ tenant group name : String,
    bytesOf (groupScope tenant group) = groupScopeBytes (bytesOf tenant) (bytesOf group) ∧
      bytesOf (tenantScope name) = bytesOf "tenant:" ++ bytesOf name ∧
      bytesOf (keyScope name) = bytesOf "key:" ++ bytesOf name := by
  refine ⟨fun tenant group htenant hgroup ↦ ?_, fun tenant group tenant' group' h ↦ ?_,
    fun scope ↦ ?_, fun tenant group name ↦ ⟨?_, ?_⟩, fun tenant group name ↦ ⟨?_, ?_, ?_⟩⟩
  · exact parseGroupScopeBytes_eq_ok_iff.mpr ⟨htenant, hgroup, rfl⟩
  · have hsplit := splitOn_groupScopeBytes tenant group
    rw [h, splitOn_groupScopeBytes, List.cons.injEq, List.cons.injEq] at hsplit
    exact ⟨(pathEscape_injective hsplit.1).symm, (pathEscape_injective hsplit.2.1).symm⟩
  · constructor
    · rintro ⟨⟨tenant, group⟩, h⟩
      exact ⟨tenant, group, parseGroupScopeBytes_eq_ok_iff.mp h⟩
    · rintro ⟨tenant, group, h⟩
      exact ⟨(tenant, group), parseGroupScopeBytes_eq_ok_iff.mpr h⟩
  · exact groupScopeBytes_ne (by decide) (by decide) tenant group name
  · exact groupScopeBytes_ne (by decide) (by decide) tenant group name
  · exact bytesOf_groupScope tenant group
  · exact bytesOf_append _ _
  · exact bytesOf_append _ _

/-- A slash and what looks like an escape. -/
example : groupScopeBytes (bytesOf "a/b") (bytesOf "%2F") = bytesOf "group:a%2Fb/%252F" := by decide

end Voxeltoad
