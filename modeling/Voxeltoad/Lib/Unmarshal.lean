import Mathlib.Algebra.Group.Int.Defs
import Voxeltoad.Lib.Assoc
import Voxeltoad.Lib.Json

/-!
# Reading JSON into records

How `json.Unmarshal` fills in Go values.  A `Reader` reads a value *into* one that is there already:
`null` leaves a text, a number or a record as it is, but clears a list or a pointer.  The members of
an object go into the field of the same name, or else into a field whose name differs only in case,
one after the other; members without a field are skipped.

A field may also keep what is read into it with the text it has there (`Written`).

As long as no two members of an object share a name and no member is named like a field but for the
case (`Unmarshal.Exact`), a field is read from the member of its name
(`Unmarshal.members_of_exact`).
-/

set_option autoImplicit false

namespace Unmarshal

/-- A way to read a value into one that is there.  `none` is an error. -/
abbrev Reader (α : Type) := α → JsonValue → Option α

variable {α δ σ : Type}

def string : Reader String
  | s, .null => some s
  | _, .str s => some s
  | _, _ => none

def bool : Reader Bool
  | b, .null => some b
  | _, .bool b => some b
  | _, _ => none

/-- A Go `int`: an integer of 64 bits, written without a fraction or an exponent. -/
def int : Reader Int
  | n, .null => some n
  | _, .num n => if -2 ^ 63 ≤ n ∧ n < 2 ^ 63 then some n else none
  | _, _ => none

/-- What is kept as it is. -/
def raw : Reader JsonValue := fun _ v ↦ some v

/-- A pointer: `null` clears it. -/
def pointer (r : Reader α) (zero : α) : Reader (Option α)
  | _, .null => some none
  | a, v => (r (a.getD zero) v).map some

/-- The items of an array.  They are read into what stands in their places. -/
def items (r : α → δ → Option α) (zero : α) : List α → List δ → Option (List α)
  | _, [] => some []
  | as, v :: vs => do
    let a ← r (as.head?.getD zero) v
    let rest ← items r zero as.tail vs
    return a :: rest

/-- Items that are read back as they were written. -/
theorem items_map {β : Type} {r : α → δ → Option α} {zero : α} {write : β → δ} {f : β → α}
    (h : ∀ b, r zero (write b) = some (f b)) (bs : List β) :
    items r zero [] (bs.map write) = some (bs.map f) := by
  induction bs with
  | nil => rfl
  | cons b bs ih =>
    rw [List.map_cons, items, List.head?_nil, Option.getD_none, h, List.tail_nil, ih]
    rfl

/-- A slice: `null` clears it. -/
def slice (r : Reader α) (zero : α) : Reader (List α)
  | _, .null => some []
  | as, .arr vs => items r zero as vs
  | _, _ => none

/-! ## Records -/

/-- A character without its case, as far as the letters of ASCII go: the long s and the Kelvin sign
are the two others that fold to one of them. -/
def foldRune (c : Char) : Char :=
  if c.toNat = 0x17F then 'S' else if c.toNat = 0x212A then 'K' else c.toUpper

def foldName (name : String) : List Char := name.toList.map foldRune

/-- The field that a member belongs to. -/
def resolve (names : List String) (k : String) : Option String :=
  if k ∈ names then some k else names.find? fun name ↦ foldName name = foldName k

/-- The members that belong to a field, in order. -/
def members (names : List String) (name : String) (ms : List (String × δ)) : List δ :=
  ms.filterMap fun m ↦ if resolve names m.1 = some name then some m.2 else none

/-- Read a field of a record with fields `names`. -/
def field (r : α → δ → Option α) (a : α) (names : List String) (name : String)
    (ms : List (String × δ)) : Option α :=
  (members names name ms).foldlM r a

/-- A record, from the way its fields are read. -/
def record (read : σ → List (String × JsonValue) → Option σ) : Reader σ
  | s, .null => some s
  | s, .obj ms => read s ms
  | _, _ => none

/-! ### Values with their texts -/

open JsonValue (Written)

/-- Read what is written. -/
def ofValue (r : Reader α) : α → Written → Option α := fun a w ↦ r a w.value

/-- `json.RawMessage`, which is empty where nothing was read. -/
def asWritten : Option Written → Written → Option (Option Written) := fun _ w ↦ some (some w)

def sliceWritten (r : α → Written → Option α) (zero : α) : List α → Written → Option (List α)
  | _, .atom _ .null => some []
  | as, .arr _ ws => items r zero as ws
  | _, _ => none

def recordWritten (read : σ → List (String × Written) → Option σ) : σ → Written → Option σ
  | s, .atom _ .null => some s
  | s, .obj _ ms => read s ms
  | _, _ => none

theorem members_written (names : List String) (name : String) (ms : List (String × JsonValue)) :
    members names name (JsonValue.writtenFields ms) =
      (members names name ms).map JsonValue.written := by
  rw [JsonValue.writtenFields_eq, members, members, List.filterMap_map, List.map_filterMap]
  refine List.filterMap_congr fun m _ ↦ ?_
  dsimp only [Function.comp]
  split <;> rfl

/-- A field of an object that was marshalled, read for its value. -/
theorem field_ofValue (r : Reader α) (a : α) (names : List String) (name : String)
    (ms : List (String × JsonValue)) :
    field (ofValue r) a names name (JsonValue.writtenFields ms) = field r a names name ms := by
  rw [field, field, members_written, List.foldlM_map]
  simp only [ofValue, JsonValue.value_written]

/-! ## Exact names -/

/-- No name occurs twice, and every member that belongs to a field has its very name. -/
structure Exact (names : List String) (ms : List (String × JsonValue)) : Prop where
  keyed : Assoc.Keyed ms
  exact : ∀ m ∈ ms, ∀ name, resolve names m.1 = some name → m.1 = name

instance (names : List String) (ms : List (String × JsonValue)) : Decidable (Exact names ms) :=
  decidable_of_iff
    (Assoc.Keyed ms ∧ ∀ m ∈ ms, ∀ name ∈ (resolve names m.1).toList, m.1 = name)
    ⟨fun h ↦ ⟨h.1, fun m hm name hname ↦ h.2 m hm name (by simp [hname])⟩,
      fun h ↦ ⟨h.keyed, fun m hm name hname ↦ h.exact m hm name (by simpa using hname)⟩⟩

theorem resolve_self {names : List String} {name : String} (h : name ∈ names) :
    resolve names name = some name :=
  if_pos h

/-- A record that is written field by field, some of them left out. -/
theorem Exact.of_sublist {names : List String} {ms : List (String × JsonValue)}
    (hnodup : names.Nodup) (h : (ms.map Prod.fst).Sublist names) : Exact names ms where
  keyed := h.nodup hnodup
  exact := by
    intro m hm name hname
    rw [resolve_self (h.subset (List.mem_map_of_mem hm))] at hname
    exact Option.some.inj hname

theorem members_cons (names : List String) (name : String) (m : String × JsonValue)
    (ms : List (String × JsonValue)) :
    members names name (m :: ms) =
      (if resolve names m.1 = some name then [m.2] else []) ++ members names name ms := by
  rw [members, List.filterMap_cons]
  split <;> simp_all [members]

/-- **A field is read from the member of its name.** -/
theorem members_of_exact {names : List String} {name : String} {ms : List (String × JsonValue)}
    (h : Exact names ms) (hname : name ∈ names) :
    members names name ms = (ms.lookup name).toList := by
  induction ms with
  | nil => rfl
  | cons m ms ih =>
    obtain ⟨hhead, htail⟩ := List.nodup_cons.mp h.keyed
    have hrest := ih ⟨htail, fun m' hm' ↦ h.exact m' (List.mem_cons_of_mem _ hm')⟩
    rw [members_cons, hrest, List.lookup_cons]
    by_cases hm : m.1 = name
    · have hnone : ms.lookup name = none := by
        rw [← Option.not_isSome_iff_eq_none, Assoc.lookup_isSome_iff]
        exact hm ▸ hhead
      simp [hm, resolve_self hname, hnone]
    · have hresolve : resolve names m.1 ≠ some name :=
        fun heq ↦ hm (h.exact m (List.mem_cons_self ..) name heq)
      simp [hresolve, beq_false_of_ne (Ne.symm hm)]

theorem field_of_exact (r : Reader α) (a : α) {names : List String} {name : String}
    {ms : List (String × JsonValue)} (h : Exact names ms) (hname : name ∈ names) :
    field r a names name ms =
      match ms.lookup name with
      | none => some a
      | some v => r a v := by
  rw [field, members_of_exact h hname]
  cases ms.lookup name <;> simp

end Unmarshal
