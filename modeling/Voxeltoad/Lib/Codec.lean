import Voxeltoad.Lib.Json

/-!
# Records as JSON objects

How a record is written as an object and read back, the way Go does it by the tags of a struct:
every field has a name, some are left out when they are empty, a field that is missing (or null) is
read as empty, and names that the record does not have are skipped.

A `Codec` carries the proof that what it writes it reads back, and so do the `Fields` of a record,
which are put together field by field (`Fields.and`).  All that has to be checked is that no two of
them share a name.

Two records may be written the same way.  `Codec.Mirrors` says so; then either can be read from what
the other wrote.
-/

set_option autoImplicit false

/-- A way to write a value, and to read back what was written. -/
structure Codec (α : Type) where
  enc : α → JsonValue
  dec : JsonValue → Option α
  law : ∀ a, dec (enc a) = some a
  enc_ne_null : ∀ a, enc a ≠ .null

namespace Codec

variable {α β : Type}

def string : Codec String where
  enc := .str
  dec
    | .str s => some s
    | _ => none
  law _ := rfl
  enc_ne_null := by simp

def int : Codec Int where
  enc := .num
  dec
    | .num n => some n
    | _ => none
  law _ := rfl
  enc_ne_null := by simp

def bool : Codec Bool where
  enc := .bool
  dec
    | .bool b => some b
    | _ => none
  law _ := rfl
  enc_ne_null := by simp

/-- A map of anything, as the list of its entries. -/
def entries : Codec (List (String × JsonValue)) where
  enc := .obj
  dec
    | .obj fields => some fields
    | _ => none
  law _ := rfl
  enc_ne_null := by simp

theorem mapM_enc (c : Codec α) (as : List α) : (as.map c.enc).mapM c.dec = some as := by
  induction as with
  | nil => rfl
  | cons a as ih => simp [c.law, ih]

def list (c : Codec α) : Codec (List α) where
  enc as := .arr (as.map c.enc)
  dec
    | .arr items => items.mapM c.dec
    | _ => none
  law := c.mapM_enc
  enc_ne_null := by simp

@[simp] theorem enc_string : string.enc = JsonValue.str := rfl

@[simp] theorem enc_int : int.enc = JsonValue.num := rfl

@[simp] theorem enc_list (c : Codec α) (as : List α) : c.list.enc as = .arr (as.map c.enc) := rfl

/-- The second codec writes `f a` as the first writes `a`. -/
def Mirrors (c : Codec α) (c' : Codec β) (f : α → β) : Prop := ∀ a, c'.enc (f a) = c.enc a

variable {c : Codec α} {c' : Codec β} {f : α → β}

theorem Mirrors.list (h : Mirrors c c' f) : Mirrors c.list c'.list (List.map f) := by
  intro as
  simp only [Codec.list, List.map_map, JsonValue.arr.injEq]
  exact List.map_congr_left fun a _ ↦ h a

end Codec

/-! ## Fields -/

/-- Some of the fields of a record.  What they read depends only on their own names. -/
structure Fields (α : Type) where
  keys : List String
  enc : α → List (String × JsonValue)
  dec : (String → Option JsonValue) → Option α
  keys_enc : ∀ a, ∀ e ∈ enc a, e.1 ∈ keys
  dec_congr : ∀ g g', (∀ k ∈ keys, g k = g' k) → dec g = dec g'
  law : ∀ a, dec (fun k ↦ (enc a).lookup k) = some a

namespace Fields

variable {α β : Type}

/-- A value that is there, or one that stands for it. -/
def readOr (c : Codec α) (zero : α) : Option JsonValue → Option α
  | none => some zero
  | some .null => some zero
  | some v => c.dec v

theorem readOr_enc (c : Codec α) (zero a : α) : readOr c zero (some (c.enc a)) = some a := by
  rw [readOr]
  · exact c.law a
  · exact c.enc_ne_null a

/-- A field. -/
def field (k : String) (c : Codec α) (zero : α) : Fields α where
  keys := [k]
  enc a := [(k, c.enc a)]
  dec g := readOr c zero (g k)
  keys_enc := by simp
  dec_congr g g' h := by rw [h k (List.mem_singleton.mpr rfl)]
  law a := by
    simp only [List.lookup_cons_self]
    exact readOr_enc c zero a

/-- A field with `omitempty`. -/
def omitEmpty (k : String) (c : Codec α) (zero : α) (isEmpty : α → Bool)
    (h : ∀ a, isEmpty a = true → a = zero) : Fields α where
  keys := [k]
  enc a := if isEmpty a then [] else [(k, c.enc a)]
  dec g := readOr c zero (g k)
  keys_enc := by
    intro a e he
    split at he
    · cases he
    · simp_all
  dec_congr g g' h := by rw [h k (List.mem_singleton.mpr rfl)]
  law a := by
    split
    · rename_i hempty
      rw [h a hempty]
      rfl
    · simp only [List.lookup_cons_self]
      exact readOr_enc c zero a

/-- A text, a number or a list, with `omitempty`. -/
def omitString (k : String) : Fields String := omitEmpty k .string "" (· == "") (by simp)

def omitInt (k : String) : Fields Int := omitEmpty k .int 0 (· == 0) (by simp)

def omitList (k : String) (c : Codec (List α)) : Fields (List α) :=
  omitEmpty k c [] List.isEmpty (by simp)

/-- A field that is a pointer, with `omitempty`. -/
def opt (k : String) (c : Codec α) : Fields (Option α) where
  keys := [k]
  enc
    | none => []
    | some a => [(k, c.enc a)]
  dec g :=
    match g k with
    | none => some none
    | some .null => some none
    | some v => (c.dec v).map some
  keys_enc := by
    intro a e he
    cases a with
    | none => cases he
    | some a => simp_all
  dec_congr g g' h := by rw [h k (List.mem_singleton.mpr rfl)]
  law a := by
    cases a with
    | none => rfl
    | some a =>
      simp only [List.lookup_cons_self]
      split
      · rename_i h
        cases h
      · rename_i h
        exact absurd (Option.some.inj h) (c.enc_ne_null a)
      · rename_i v _ h
        rw [← Option.some.inj h, c.law]
        rfl

/-- A pointer that was written by a codec may be read by another. -/
theorem opt_dec {c : Codec α} {c' : Codec β} {f : α → β} (h : ∀ a, c'.dec (c.enc a) = some (f a))
    {k : String} {look : String → Option JsonValue} {a : Option α}
    (hlook : look k = ((opt k c).enc a).lookup k) : (opt k c').dec look = some (a.map f) := by
  cases a with
  | none =>
    have hnone : look k = none := hlook
    simp [opt, hnone]
  | some a =>
    have hsome : look k = some (c.enc a) := hlook.trans List.lookup_cons_self
    simp only [opt, hsome]
    split
    · rename_i hnone
      cases hnone
    · rename_i hnull
      exact absurd (Option.some.inj hnull) (c.enc_ne_null a)
    · rename_i v _ heq
      rw [← Option.some.inj heq, h a]
      rfl

/-- A field that is kept as it is, with `omitempty`. -/
def raw (k : String) : Fields (Option JsonValue) where
  keys := [k]
  enc
    | none => []
    | some v => [(k, v)]
  dec g := some (g k)
  keys_enc := by
    intro a e he
    cases a with
    | none => cases he
    | some a => simp_all
  dec_congr g g' h := by rw [h k (List.mem_singleton.mpr rfl)]
  law a := by
    cases a with
    | none => rfl
    | some v => simp

/-- **What fields read**, when their own names are as they wrote them. -/
theorem dec_of_agree (F : Fields α) {g : String → Option JsonValue} {a : α}
    (h : ∀ k ∈ F.keys, g k = (F.enc a).lookup k) : F.dec g = some a := by
  rw [F.dec_congr g _ h]
  exact F.law a

theorem lookup_eq_none {rest : List (String × JsonValue)} {k : String} (h : ∀ e ∈ rest, e.1 ≠ k) :
    rest.lookup k = none := by
  refine List.lookup_eq_none_iff.mpr fun e he ↦ ?_
  simpa using Ne.symm (h e he)

/-- A name that is not among the fields is not in what they write. -/
theorem lookup_enc (F : Fields α) (a : α) {k : String} (h : k ∉ F.keys) :
    (F.enc a).lookup k = none :=
  lookup_eq_none fun e he heq ↦ h (heq ▸ F.keys_enc a e he)

/-- Fields with other names come after, or before. -/
theorem dec_append_left (F : Fields α) (a : α) (rest : List (String × JsonValue))
    (h : ∀ e ∈ rest, e.1 ∉ F.keys) : F.dec (fun k ↦ (F.enc a ++ rest).lookup k) = some a := by
  refine F.dec_of_agree fun k hk ↦ ?_
  rw [List.lookup_append, lookup_eq_none fun e he heq ↦ h e he (heq ▸ hk), Option.or_none]

theorem dec_append_right (F : Fields α) (a : α) (rest : List (String × JsonValue))
    (h : ∀ e ∈ rest, e.1 ∉ F.keys) : F.dec (fun k ↦ (rest ++ F.enc a).lookup k) = some a := by
  refine F.dec_of_agree fun k hk ↦ ?_
  rw [List.lookup_append, lookup_eq_none fun e he heq ↦ h e he (heq ▸ hk), Option.none_or]

/-- **Fields and more fields.**  No name may occur twice. -/
def and (F : Fields α) (G : Fields β) (h : ∀ k ∈ F.keys, k ∉ G.keys := by decide) :
    Fields (α × β) where
  keys := F.keys ++ G.keys
  enc a := F.enc a.1 ++ G.enc a.2
  dec g := (F.dec g).bind fun a ↦ (G.dec g).map fun b ↦ (a, b)
  keys_enc := by
    intro a e he
    rcases List.mem_append.mp he with he | he
    · exact List.mem_append_left _ (F.keys_enc a.1 e he)
    · exact List.mem_append_right _ (G.keys_enc a.2 e he)
  dec_congr g g' hg := by
    rw [F.dec_congr g g' fun k hk ↦ hg k (List.mem_append_left _ hk),
      G.dec_congr g g' fun k hk ↦ hg k (List.mem_append_right _ hk)]
  law a := by
    have hF := F.dec_append_left a.1 (G.enc a.2) fun e he hk ↦ h e.1 hk (G.keys_enc a.2 e he)
    have hG := G.dec_append_right a.2 (F.enc a.1) fun e he hk ↦ h e.1 (F.keys_enc a.1 e he) hk
    simp only [hF, hG]
    rfl

theorem dec_and {F : Fields α} {G : Fields β} {h : ∀ k ∈ F.keys, k ∉ G.keys}
    {g : String → Option JsonValue} {a : α} {b : β} (hF : F.dec g = some a)
    (hG : G.dec g = some b) : (F.and G h).dec g = some (a, b) := by
  simp only [Fields.and, hF, hG, Option.bind_some, Option.map_some]

/-- The fields of a record, by what it is made of. -/
def map (F : Fields α) (f : α → β) (g : β → α) (h : ∀ b, f (g b) = b) : Fields β where
  keys := F.keys
  enc b := F.enc (g b)
  dec look := (F.dec look).map f
  keys_enc b := F.keys_enc (g b)
  dec_congr look look' hlook := by rw [F.dec_congr look look' hlook]
  law b := by
    rw [F.law, Option.map_some, h]

/-- **The record.** -/
def record (F : Fields α) : Codec α where
  enc a := .obj (F.enc a)
  dec
    | .obj fields => F.dec fun k ↦ fields.lookup k
    | _ => none
  law := F.law
  enc_ne_null := by simp

/-! ### What is written -/

@[simp] theorem enc_field (k : String) (c : Codec α) (zero a : α) :
    (field k c zero).enc a = [(k, c.enc a)] := rfl

@[simp] theorem enc_omitString (k s : String) : (omitString k).enc s = if s = "" then []
    else [(k, .str s)] := by
  simp [omitString, omitEmpty, Codec.string]

@[simp] theorem enc_omitInt (k : String) (n : Int) : (omitInt k).enc n = if n = 0 then []
    else [(k, .num n)] := by
  simp [omitInt, omitEmpty, Codec.int]

@[simp] theorem enc_omitList (k : String) (c : Codec (List α)) (as : List α) :
    (omitList k c).enc as = if as.isEmpty then [] else [(k, c.enc as)] := rfl

@[simp] theorem enc_opt (k : String) (c : Codec α) (a : Option α) :
    (opt k c).enc a = (a.map fun a ↦ (k, c.enc a)).toList := by
  cases a <;> rfl

@[simp] theorem enc_and (F : Fields α) (G : Fields β) (h : ∀ k ∈ F.keys, k ∉ G.keys) (a : α × β) :
    (F.and G h).enc a = F.enc a.1 ++ G.enc a.2 := rfl

@[simp] theorem enc_map (F : Fields α) (f : α → β) (g : β → α) (h : ∀ b, f (g b) = b) (b : β) :
    (F.map f g h).enc b = F.enc (g b) := rfl

@[simp] theorem enc_record (F : Fields α) (a : α) : F.record.enc a = .obj (F.enc a) := rfl

end Fields
