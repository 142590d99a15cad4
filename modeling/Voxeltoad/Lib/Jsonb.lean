import Mathlib.Data.List.Forall2
import Mathlib.Data.List.Sort
import Mathlib.Data.Prod.Lex
import Mathlib.Data.String.Basic
import Voxeltoad.Lib.Agree
import Voxeltoad.Lib.Unmarshal

/-!
# Documents in a database

A column of type `jsonb` does not keep the text of a document.  Of the members of a name it keeps
the last one, it puts the members of an object in an order of its own, and it writes numbers in its
own way; a text with a null character is refused (`Jsonb.store`).

What a program writes, stores and reads again need not be what it wrote.  `Jsonb.roundTrip` is what
comes of it.  A codec whose round trips lose nothing is `Exact`; one that loses something only once
is `Settled`.  A record is read from the fields that were written, each one by itself:
`Jsonb.field_eq`.
-/

set_option autoImplicit false

open Assoc (collect Keyed values)
open Unmarshal (Reader)

namespace Jsonb

/-! ## Storing -/

/-- How numbers are kept.  `none` is a number that is out of range. -/
structure Numeric where
  write : JsonNumber → Option JsonNumber
  /-- An integer stays as it is. -/
  write_int : ∀ {n : Int} {m : JsonNumber}, write (.int n) = some m → m = .int n

/-- The order of the members: the shorter names first. -/
def rank (k : String) : ℕ ×ₗ String := toLex (k.utf8ByteSize, k)

/-- The members of an object, each name once, in order. -/
def normal {α : Type} (ms : List (String × α)) : List (String × α) :=
  (collect ms).insertionSort fun m m' ↦ rank m.1 ≤ rank m'.1

/-- There is a null character. -/
def hasNull (s : String) : Bool := s.toList.any fun c ↦ c.toNat = 0

variable (num : Numeric)

mutual

/-- **The document that is kept.** -/
def store : JsonValue → Option JsonValue
  | .null => some .null
  | .bool b => some (.bool b)
  | .num n => (num.write (.int n)).map JsonNumber.json
  | .frac x => (num.write (.frac x)).map JsonNumber.json
  | .str s => if hasNull s then none else some (.str s)
  | .arr vs => (storeItems vs).map .arr
  | .obj ms => (storeMembers ms).map fun ms' ↦ .obj (normal ms')

def storeItems : List JsonValue → Option (List JsonValue)
  | [] => some []
  | v :: vs => do
    let v' ← store v
    let vs' ← storeItems vs
    return v' :: vs'

def storeMembers : List (String × JsonValue) → Option (List (String × JsonValue))
  | [] => some []
  | (k, v) :: ms => do
    if hasNull k then none
    else
      let v' ← store v
      let ms' ← storeMembers ms
      return (k, v') :: ms'

end

variable {num}

/-- The partner of an element on the right. -/
theorem exists_of_forall₂_mem {α β : Type} {R : α → β → Prop} {as : List α} {bs : List β}
    (h : List.Forall₂ R as bs) {b : β} (hb : b ∈ bs) : ∃ a ∈ as, R a b := by
  induction h with
  | nil => exact absurd hb List.not_mem_nil
  | @cons a _ _ _ hab _ ih =>
    rcases List.mem_cons.mp hb with rfl | hb
    · exact ⟨a, List.mem_cons_self .., hab⟩
    · obtain ⟨a', ha', hab'⟩ := ih hb
      exact ⟨a', List.mem_cons_of_mem _ ha', hab'⟩

/-- Two steps, one after the other. -/
theorem exists_forall₂_iff {α β γ : Type} {R : α → β → Prop} {S : β → γ → Prop} {as : List α}
    {cs : List γ} :
    (∃ bs, List.Forall₂ R as bs ∧ List.Forall₂ S bs cs) ↔
      List.Forall₂ (fun a c ↦ ∃ b, R a b ∧ S b c) as cs := by
  constructor
  · rintro ⟨bs, has, hcs⟩
    induction has generalizing cs with
    | nil =>
      cases hcs
      exact .nil
    | cons hab _ ih =>
      obtain ⟨c, cs, hbc, hcs', rfl⟩ := List.forall₂_cons_left_iff.mp hcs
      exact .cons ⟨_, hab, hbc⟩ (ih hcs')
  · intro h
    induction h with
    | nil => exact ⟨[], .nil, .nil⟩
    | cons hac _ ih =>
      obtain ⟨b, hab, hbc⟩ := hac
      obtain ⟨bs, has, hcs⟩ := ih
      exact ⟨b :: bs, .cons hab has, .cons hbc hcs⟩

theorem storeItems_eq_some_iff {vs vs' : List JsonValue} :
    storeItems num vs = some vs' ↔ List.Forall₂ (fun v v' ↦ store num v = some v') vs vs' := by
  induction vs generalizing vs' with
  | nil => simp [storeItems, eq_comm]
  | cons v vs ih =>
    simp only [storeItems, Option.bind_eq_bind, Option.bind_eq_some_iff, Option.pure_def,
      Option.some_inj, List.forall₂_cons_left_iff, ih]
    constructor
    · rintro ⟨v', hv', ws, hws, rfl⟩
      exact ⟨v', ws, hv', hws, rfl⟩
    · rintro ⟨v', ws, hv', hws, rfl⟩
      exact ⟨v', hv', ws, hws, rfl⟩

/-- A member is kept under its name. -/
def KeptAs (num : Numeric) (m m' : String × JsonValue) : Prop :=
  hasNull m.1 = false ∧ m'.1 = m.1 ∧ store num m.2 = some m'.2

theorem storeMembers_eq_some_iff {ms ms' : List (String × JsonValue)} :
    storeMembers num ms = some ms' ↔ List.Forall₂ (KeptAs num) ms ms' := by
  induction ms generalizing ms' with
  | nil => simp [storeMembers, eq_comm]
  | cons m ms ih =>
    obtain ⟨k, v⟩ := m
    rw [List.forall₂_cons_left_iff]
    cases hnull : hasNull k with
    | true => simp [storeMembers, KeptAs, hnull]
    | false =>
      simp only [storeMembers, hnull, Bool.false_eq_true, if_false, Option.bind_eq_bind,
        Option.bind_eq_some_iff, Option.pure_def, Option.some_inj, ih, KeptAs]
      constructor
      · rintro ⟨v', hv', ms', hms', rfl⟩
        exact ⟨(k, v'), ms', ⟨trivial, rfl, hv'⟩, hms', rfl⟩
      · rintro ⟨⟨k', v'⟩, ms', ⟨-, rfl, hv'⟩, hms', rfl⟩
        exact ⟨v', hv', ms', hms', rfl⟩

theorem keys_of_kept {ms ms' : List (String × JsonValue)} (h : List.Forall₂ (KeptAs num) ms ms') :
    ms'.map Prod.fst = ms.map Prod.fst := by
  induction h with
  | nil => rfl
  | cons hm _ ih => rw [List.map_cons, List.map_cons, hm.2.1, ih]

theorem mem_of_kept {ms ms' : List (String × JsonValue)}
    (h : List.Forall₂ (KeptAs num) ms ms') {k : String} {v : JsonValue} (hkv : (k, v) ∈ ms) :
    ∃ v', store num v = some v' ∧ (k, v') ∈ ms' := by
  induction h with
  | nil => exact absurd hkv List.not_mem_nil
  | @cons m m' _ _ hm _ ih =>
    rcases List.mem_cons.mp hkv with rfl | hkv
    · exact ⟨m'.2, hm.2.2, List.mem_cons.mpr (.inl (Prod.ext hm.2.1.symm rfl))⟩
    · obtain ⟨v', hv', hin⟩ := ih hkv
      exact ⟨v', hv', List.mem_cons_of_mem _ hin⟩

/-! ### The order of the members -/

section Normal

variable {α : Type} {ms ms' : List (String × α)}

theorem perm_normal (ms : List (String × α)) : (normal ms).Perm (collect ms) :=
  List.perm_insertionSort ..

theorem keyed_normal (ms : List (String × α)) : Keyed (normal ms) :=
  ((perm_normal ms).map Prod.fst).nodup_iff.mpr (Assoc.keyed_collect ms)

theorem pairwise_normal (ms : List (String × α)) :
    (normal ms).Pairwise fun m m' ↦ rank m.1 ≤ rank m'.1 :=
  List.pairwise_insertionSort ..

theorem lookup_normal (k : String) (ms : List (String × α)) :
    (normal ms).lookup k = (values k ms).getLast? := by
  rw [(Assoc.keyed_collect ms).lookup_perm (perm_normal ms), Assoc.lookup_collect]

theorem rank_injective : Function.Injective rank :=
  fun _ _ h ↦ congrArg Prod.snd (toLex.injective h)

/-- A name that occurs once is written once. -/
theorem collect_of_keyed (h : Keyed ms) : collect ms = ms := by
  suffices hall : ∀ front : List (String × α), Keyed (front ++ ms) →
      ms.foldl (fun m e ↦ Assoc.put e.1 e.2 m) front = front ++ ms from hall [] h
  clear h
  induction ms with
  | nil => exact fun front _ ↦ (List.append_nil front).symm
  | cons m ms ih =>
    intro front h
    have hput : ∀ l : List (String × α), m.1 ∉ l.map Prod.fst → Assoc.put m.1 m.2 l = l ++ [m] := by
      intro l hl
      induction l with
      | nil => rfl
      | cons e l ih =>
        obtain ⟨he, hl⟩ := not_or.mp (mt List.mem_cons.mpr hl)
        rw [Assoc.put, if_neg (Ne.symm he), ih hl]
        rfl
    have hfront : m.1 ∉ front.map Prod.fst := by
      rw [Keyed, List.map_append, List.map_cons, List.nodup_append] at h
      exact fun hin ↦ h.2.2 _ hin _ (List.mem_cons_self ..) rfl
    rw [List.append_cons] at h ⊢
    rw [List.foldl_cons, hput front hfront]
    exact ih _ h

/-- **The members determine their order.** -/
theorem normal_eq_of_perm (hkeyed : Keyed ms)
    (hsorted : ms.Pairwise fun m m' ↦ rank m.1 ≤ rank m'.1) (hperm : ms'.Perm ms) :
    normal ms' = ms := by
  have hkeyed' : Keyed ms' := (hperm.map Prod.fst).nodup_iff.mpr hkeyed
  have hall := (perm_normal ms').trans (collect_of_keyed hkeyed' ▸ hperm)
  refine hall.eq_of_pairwise (fun m m' hm hm' hle hge ↦ ?_) (pairwise_normal ms') hsorted
  have hkey : m.1 = m'.1 := rank_injective (le_antisymm hle hge)
  exact List.inj_on_of_nodup_map hkeyed (hall.subset hm) hm' hkey

end Normal

/-! ## Round trips -/

section RoundTrips

variable {α : Type} {write : α → JsonValue} {read : Reader α} {zero : α}

/-- What is written, stored, and read again. -/
def roundTrip (num : Numeric) (write : α → JsonValue) (read : Reader α) (zero a : α) : Option α :=
  (store num (write a)).bind (read zero)

/-- Nothing gets lost. -/
def Exact (num : Numeric) (write : α → JsonValue) (read : Reader α) (zero : α) : Prop :=
  ∀ a b, roundTrip num write read zero a = some b → b = a

/-- What gets lost gets lost the first time. -/
def Settled (num : Numeric) (write : α → JsonValue) (read : Reader α) (zero : α) : Prop :=
  ∀ a b, roundTrip num write read zero a = some b → roundTrip num write read zero b = some b

theorem Exact.settled (h : Exact num write read zero) : Settled num write read zero := by
  intro a b hab
  obtain rfl := h a b hab
  exact hab

theorem exact_string : Exact num .str Unmarshal.string "" := by
  intro s t h
  obtain ⟨v, hv, ht⟩ := Option.bind_eq_some_iff.mp h
  rw [store] at hv
  split at hv
  · cases hv
  · cases hv
    exact (Option.some.inj ht).symm

/-- A text that can be stored comes back. -/
theorem roundTrip_string {s : String} (h : (store num (.str s)).isSome) :
    roundTrip num .str Unmarshal.string "" s = some s := by
  obtain ⟨v, hv⟩ := Option.isSome_iff_exists.mp h
  rw [roundTrip, hv]
  rw [store] at hv
  split at hv
  · cases hv
  · cases hv
    rfl

theorem exact_bool : Exact num .bool Unmarshal.bool false :=
  fun _ _ h ↦ (Option.some.inj h).symm

theorem exact_int : Exact num .num Unmarshal.int 0 := by
  intro n m h
  obtain ⟨v, hv, hm⟩ := Option.bind_eq_some_iff.mp h
  rw [store, Option.map_eq_some_iff] at hv
  obtain ⟨k, hk, rfl⟩ := hv
  rw [num.write_int hk, JsonNumber.json, Unmarshal.int] at hm
  split at hm
  · exact (Option.some.inj hm).symm
  · cases hm

/-- A list comes back item by item. -/
theorem roundTrip_slice {as bs : List α} :
    roundTrip num (fun as ↦ .arr (as.map write)) (Unmarshal.slice read zero) [] as = some bs ↔
      List.Forall₂ (fun a b ↦ roundTrip num write read zero a = some b) as bs := by
  have hlist :
      ∀ as : List α,
      roundTrip num (fun as ↦ .arr (as.map write)) (Unmarshal.slice read zero) [] as =
      (storeItems num (as.map write)).bind (Unmarshal.items read zero []) := by
    intro as
    rw [roundTrip, store, Option.bind_map]
    rfl
  rw [hlist]
  induction as generalizing bs with
  | nil => simp [storeItems, Unmarshal.items, eq_comm]
  | cons a as ih =>
    rw [List.forall₂_cons_left_iff, List.map_cons, storeItems]
    simp only [Option.bind_eq_bind, Option.bind_eq_some_iff, Option.pure_def, Option.some_inj]
    constructor
    · rintro ⟨vs, ⟨v, hv, vs', hvs', rfl⟩, hread⟩
      rw [Unmarshal.items] at hread
      simp only [Option.bind_eq_bind, Option.bind_eq_some_iff, Option.pure_def,
        Option.some_inj] at hread
      obtain ⟨b, hb, bs, hbs, rfl⟩ := hread
      exact ⟨b, bs, Option.bind_eq_some_iff.mpr ⟨v, hv, hb⟩,
        ih.mp (Option.bind_eq_some_iff.mpr ⟨vs', hvs', hbs⟩), rfl⟩
    · rintro ⟨b, bs, hb, hbs, rfl⟩
      obtain ⟨v, hv, hb⟩ := Option.bind_eq_some_iff.mp hb
      obtain ⟨vs', hvs', hbs⟩ := Option.bind_eq_some_iff.mp (ih.mpr hbs)
      refine ⟨v :: vs', ⟨v, hv, vs', hvs', rfl⟩, ?_⟩
      rw [Unmarshal.items]
      simp only [Option.bind_eq_bind, Option.bind_eq_some_iff, Option.pure_def, Option.some_inj]
      exact ⟨b, hb, bs, hbs, rfl⟩

theorem Exact.slice (h : Exact num write read zero) :
    Exact num (fun as ↦ .arr (as.map write)) (Unmarshal.slice read zero) [] := by
  intro as bs hab
  rw [roundTrip_slice] at hab
  induction hab with
  | nil => rfl
  | cons ha _ ih => rw [h _ _ ha, ih]

/-- The items of a list that came back come back again. -/
theorem Settled.of_mem (h : Settled num write read zero) {as bs : List α}
    (hab : roundTrip num (fun as ↦ .arr (as.map write)) (Unmarshal.slice read zero)
      [] as = some bs) :
    ∀ b ∈ bs, roundTrip num write read zero b = some b := by
  rw [roundTrip_slice] at hab
  induction hab with
  | nil => exact fun _ hb ↦ absurd hb List.not_mem_nil
  | cons ha _ ih => exact List.forall_mem_cons.mpr ⟨h _ _ ha, ih⟩

end RoundTrips

/-! ## Records -/

/-- A field of a record.  With `omitempty` it is left out when it is empty. -/
structure Field where
  name : String
  omitted : Bool
  value : JsonValue

/-- The members that are written. -/
def encodeFields (fields : List Field) : List (String × JsonValue) :=
  (fields.filter fun f ↦ !f.omitted).map fun f ↦ (f.name, f.value)

@[simp] theorem encodeFields_nil : encodeFields [] = [] := rfl

@[simp] theorem encodeFields_cons (f : Field) (fs : List Field) :
    encodeFields (f :: fs) =
      (if f.omitted then [] else [(f.name, f.value)]) ++ encodeFields fs := by
  cases h : f.omitted <;> simp [encodeFields, h]

section Records

variable {fields : List Field} {names : List String} {ms : List (String × JsonValue)}

/-- What was kept of the members of a record. -/
structure Kept (num : Numeric) (fields : List Field) (ms : List (String × JsonValue)) : Prop where
  exact : Unmarshal.Exact (fields.map Field.name) ms
  /-- A member is kept unless it was left out. -/
  lookup_eq : ∀ f ∈ fields, ms.lookup f.name = if f.omitted then none else store num f.value
  isSome : ∀ f ∈ fields, f.omitted = false → (store num f.value).isSome

theorem keyed_encodeFields (hnames : (fields.map Field.name).Nodup) :
    Keyed (encodeFields fields) := by
  rw [Keyed, encodeFields, List.map_map]
  exact (List.filter_sublist.map _).nodup hnames

theorem kept_of_store (hnames : (fields.map Field.name).Nodup) {v : JsonValue}
    (h : store num (.obj (encodeFields fields)) = some v) :
    ∃ ms, v = .obj ms ∧ Kept num fields ms := by
  rw [store, Option.map_eq_some_iff] at h
  obtain ⟨ms, hms, rfl⟩ := h
  rw [storeMembers_eq_some_iff] at hms
  have hkeys : ms.map Prod.fst = (encodeFields fields).map Prod.fst := keys_of_kept hms
  have hkeyed : Keyed ms := by
    rw [Keyed, hkeys]
    exact keyed_encodeFields hnames
  have hlookup : ∀ k, (normal ms).lookup k = ms.lookup k := by
    intro k
    rw [lookup_normal, hkeyed.values_eq]
    cases ms.lookup k <;> rfl
  refine ⟨normal ms, rfl, ⟨keyed_normal ms, fun m hm name hname ↦ ?_⟩, fun f hf ↦ ?_,
    fun f hf homitted ↦ ?_⟩
  · have hin : m.1 ∈ ms.map Prod.fst := by
      have := List.mem_map_of_mem (f := Prod.fst) ((perm_normal ms).subset hm)
      rwa [collect_of_keyed hkeyed] at this
    rw [hkeys, encodeFields, List.map_map] at hin
    have hfield : m.1 ∈ fields.map Field.name := (List.filter_sublist.map _).subset hin
    rw [Unmarshal.resolve_self hfield] at hname
    exact Option.some.inj hname
  · rw [hlookup]
    split
    · rename_i homitted
      rw [← Option.not_isSome_iff_eq_none, Assoc.lookup_isSome_iff, hkeys]
      intro hin
      obtain ⟨m, hm, hname⟩ := List.mem_map.mp hin
      obtain ⟨g, hg, rfl⟩ := List.mem_map.mp hm
      obtain ⟨hg, hkeep⟩ := List.mem_filter.mp hg
      obtain rfl : g = f := List.inj_on_of_nodup_map hnames hg hf hname
      simp [homitted] at hkeep
    · rename_i homitted
      have hin : (f.name, f.value) ∈ encodeFields fields :=
        List.mem_map.mpr ⟨f, List.mem_filter.mpr ⟨hf, by simpa using homitted⟩, rfl⟩
      obtain ⟨v', hv', hin'⟩ := mem_of_kept hms hin
      rw [hv', hkeyed.lookup_eq_some_iff]
      exact hin'
  · have hin : (f.name, f.value) ∈ encodeFields fields :=
      List.mem_map.mpr ⟨f, List.mem_filter.mpr ⟨hf, by simp [homitted]⟩, rfl⟩
    obtain ⟨v', hv', -⟩ := mem_of_kept hms hin
    rw [hv']
    rfl

/-- **A field is read from what was written of it**, or keeps its zero value. -/
theorem Kept.field_eq (h : Kept num fields ms) {f : Field} (hf : f ∈ fields) {α : Type}
    (r : Reader α) (zero : α) : Unmarshal.field r zero (fields.map Field.name) f.name ms =
      if f.omitted then some zero else (store num f.value).bind (r zero) := by
  rw [Unmarshal.field_of_exact r zero h.exact (List.mem_map_of_mem hf), h.lookup_eq f hf]
  split
  · rename_i hnone
    split at hnone
    · rename_i homitted
      rw [if_pos homitted]
    · rename_i homitted
      have hsome := h.isSome f hf (by simpa using homitted)
      rw [hnone] at hsome
      cases hsome
  · rename_i v hsome
    split at hsome
    · cases hsome
    · rename_i homitted
      rw [if_neg homitted, hsome]
      rfl

/-- What comes back is what is read. -/
theorem Kept.roundTrip_eq (h : Kept num fields ms) {α : Type} {write : α → JsonValue} {r : Reader α}
    {zero a x : α} {name : String} {omitted : Bool} (hf : ⟨name, omitted, write a⟩ ∈ fields)
    (hread : Unmarshal.field r zero (fields.map Field.name) name ms = some x)
    (homitted : omitted = false) : roundTrip num write r zero a = some x := by
  rw [h.field_eq hf, homitted] at hread
  exact hread

/-- A field that comes back is read. -/
theorem Kept.field_eq_some (h : Kept num fields ms) {α : Type} {write : α → JsonValue}
    {r : Reader α} {zero a : α} {name : String} {omitted : Bool}
    (hf : ⟨name, omitted, write a⟩ ∈ fields) (hempty : omitted = true → a = zero)
    (hback : omitted = false → roundTrip num write r zero a = some a) :
    Unmarshal.field r zero (fields.map Field.name) name ms = some a := by
  rw [h.field_eq hf]
  split
  · rename_i homitted
    rw [hempty homitted]
  · rename_i homitted
    exact hback (Bool.eq_false_of_not_eq_true homitted)

/-- A record can be stored if each of its fields can. -/
theorem store_encodeFields (hnull : ∀ f ∈ fields, hasNull f.name = false)
    (h : ∀ f ∈ fields, f.omitted = false → (store num f.value).isSome) :
    ∃ v, store num (.obj (encodeFields fields)) = some v := by
  have hmembers : ∃ ms, List.Forall₂ (KeptAs num) (encodeFields fields) ms := by
    induction fields with
    | nil => exact ⟨[], .nil⟩
    | cons f fields ih =>
      obtain ⟨hnull, hnulls⟩ := List.forall_mem_cons.mp hnull
      obtain ⟨hf, hfs⟩ := List.forall_mem_cons.mp h
      obtain ⟨ms, hms⟩ := ih hnulls hfs
      cases homitted : f.omitted with
      | true =>
        refine ⟨ms, ?_⟩
        rwa [encodeFields, List.filter_cons_of_neg (by simp [homitted])]
      | false =>
        obtain ⟨v, hv⟩ := Option.isSome_iff_exists.mp (hf homitted)
        refine ⟨(f.name, v) :: ms, ?_⟩
        rw [encodeFields, List.filter_cons_of_pos (by simp [homitted])]
        exact .cons ⟨hnull, rfl, hv⟩ hms
  obtain ⟨ms, hms⟩ := hmembers
  rw [store, storeMembers_eq_some_iff.mpr hms]
  exact ⟨_, rfl⟩

/-- What was read of a field is what was written, when nothing of it gets lost. -/
theorem Kept.read_eq (h : Kept num fields ms) {α : Type} {write : α → JsonValue} {r : Reader α}
    {zero a x : α} (hexact : Exact num write r zero) {name : String} {omitted : Bool}
    (hf : ⟨name, omitted, write a⟩ ∈ fields) (hempty : omitted = true → a = zero)
    (hread : Unmarshal.field r zero (fields.map Field.name) name ms = some x) : x = a := by
  rw [h.field_eq hf] at hread
  split at hread
  · rename_i homitted
    rw [hempty homitted]
    exact (Option.some.inj hread).symm
  · exact hexact a x hread

theorem Kept.read_exact (h : Kept num fields ms) {α : Type} {write : α → JsonValue} {r : Reader α}
    {zero a x : α} (hexact : Exact num write r zero) {name : String}
    (hf : ⟨name, false, write a⟩ ∈ fields)
    (hread : Unmarshal.field r zero (fields.map Field.name) name ms = some x) : x = a :=
  h.read_eq hexact hf Bool.noConfusion hread

/-- The items that were read of a list come back. -/
theorem Kept.mem_slice (h : Kept num fields ms) {α : Type} {write : α → JsonValue}
    {r : Reader α} {zero : α} {as bs : List α} (hsettled : Settled num write r zero) {name : String}
    {omitted : Bool} (hf : ⟨name, omitted, .arr (as.map write)⟩ ∈ fields)
    (hread :
      Unmarshal.field (Unmarshal.slice r zero) [] (fields.map Field.name) name ms = some bs) :
    ∀ b ∈ bs, roundTrip num write r zero b = some b := by
  rw [h.field_eq hf] at hread
  split at hread
  · cases Option.some.inj hread
    exact fun _ hb ↦ absurd hb List.not_mem_nil
  · exact hsettled.of_mem hread

/-- A pointer that is left out when it is nil. -/
theorem Kept.read_pointer (h : Kept num fields ms) {σ : Type}
    {content : σ → List (String × JsonValue)} {r : Reader σ} {zero : σ} {a x : Option σ}
    (hexact : Exact num (fun t ↦ .obj (content t)) r zero) {name : String}
    (hf : ⟨name, a.isNone, .obj (content (a.getD zero))⟩ ∈ fields)
    (hread :
      Unmarshal.field (Unmarshal.pointer r zero) none (fields.map Field.name) name ms = some x) :
    x = a ∧ ∀ t ∈ a, roundTrip num (fun t ↦ .obj (content t)) r zero t = some t := by
  rw [h.field_eq hf] at hread
  rcases a with _ | t
  · exact ⟨(Option.some.inj hread).symm, nofun⟩
  · obtain ⟨v, hv, hx⟩ := Option.bind_eq_some_iff.mp hread
    have hobj : ∃ ms, v = .obj ms := by
      rw [Option.getD_some, store, Option.map_eq_some_iff] at hv
      obtain ⟨ms, -, rfl⟩ := hv
      exact ⟨_, rfl⟩
    obtain ⟨ms, rfl⟩ := hobj
    obtain ⟨u, hu, rfl⟩ := Option.map_eq_some_iff.mp hx
    have htu := Option.bind_eq_some_iff.mpr ⟨_, hv, hu⟩
    obtain rfl := hexact t u htu
    refine ⟨rfl, fun t ht ↦ ?_⟩
    cases ht
    exact htu

/-- **A record comes back as it was**, if each of its fields does. -/
theorem exact_record {σ : Type} {fields : σ → List Field}
    {unmarshal : σ → List (String × JsonValue) → Option σ} {zero : σ}
    (hnames : ∀ t, ((fields t).map Field.name).Nodup)
    (h : ∀ t ms u, Kept num (fields t) ms → unmarshal zero ms = some u → u = t) :
    Exact num (fun t ↦ .obj (encodeFields (fields t))) (Unmarshal.record unmarshal) zero := by
  intro t u htu
  obtain ⟨v, hv, hu⟩ := Option.bind_eq_some_iff.mp htu
  obtain ⟨ms, rfl, hkept⟩ := kept_of_store (hnames t) hv
  exact h t ms u hkept hu

end Records

end Jsonb
