import Voxeltoad.Lib.Agree

/-!
# What a record keeps of an object

An object is read into a record, and the record is written as an object again.  Members that the
record has no field for are lost then, and so is what one member writes over another.

A `Slot` is a field as far as this is concerned: the shape of its values, and what must hold of the
values that are read into it, one after the other, for all of it to be there in the end.
`agree_record` puts the fields of a record together: the two objects agree just if every member
without a field is `null` and every field keeps what is read into it (`KeptMembers`).
-/

set_option autoImplicit false

open Assoc (values)

namespace Unmarshal

/-! ## Only the last -/

/-- Only the last of the values says anything. -/
def Once (s : Shape) (vs : List JsonValue) : Prop := ∀ v ∈ vs.dropLast, s.blank v = true

instance (s : Shape) (vs : List JsonValue) : Decidable (Once s vs) :=
  inferInstanceAs (Decidable (∀ v ∈ vs.dropLast, _))

variable {s : Shape} {vs out : List JsonValue}

/-- **A field that is written over.**  It has what the last value says, so that nothing is lost just
if the others say nothing and the last is kept. -/
theorem agreeAll_last (good : JsonValue → Prop) (hone : out.length ≤ 1)
    (hblank : (∀ v ∈ vs.getLast?, s.blank v = true) → out = [])
    (hgood : ∀ v ∈ vs.getLast?, s.blank v = false → Once s vs → (AgreeAll s [v] out ↔ good v)) :
    AgreeAll s (s.said vs) out ↔ Once s vs ∧ ∀ v ∈ vs.getLast?, s.blank v = false → good v := by
  rcases List.eq_nil_or_concat vs with rfl | ⟨init, v, rfl⟩
  · rw [hblank (by simp)]
    simp [Shape.said, Once, AgreeAll.nil]
  have hlast : (init ++ [v]).getLast? = some v := List.getLast?_concat
  have hinit : Once s (init ++ [v]) ↔ s.said init = [] := by
    rw [Once, List.dropLast_concat, Shape.said_eq_nil]
  rw [List.concat_eq_append] at *
  simp only [hlast, Option.mem_some_iff, forall_eq'] at hblank hgood ⊢
  rw [Shape.said_append, Shape.said_cons]
  cases hv : s.blank v with
  | true => simp [hblank hv, agreeAll_nil, hinit, Shape.said]
  | false =>
    by_cases honce : Once s (init ++ [v])
    · rw [hinit.mp honce]
      simpa [honce, Shape.said] using hgood hv honce
    · have hlength : 0 < (s.said init).length := List.length_pos_iff.mpr fun h ↦ honce (hinit.mpr h)
      refine iff_of_false (fun h ↦ ?_) fun h ↦ honce h.1
      have hlen := h.length_eq
      simp only [List.length_append, Bool.false_eq_true, if_false, List.length_singleton] at hlen
      omega

/-! ## Fields -/

/-- A field: the shape of its values, and the values that it keeps. -/
structure Slot where
  shape : Shape
  kept : List JsonValue → Bool

namespace Slot

/-- A field keeps the values that it is to keep, and is not written where there is nothing to
say. -/
structure Holds (slot : Slot) (vs out : List JsonValue) : Prop where
  agree : AgreeAll slot.shape (slot.shape.said vs) (slot.shape.said out) ↔ slot.kept vs = true
  empty : slot.shape.said vs = [] → slot.shape.said out = []

theorem Holds.congr {slot : Slot} {out' : List JsonValue} (h : slot.Holds vs out)
    (hout : slot.shape.said out' = slot.shape.said out) : slot.Holds vs out' :=
  ⟨hout ▸ h.agree, hout ▸ h.empty⟩

/-- A text.  `null` leaves it as it is. -/
def text : Slot := ⟨.text, fun vs ↦ Once .text (Shape.any.said vs)⟩

/-- A field that is kept as it came. -/
def raw : Slot := ⟨.any, fun vs ↦ Once .any vs⟩

end Slot

/-- The shape of a record. -/
def shapeOf (slots : List (String × Slot)) : Shape := .record (slots.map fun p ↦ (p.1, p.2.shape))

/-- Nothing of these members is lost in a record with these fields. -/
def KeptMembers (slots : List (String × Slot)) (ms : List (String × JsonValue)) : Prop :=
  (∀ m ∈ ms, m.1 ∉ slots.map Prod.fst → Shape.any.blank m.2 = true) ∧
    ∀ p ∈ slots, p.2.kept (members (slots.map Prod.fst) p.1 ms) = true

instance (slots : List (String × Slot)) (ms : List (String × JsonValue)) :
    Decidable (KeptMembers slots ms) :=
  inferInstanceAs (Decidable (_ ∧ _))

namespace Slot

/-- A record in a record.  All objects that are read into it write into one record. -/
def record (slots : List (String × Slot)) : Slot where
  shape := shapeOf slots
  kept vs := ((shapeOf slots).said vs).length ≤ 1 ∧ KeptMembers slots (vs.flatMap JsonValue.members)

/-- What is kept of a list of records. -/
def KeptItems (slots : List (String × Slot)) (v : JsonValue) : Prop :=
  ∀ w ∈ v.elements, w = .obj w.members ∧ KeptMembers slots w.members

instance (v : JsonValue) : Decidable (v = .obj v.members) :=
  match v with
  | .obj _ => isTrue rfl
  | .null | .bool _ | .num _ | .frac _ | .str _ | .arr _ => isFalse nofun

instance (slots : List (String × Slot)) (v : JsonValue) : Decidable (KeptItems slots v) :=
  inferInstanceAs (Decidable (∀ w ∈ v.elements, _))

/-- A list of records. -/
def list (slots : List (String × Slot)) : Slot where
  shape := .list (shapeOf slots)
  kept vs := Once (.list (shapeOf slots)) vs ∧ ∀ v ∈ vs.getLast?, KeptItems slots v

end Slot

/-! ### How they are read -/

theorem blank_any_iff {v : JsonValue} : Shape.any.blank v = true ↔ v = .null := by
  cases v <;> simp [Shape.blank]

theorem string_eq_some {t : String} {v : JsonValue} {a : String} (h : string t v = some a) :
    v = .null ∧ a = t ∨ v = .str a := by
  cases v with
  | null => exact .inl ⟨rfl, (Option.some.inj h).symm⟩
  | str b => exact .inr (congrArg JsonValue.str (Option.some.inj h))
  | _ => cases h

/-- A text that is `null` is not read. -/
theorem foldlM_string {t : String} (vs : List JsonValue) :
    vs.foldlM string t = (Shape.any.said vs).foldlM string t := by
  induction vs generalizing t with
  | nil => rfl
  | cons v vs ih =>
    rw [Shape.said_cons]
    split
    · rename_i hv
      rw [blank_any_iff.mp hv]
      exact ih
    · rw [List.singleton_append, List.foldlM_cons, List.foldlM_cons]
      exact bind_congr fun _ ↦ ih

theorem said_text (vs : List JsonValue) :
    Shape.text.said vs = Shape.text.said (Shape.any.said vs) := by
  rw [Shape.said, Shape.said, Shape.said, List.filter_filter]
  refine List.filter_congr fun v _ ↦ ?_
  cases v <;> simp [Shape.blank]

/-- The fold over a list with a last value. -/
theorem foldlM_concat {α : Type} {r : Reader α} {zero a : α} {init : List JsonValue} {v : JsonValue}
    (h : (init ++ [v]).foldlM r zero = some a) :
    ∃ b, init.foldlM r zero = some b ∧ r b v = some a := by
  rw [List.foldlM_append] at h
  obtain ⟨b, hb, h⟩ := Option.bind_eq_some_iff.mp h
  exact ⟨b, hb, by simpa using h⟩

namespace Slot

theorem text_holds {a : String} (h : vs.foldlM string "" = some a) : text.Holds vs [.str a] := by
  have hshape : text.shape = .text := rfl
  have hkept : text.kept vs = true ↔ Once .text (Shape.any.said vs) := decide_eq_true_iff
  have hsaid : Shape.text.said [.str a] = if a = "" then [] else [.str a] := by
    by_cases ha : a = "" <;> simp [Shape.said, Shape.blank, ha]
  have hlast : ∀ v ∈ (Shape.any.said vs).getLast?, v = .str a := by
    intro v hv
    obtain ⟨init, hinit⟩ := List.getLast?_eq_some_iff.mp hv
    rw [foldlM_string, hinit] at h
    obtain ⟨b, -, hb⟩ := foldlM_concat h
    rcases string_eq_some hb with ⟨hnull, -⟩ | heq
    · have hmem : v ∈ Shape.any.said vs :=
        hinit ▸ List.mem_append_right _ (List.mem_singleton_self v)
      simp [Shape.mem_said, hnull] at hmem
    · exact heq
  have hempty : (∀ v ∈ (Shape.any.said vs).getLast?, Shape.text.blank v = true) → a = "" := by
    intro hblank
    cases hv : (Shape.any.said vs).getLast? with
    | none =>
      rw [foldlM_string, List.getLast?_eq_none_iff.mp hv] at h
      exact (Option.some.inj h).symm
    | some v =>
      have hv' := hblank v hv
      rw [hlast v hv] at hv'
      simpa [Shape.blank] using hv'
  have hnil : a = "" → Shape.text.said [.str a] = [] := fun ha ↦ hsaid.trans (if_pos ha)
  constructor
  · rw [hkept, hshape, said_text vs]
    refine (agreeAll_last (fun _ ↦ True) ?_ (fun hblank ↦ hnil (hempty hblank)) ?_).trans ?_
    · rw [hsaid]
      split <;> simp
    · intro v hv hsay _
      rw [hlast v hv] at hsay ⊢
      have ha : a ≠ "" := by simpa [Shape.blank] using hsay
      simp [hsaid, ha, agreeAll_singleton, Agree.str]
    · simp
  · intro hvs
    rw [hshape] at hvs ⊢
    refine hnil (hempty fun v hv ↦ ?_)
    rw [said_text, Shape.said_eq_nil] at hvs
    exact hvs v (List.mem_of_getLast? hv)

/-- The last value as it came. -/
theorem raw_holds (h : Shape.any.said out = Shape.any.said vs.getLast?.toList) :
    raw.Holds vs out := by
  refine Holds.congr (?_ : raw.Holds vs vs.getLast?.toList) h
  have hshape : raw.shape = .any := rfl
  have hkept : raw.kept vs = true ↔ Once .any vs := decide_eq_true_iff
  constructor
  · rw [hshape, hkept]
    refine (agreeAll_last (fun _ ↦ True) ?_ ?_ ?_).trans (by simp)
    · exact (List.length_filter_le ..).trans (by cases vs.getLast? <;> simp)
    · intro hblank
      exact Shape.said_eq_nil.mpr fun v hv ↦ hblank v (Option.mem_toList.mp hv)
    · intro v hv hsay _
      rw [Option.mem_def.mp hv]
      simp [Shape.said, hsay, agreeAll_singleton, Agree.refl]
  · intro hvs
    rw [hshape, Shape.said_eq_nil] at hvs ⊢
    exact fun v hv ↦ hvs v (List.mem_of_getLast? (Option.mem_toList.mp hv))

theorem foldlM_raw {α : Type} (f : JsonValue → α) (zero : α) (vs : List JsonValue) :
    vs.foldlM (fun _ v ↦ some (f v)) zero = some ((vs.getLast?.map f).getD zero) := by
  induction vs generalizing zero with
  | nil => rfl
  | cons v vs ih =>
    rw [List.foldlM_cons, List.getLast?_cons]
    refine (ih (f v)).trans ?_
    cases vs.getLast? <;> rfl

/-- The last value agrees with all of them just if the others say nothing. -/
theorem agreeAll_getLast {out : List JsonValue} (h : out = vs.getLast?.toList) :
    AgreeAll .any (Shape.any.said vs) (Shape.any.said out) ↔ Once .any vs :=
  (raw_holds (congrArg _ h)).agree.trans decide_eq_true_iff

/-- A field whose reader takes a value for what it is. -/
theorem raw_holds_foldlM {α : Type} {f : JsonValue → α} {zero a : α} (w : α → List JsonValue)
    (hzero : Shape.any.said (w zero) = []) (hw : ∀ v, w (f v) = [v])
    (h : vs.foldlM (fun _ v ↦ some (f v)) zero = some a) : raw.Holds vs (w a) := by
  refine raw_holds ?_
  rw [foldlM_raw] at h
  rw [← Option.some.inj h]
  cases hlast : vs.getLast? with
  | none => exact hzero
  | some v => exact congrArg _ (hw v)

end Slot

/-! ## Records -/

section Record

variable {slots : List (String × Slot)} {ms ms' : List (String × JsonValue)}

theorem member_shapeOf_of_not_mem {k : String} (h : k ∉ slots.map Prod.fst) :
    (shapeOf slots).member k = .any := by
  have hnone : (slots.map fun p ↦ (p.1, p.2.shape)).lookup k = none := by
    rw [← Option.not_isSome_iff_eq_none, Assoc.lookup_isSome_iff, List.map_map]
    exact h
  simp [shapeOf, Shape.member, hnone]

theorem member_shapeOf (hnodup : (slots.map Prod.fst).Nodup) {p : String × Slot} (hp : p ∈ slots) :
    (shapeOf slots).member p.1 = p.2.shape := by
  have hkeyed : Assoc.Keyed (slots.map fun p ↦ (p.1, p.2.shape)) := by
    rw [Assoc.Keyed, List.map_map]
    exact hnodup
  have hlookup : (slots.map fun p ↦ (p.1, p.2.shape)).lookup p.1 = some p.2.shape :=
    hkeyed.lookup_eq_some_iff.mpr (List.mem_map_of_mem hp)
  simp [shapeOf, Shape.member, hlookup]

/-- What falls to a field for the case of its name only, is `null`. -/
theorem said_members {names : List String}
    (hother : ∀ m ∈ ms, m.1 ∉ names → Shape.any.blank m.2 = true)
    (s : Shape) {k : String} (hk : k ∈ names) :
    s.said (members names k ms) = s.said (values k ms) := by
  induction ms with
  | nil => rfl
  | cons m ms ih =>
    obtain ⟨hm, hms⟩ := List.forall_mem_cons.mp hother
    rw [members_cons, Assoc.values_cons, Shape.said_append, Shape.said_append, ih hms]
    by_cases hname : m.1 = k
    · rw [if_pos (hname ▸ resolve_self (hname ▸ hk)), if_pos hname]
    rw [if_neg hname]
    split
    · rename_i hresolve
      have hnot : m.1 ∉ names :=
        fun h ↦ hname (Option.some.inj ((resolve_self h).symm.trans hresolve))
      rw [blank_any_iff.mp (hm hnot)]
      simp [Shape.said]
    · rfl

/-- **What a record keeps of an object**, from what its fields keep. -/
theorem agree_record (hnodup : (slots.map Prod.fst).Nodup)
    (hout : ∀ m ∈ ms', m.1 ∈ slots.map Prod.fst)
    (h : ∀ p ∈ slots, p.2.Holds (members (slots.map Prod.fst) p.1 ms) (values p.1 ms')) :
    Agree (shapeOf slots) (.obj ms) (.obj ms') ↔ KeptMembers slots ms := by
  have hother : (∀ k ∉ slots.map Prod.fst, AgreeAll ((shapeOf slots).member k)
      (((shapeOf slots).member k).said (values k ms))
      (((shapeOf slots).member k).said (values k ms'))) ↔
      ∀ m ∈ ms, m.1 ∉ slots.map Prod.fst → Shape.any.blank m.2 = true := by
    have hnil : ∀ k ∉ slots.map Prod.fst, values k ms' = [] := by
      intro k hk
      refine List.eq_nil_iff_forall_not_mem.mpr fun v hv ↦ hk ?_
      exact hout _ (Assoc.mem_values.mp hv)
    constructor
    · intro hagree m hm hnot
      have hm' := hagree m.1 hnot
      rw [hnil _ hnot, member_shapeOf_of_not_mem hnot] at hm'
      exact Shape.said_eq_nil.mp (agreeAll_nil.mp hm') m.2 (Assoc.mem_values.mpr hm)
    · intro hblank k hk
      rw [hnil k hk, member_shapeOf_of_not_mem hk]
      exact agreeAll_nil.mpr
        (Shape.said_eq_nil.mpr fun v hv ↦ hblank (k, v) (Assoc.mem_values.mp hv) hk)
  have hfields : (∀ m ∈ ms, m.1 ∉ slots.map Prod.fst → Shape.any.blank m.2 = true) →
      ∀ p ∈ slots, AgreeAll ((shapeOf slots).member p.1)
      (((shapeOf slots).member p.1).said (values p.1 ms))
        (((shapeOf slots).member p.1).said (values p.1 ms')) ↔
        p.2.kept (members (slots.map Prod.fst) p.1 ms) = true := by
    intro hblank p hp
    rw [← (h p hp).agree, member_shapeOf hnodup hp,
      said_members hblank p.2.shape (List.mem_map_of_mem hp)]
  rw [agree_obj_iff, KeptMembers, ← hother]
  constructor
  · intro hagree
    exact ⟨fun k _ ↦ hagree k,
      fun p hp ↦ (hfields (hother.mp fun k _ ↦ hagree k) p hp).mp (hagree p.1)⟩
  · rintro ⟨hnot, hkept⟩ k
    by_cases hk : k ∈ slots.map Prod.fst
    · obtain ⟨p, hp, rfl⟩ := List.mem_map.mp hk
      exact (hfields (hother.mp hnot) p hp).mpr (hkept p hp)
    · exact hnot k hk

/-- A record is empty where the object says nothing. -/
theorem blank_record (hnodup : (slots.map Prod.fst).Nodup)
    (hout : ∀ m ∈ ms', m.1 ∈ slots.map Prod.fst)
    (h : ∀ p ∈ slots, p.2.Holds (members (slots.map Prod.fst) p.1 ms) (values p.1 ms'))
    (hblank : (shapeOf slots).blank (.obj ms) = true) :
    (shapeOf slots).blank (.obj ms') = true := by
  have hsaid := Shape.blank_obj_iff.mp hblank
  have hother : ∀ m ∈ ms, m.1 ∉ slots.map Prod.fst → Shape.any.blank m.2 = true := by
    intro m hm hnot
    have hm' := hsaid m.1
    rw [← shapeOf, member_shapeOf_of_not_mem hnot, Shape.said_eq_nil] at hm'
    exact hm' m.2 (Assoc.mem_values.mpr hm)
  refine Shape.blank_obj_iff.mpr fun k ↦ ?_
  rw [← shapeOf]
  by_cases hk : k ∈ slots.map Prod.fst
  · obtain ⟨p, hp, rfl⟩ := List.mem_map.mp hk
    have hp' := hsaid p.1
    rw [← shapeOf, member_shapeOf hnodup hp] at hp'
    rw [member_shapeOf hnodup hp]
    exact (h p hp).empty ((said_members hother p.2.shape hk).trans hp')
  · rw [Shape.said_eq_nil]
    exact fun v hv ↦ absurd (hout _ (Assoc.mem_values.mp hv)) hk

end Record

theorem record_eq_some {σ : Type} {read : σ → List (String × JsonValue) → Option σ} {st st' : σ}
    {v : JsonValue} (h : record read st v = some st') :
    v = .null ∧ st' = st ∨ v = .obj v.members ∧ read st v.members = some st' := by
  cases v with
  | null => exact .inl ⟨rfl, (Option.some.inj h).symm⟩
  | obj ms => exact .inr ⟨rfl, h⟩
  | _ => cases h

/-! ### Lists of records -/

section Items

variable {α : Type} {r : Reader α} {zero : α} {w : α → JsonValue} {slots : List (String × Slot)}

/-- An item that is read and written keeps what it must. -/
def HoldsItem (slots : List (String × Slot)) (r : Reader α) (zero : α) (w : α → JsonValue) : Prop :=
  ∀ v a, r zero v = some a →
    (Agree (shapeOf slots) v (w a) ↔ v = .obj v.members ∧ KeptMembers slots v.members)

/-- Items that are objects, from what is kept of one. -/
theorem holdsItem_of {read : α → List (String × JsonValue) → Option α}
    {out : α → List (String × JsonValue)} (h : ∀ ms a, read zero ms = some a →
      (Agree (shapeOf slots) (.obj ms) (.obj (out a)) ↔ KeptMembers slots ms)) :
    HoldsItem slots (record read) zero fun a ↦ .obj (out a) := by
  intro v a ha
  rcases record_eq_some ha with ⟨rfl, -⟩ | ⟨hv, hread⟩
  · exact iff_of_false (fun h ↦ by cases agree_null_iff.mp h) fun h ↦ by cases h.1
  · rw [hv]
    exact (h _ a hread).trans (and_iff_right rfl).symm

theorem items_holds (hitem : HoldsItem slots r zero w) {us : List JsonValue} {as : List α}
    (h : items r zero [] us = some as) :
    as.length = us.length ∧ (AgreeAll (shapeOf slots) us (as.map w) ↔
      ∀ u ∈ us, u = .obj u.members ∧ KeptMembers slots u.members) := by
  rw [agreeAll_iff]
  induction us generalizing as with
  | nil => simp [← Option.some.inj h]
  | cons u us ih =>
    obtain ⟨a, ha, h⟩ := Option.bind_eq_some_iff.mp h
    obtain ⟨rest, hrest, h⟩ := Option.bind_eq_some_iff.mp h
    obtain ⟨hlength, hagree⟩ := ih hrest
    rw [← Option.some.inj h]
    refine ⟨congrArg (· + 1) hlength, ?_⟩
    rw [List.map_cons, List.forall₂_cons, hagree, hitem u a ha, List.forall_mem_cons]

theorem slice_blank {s : Shape} {as bs : List α} {v : JsonValue}
    (hv : (Shape.list s).blank v = true) (h : slice r zero as v = some bs) : bs = [] := by
  cases v with
  | null => exact (Option.some.inj h).symm
  | arr us =>
    rw [List.isEmpty_iff.mp hv] at h
    exact (Option.some.inj h).symm
  | _ => cases h

theorem foldlM_slice_blank {s : Shape} {as : List α} (hvs : ∀ v ∈ vs, (Shape.list s).blank v = true)
    (h : vs.foldlM (slice r zero) [] = some as) : as = [] := by
  rcases List.eq_nil_or_concat vs with rfl | ⟨init, v, rfl⟩
  · exact (Option.some.inj h).symm
  · rw [List.concat_eq_append] at h hvs
    obtain ⟨b, -, hb⟩ := foldlM_concat h
    exact slice_blank (hvs v (List.mem_append_right _ (List.mem_singleton_self v))) hb

theorem said_arr {s : Shape} {ws : List JsonValue} :
    (Shape.list s).said [.arr ws] = if ws = [] then [] else [.arr ws] := by
  by_cases hws : ws = [] <;> simp [Shape.said, Shape.blank, hws]

/-- **A list of records keeps what its last value says**, if that is what was read. -/
theorem Slot.list_holds_last (hitem : HoldsItem slots r zero w) {as : List α}
    (hempty : (∀ v ∈ vs.getLast?, (Slot.list slots).shape.blank v = true) → as = [])
    (hlast : ∀ v ∈ vs.getLast?, Once (Slot.list slots).shape vs → slice r zero [] v = some as) :
    (Slot.list slots).Holds vs [.arr (as.map w)] := by
  have hshape : (Slot.list slots).shape = .list (shapeOf slots) := rfl
  have hkept : (Slot.list slots).kept vs = true ↔
      Once (.list (shapeOf slots)) vs ∧ ∀ v ∈ vs.getLast?, Slot.KeptItems slots v :=
        decide_eq_true_iff
  rw [hshape] at hempty hlast
  have hnil : as = [] → (Shape.list (shapeOf slots)).said [.arr (as.map w)] = [] := by
    rintro rfl
    exact said_arr.trans (if_pos rfl)
  have hblankItems : ∀ v, (Shape.list (shapeOf slots)).blank v = true → Slot.KeptItems slots v := by
    intro v hv u hu
    cases v with
    | arr us => exact absurd hu (List.isEmpty_iff.mp hv ▸ List.not_mem_nil)
    | _ => exact absurd hu List.not_mem_nil
  constructor
  · rw [hshape, hkept]
    refine (agreeAll_last (Slot.KeptItems slots) ?_ (fun hblank ↦ hnil (hempty hblank)) ?_).trans ?_
    · rw [said_arr]
      split <;> simp
    · intro v hv hsay honce
      have hread := hlast v hv honce
      cases v with
      | arr us =>
        obtain ⟨hlength, hagree⟩ := items_holds hitem hread
        have hus : us ≠ [] := by
          rintro rfl
          cases hsay
        have has : as.map w ≠ [] := by
          intro hnil
          rw [List.map_eq_nil_iff.mp hnil] at hlength
          exact hus (List.length_eq_zero_iff.mp hlength.symm)
        rw [said_arr, if_neg has, agreeAll_singleton, agree_arr_iff]
        exact hagree
      | null => cases hsay
      | _ => cases hread
    · refine and_congr_right fun _ ↦ forall₂_congr fun v _ ↦ ⟨fun h ↦ ?_, fun h _ ↦ h⟩
      cases hv : (Shape.list (shapeOf slots)).blank v with
      | true => exact hblankItems v hv
      | false => exact h hv
  · intro hvs
    rw [hshape] at hvs ⊢
    refine hnil (hempty fun v hv ↦ ?_)
    exact Shape.said_eq_nil.mp hvs v (List.mem_of_getLast? hv)

theorem Slot.list_holds (hitem : HoldsItem slots r zero w) {as : List α}
    (h : vs.foldlM (slice r zero) [] = some as) : (Slot.list slots).Holds vs [.arr (as.map w)] := by
  refine Slot.list_holds_last hitem (fun hblank ↦ ?_) fun v hv honce ↦ ?_
  · rcases List.eq_nil_or_concat vs with rfl | ⟨init, v, rfl⟩
    · exact (Option.some.inj h).symm
    · rw [List.concat_eq_append] at h hblank
      obtain ⟨b, -, hb⟩ := foldlM_concat h
      exact slice_blank (hblank v List.getLast?_concat) hb
  · obtain ⟨init, rfl⟩ := List.getLast?_eq_some_iff.mp hv
    obtain ⟨b, hb, hb'⟩ := foldlM_concat h
    rw [Once, List.dropLast_concat] at honce
    rwa [foldlM_slice_blank honce hb] at hb'

end Items

/-! ### Records in records -/

section Nested

variable {σ α : Type} {read : σ → List (String × JsonValue) → Option σ} {get : σ → α} {r : Reader α}
  {names : List String} {k : String} {slots : List (String × Slot)}

theorem members_append (names : List String) (k : String) (ms ms' : List (String × JsonValue)) :
    members names k (ms ++ ms') = members names k ms ++ members names k ms' :=
  List.filterMap_append

/-- Objects that are read one after the other are read like one object with the members of all of
them. -/
theorem foldlM_record
    (hread : ∀ st ms st', read st ms = some st' → field r (get st) names k ms = some (get st'))
    {st st' : σ} (h : vs.foldlM (record read) st = some st') :
    (∀ v ∈ vs, v = .null ∨ v = .obj v.members) ∧
      field r (get st) names k (vs.flatMap JsonValue.members) = some (get st') := by
  induction vs generalizing st with
  | nil =>
      exact ⟨fun _ hv ↦ absurd hv List.not_mem_nil, congrArg _ (congrArg get (Option.some.inj h))⟩
  | cons v vs ih =>
    rw [List.foldlM_cons] at h
    obtain ⟨st₁, hst₁, h⟩ := Option.bind_eq_some_iff.mp h
    obtain ⟨hobj, hfield⟩ := ih h
    rw [List.flatMap_cons, field, members_append, List.foldlM_append]
    rcases record_eq_some hst₁ with ⟨rfl, rfl⟩ | ⟨hv, hst₁⟩
    · exact ⟨List.forall_mem_cons.mpr ⟨.inl rfl, hobj⟩, hfield⟩
    · have hfirst := hread _ _ _ hst₁
      rw [field] at hfirst
      exact ⟨List.forall_mem_cons.mpr ⟨.inr hv, hobj⟩, by rw [hfirst]; exact hfield⟩

/-- What several objects say together. -/
theorem said_flatMap {fields : List (String × Shape)} (k : String)
    (hobj : ∀ v ∈ vs, v = .null ∨ v = .obj v.members) :
    ((Shape.record fields).member k).said (values k (vs.flatMap JsonValue.members)) =
      ((Shape.record fields).said vs).flatMap
        fun v ↦ ((Shape.record fields).member k).said (values k v.members) := by
  induction vs with
  | nil => rfl
  | cons v vs ih =>
    obtain ⟨hv, hvs⟩ := List.forall_mem_cons.mp hobj
    rw [List.flatMap_cons, Assoc.values_append, Shape.said_append, ih hvs, Shape.said_cons,
      List.flatMap_append]
    congr 1
    rcases hv with rfl | hv
    · simp [JsonValue.members, Assoc.values, Shape.said]
    cases hblank : (Shape.record fields).blank v with
    | true =>
      rw [hv] at hblank
      exact Shape.blank_obj_iff.mp hblank k
    | false => simp

/-- **A record in a record**, from what its fields keep of all that is read into it. -/
theorem Slot.record_holds {out : List (String × JsonValue)}
    (hobj : ∀ v ∈ vs, v = .null ∨ v = .obj v.members) (hnodup : (slots.map Prod.fst).Nodup)
    (hout : ∀ m ∈ out, m.1 ∈ slots.map Prod.fst)
    (h : ∀ p ∈ slots,
      p.2.Holds (Unmarshal.members (slots.map Prod.fst) p.1 (vs.flatMap JsonValue.members))
      (values p.1 out)) :
    (Slot.record slots).Holds vs [.obj out] := by
  have hagree := agree_record hnodup hout h
  have hblank := blank_record hnodup hout h
  have hshape : (Slot.record slots).shape = shapeOf slots := rfl
  have hkept : (Slot.record slots).kept vs = true ↔ ((shapeOf slots).said vs).length ≤ 1 ∧
      KeptMembers slots (vs.flatMap JsonValue.members) := decide_eq_true_iff
  have hsaid : ∀ k, ((shapeOf slots).member k).said (values k (vs.flatMap JsonValue.members)) =
      ((shapeOf slots).said vs).flatMap fun v ↦
      ((shapeOf slots).member k).said (values k v.members) :=
    fun k ↦ said_flatMap k hobj
  have hwritten : (shapeOf slots).said [.obj out] =
      if (shapeOf slots).blank (.obj out) = true then [] else [.obj out] := by
    rw [Shape.said_cons]
    exact List.append_nil _
  have hnone : (shapeOf slots).said vs = [] → (shapeOf slots).blank (.obj out) = true := by
    intro hvs
    refine hblank (Shape.blank_obj_iff.mpr fun k ↦ ?_)
    rw [← shapeOf, hsaid k, hvs, List.flatMap_nil]
  constructor
  · rw [hshape, hkept, ← hagree, agree_obj_iff]
    simp only [hsaid]
    rcases hvs : (shapeOf slots).said vs with _ | ⟨v, _ | ⟨u, us⟩⟩
    · have hempty := Shape.blank_obj_iff.mp (hnone hvs)
      rw [← shapeOf] at hempty
      simp [hwritten, hnone hvs, hempty, AgreeAll.nil]
    · obtain ⟨hmem, hsay⟩ := Shape.mem_said.mp (hvs ▸ List.mem_singleton_self v)
      have hv : v = .obj v.members := (hobj v hmem).resolve_left fun h ↦ by simp [h] at hsay
      have hcongr : (∀ k, AgreeAll ((shapeOf slots).member k)
          ([v].flatMap fun v ↦ ((shapeOf slots).member k).said (values k v.members))
          (((shapeOf slots).member k).said (values k out))) ↔
            Agree (shapeOf slots) v (.obj out) := by
        rw [hv, agree_obj_iff]
        simp [JsonValue.members]
      rw [hcongr, hwritten]
      split
      · rename_i hempty
        refine iff_of_false (fun h ↦ by simpa using h.length_eq) fun h ↦ ?_
        have hsame := h.2
        rw [hv] at hsame hsay
        rw [shapeOf] at hsame hsay hempty
        rw [blank_of_agree hsame, hempty] at hsay
        cases hsay
      · simp [agreeAll_singleton]
    · refine iff_of_false (fun h ↦ ?_) fun h ↦ by simp at h
      have hlen := h.length_eq
      rw [hwritten] at hlen
      split at hlen <;> simp at hlen
  · intro hvs
    rw [hshape] at hvs ⊢
    rw [hwritten, if_pos (hnone hvs)]

end Nested

end Unmarshal
