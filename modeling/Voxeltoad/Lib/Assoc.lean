import Mathlib.Data.List.Nodup
import Mathlib.Data.List.Perm.Basic

/-!
# Maps as lists of entries

A finite map is the list of its entries, in the order in which it happens to be enumerated.
`Assoc.put` writes an entry; `List.lookup` reads one.  As long as no key occurs twice
(`Assoc.Keyed`), the order does not matter to a lookup (`Assoc.Keyed.lookup_perm`).  To a search
that stops at the first hit it does matter, unless all hits say the same
(`Assoc.findSome?_perm_iff`).

A list in which keys do occur twice is made a map by `Assoc.collect`, and what was entered last
stays (`Assoc.lookup_collect`).
-/

set_option autoImplicit false

namespace Assoc

universe u v

variable {κ : Type u} {ν : Type v}

/-- No key occurs twice. -/
def Keyed (m : List (κ × ν)) : Prop := (m.map Prod.fst).Nodup

variable [DecidableEq κ]

instance (m : List (κ × ν)) : Decidable (Keyed m) := inferInstanceAs (Decidable (List.Nodup _))

/-- Write an entry. -/
def put (k : κ) (v : ν) : List (κ × ν) → List (κ × ν)
  | [] => [(k, v)]
  | e :: m => if e.1 = k then (k, v) :: m else e :: put k v m

theorem lookup_put (k j : κ) (v : ν) (m : List (κ × ν)) :
    (put k v m).lookup j = if j = k then some v else m.lookup j := by
  induction m with
  | nil =>
    rw [put, List.lookup_cons]
    by_cases h : j = k
    · simp [h]
    · simp [h, beq_false_of_ne h]
  | cons e m ih =>
    rw [put]
    by_cases he : e.1 = k
    · rw [if_pos he, List.lookup_cons, List.lookup_cons, he]
      by_cases h : j = k
      · simp [h]
      · simp [h, beq_false_of_ne h]
    · rw [if_neg he, List.lookup_cons, List.lookup_cons, ih]
      by_cases h : j = k
      · simp [h, beq_false_of_ne (Ne.symm he)]
      · simp [h]

theorem mem_keys_put (k j : κ) (v : ν) (m : List (κ × ν)) :
    j ∈ (put k v m).map Prod.fst ↔ j = k ∨ j ∈ m.map Prod.fst := by
  induction m with
  | nil => simp [put]
  | cons e m ih =>
    rw [put]
    split
    · rename_i he
      simp [he]
    · rw [List.map_cons, List.mem_cons, ih, List.map_cons, List.mem_cons]
      exact or_left_comm

theorem Keyed.put {m : List (κ × ν)} (h : Keyed m) (k : κ) (v : ν) : Keyed (put k v m) := by
  induction m with
  | nil => exact List.nodup_singleton k
  | cons e m ih =>
    obtain ⟨hhead, htail⟩ := List.nodup_cons.mp h
    rw [Assoc.put]
    split
    · rename_i he
      exact List.nodup_cons.mpr ⟨he ▸ hhead, htail⟩
    · rename_i he
      refine List.nodup_cons.mpr ⟨fun hmem ↦ ?_, ih htail⟩
      rcases (mem_keys_put k e.1 v m).mp hmem with heq | hmem
      · exact he heq
      · exact hhead hmem

theorem Keyed.lookup_eq_some_iff {m : List (κ × ν)} (h : Keyed m) {k : κ} {v : ν} :
    m.lookup k = some v ↔ (k, v) ∈ m := by
  induction m with
  | nil => simp
  | cons e m ih =>
    obtain ⟨hhead, htail⟩ := List.nodup_cons.mp h
    rw [List.lookup_cons, List.mem_cons]
    by_cases he : k = e.1
    · have hnot : (k, v) ∉ m := fun hmem ↦ hhead (he ▸ List.mem_map_of_mem hmem)
      have hpair : (k, v) = e ↔ e.2 = v := by
        rw [he, Prod.ext_iff]
        exact ⟨fun heq ↦ heq.2.symm, fun heq ↦ ⟨rfl, heq.symm⟩⟩
      simp [he, ← hpair, he ▸ hnot]
    · have hne : (k, v) ≠ e := fun heq ↦ he (congrArg Prod.fst heq)
      rw [beq_false_of_ne he, ih htail]
      simp [hne]

/-- **The order of the entries does not matter.** -/
theorem Keyed.lookup_perm {m m' : List (κ × ν)} (h : Keyed m) (hperm : m'.Perm m) (k : κ) :
    m'.lookup k = m.lookup k := by
  have h' : Keyed m' := (hperm.map Prod.fst).nodup_iff.mpr h
  ext v
  rw [h'.lookup_eq_some_iff, h.lookup_eq_some_iff, hperm.mem_iff]

theorem lookup_isSome_iff {m : List (κ × ν)} {k : κ} :
    (m.lookup k).isSome ↔ k ∈ m.map Prod.fst := by
  induction m with
  | nil => simp
  | cons e m ih =>
    rw [List.lookup_cons, List.map_cons, List.mem_cons, ← ih]
    by_cases he : k = e.1
    · simp [he]
    · simp [he, beq_false_of_ne he]

/-! ## Entries with one key -/

section Values

/-- What is entered under a key, in order. -/
def values (k : κ) (m : List (κ × ν)) : List ν := (m.filter fun e ↦ e.1 = k).map Prod.snd

@[simp]
theorem values_nil (k : κ) : values k ([] : List (κ × ν)) = [] := rfl

theorem values_cons (k : κ) (e : κ × ν) (m : List (κ × ν)) :
    values k (e :: m) = (if e.1 = k then [e.2] else []) ++ values k m := by
  rw [values, List.filter_cons]
  split <;> simp_all [values]

theorem values_append (k : κ) (m m' : List (κ × ν)) :
    values k (m ++ m') = values k m ++ values k m' := by
  simp [values]

theorem mem_values {k : κ} {v : ν} {m : List (κ × ν)} : v ∈ values k m ↔ (k, v) ∈ m := by
  simp [values]

theorem values_eq_nil_iff {k : κ} {m : List (κ × ν)} : values k m = [] ↔ k ∉ m.map Prod.fst := by
  induction m with
  | nil => simp
  | cons e m ih =>
    rw [values_cons, List.append_eq_nil_iff, ih, List.map_cons, List.mem_cons, not_or]
    by_cases hk : e.1 = k
    · simp [hk]
    · simp [hk, Ne.symm hk]

theorem values_filter (p : κ → Bool) (k : κ) (m : List (κ × ν)) :
    values k (m.filter fun e ↦ p e.1) = if p k then values k m else [] := by
  induction m with
  | nil => simp
  | cons e m ih =>
    rw [List.filter_cons, values_cons]
    by_cases hk : e.1 = k
    · cases hp : p k <;> simp [hk, hp, ih, values_cons]
    · cases hp : p e.1 <;> simp [hk, ih, values_cons]

/-- Write the entries one after the other, as into a map. -/
def collect (m : List (κ × ν)) : List (κ × ν) := m.foldl (fun m e ↦ put e.1 e.2 m) []

/-- **A key in a map has what was entered last.** -/
theorem lookup_collect (k : κ) (m : List (κ × ν)) :
    (collect m).lookup k = (values k m).getLast? := by
  suffices h : ∀ m₀ : List (κ × ν), (m.foldl (fun m e ↦ put e.1 e.2 m) m₀).lookup k =
      (values k m).getLast?.or (m₀.lookup k) by
    simpa [collect] using h []
  induction m with
  | nil => simp [values]
  | cons e m ih =>
    intro m₀
    rw [List.foldl_cons, ih, lookup_put, values_cons, List.getLast?_append]
    by_cases hk : k = e.1
    · simp [hk]
    · simp [hk, Ne.symm hk]

theorem keyed_collect (m : List (κ × ν)) : Keyed (collect m) := by
  suffices h : ∀ m₀ : List (κ × ν), Keyed m₀ → Keyed (m.foldl (fun m e ↦ put e.1 e.2 m) m₀) from
    h [] List.nodup_nil
  induction m with
  | nil => exact fun _ h ↦ h
  | cons e m ih => exact fun m₀ h ↦ ih _ (h.put e.1 e.2)

theorem Keyed.values_eq {m : List (κ × ν)} (h : Keyed m) (k : κ) :
    values k m = (m.lookup k).toList := by
  induction m with
  | nil => rfl
  | cons e m ih =>
    obtain ⟨hhead, htail⟩ := List.nodup_cons.mp h
    rw [values_cons, ih htail, List.lookup_cons]
    by_cases hk : e.1 = k
    · have hnone : m.lookup k = none := by
        rw [← Option.not_isSome_iff_eq_none, lookup_isSome_iff]
        exact hk ▸ hhead
      simp [hk, hnone]
    · simp [hk, beq_false_of_ne (Ne.symm hk)]

theorem Keyed.values_perm {m m' : List (κ × ν)} (h : Keyed m) (hperm : m'.Perm m) (k : κ) :
    values k m' = values k m := by
  have h' : Keyed m' := (hperm.map Prod.fst).nodup_iff.mpr h
  rw [h.values_eq, h'.values_eq, h.lookup_perm hperm]

end Values

/-! ## Searching in the order of the entries -/

section Search

variable {α : Type u} {β : Type v} {f : α → Option β} {l : List α}

/-- A search for hits that all say the same finds what they say. -/
theorem findSome?_eq_of_hit (h : ∀ a ∈ l, ∀ b ∈ l, ∀ x y, f a = some x → f b = some y → x = y)
    {a : α} (ha : a ∈ l) {x : β} (hx : f a = some x) : l.findSome? f = some x := by
  have hsome : (l.findSome? f).isSome := List.findSome?_isSome_iff.mpr ⟨a, ha, by simp [hx]⟩
  obtain ⟨y, hy⟩ := Option.isSome_iff_exists.mp hsome
  obtain ⟨b, hb, hfb⟩ := List.exists_of_findSome?_eq_some hy
  rw [hy, h b hb a ha y x hfb hx]

/-- **A search does not depend on the order just if all its hits say the same.** -/
theorem findSome?_perm_iff :
    (∀ l' : List α, l'.Perm l → l'.findSome? f = l.findSome? f) ↔
      ∀ a ∈ l, ∀ b ∈ l, ∀ x y, f a = some x → f b = some y → x = y := by
  constructor
  · intro h a ha b hb x y hx hy
    have hfirst : ∀ {c z}, c ∈ l → f c = some z → l.findSome? f = some z := by
      intro c z hc hz
      obtain ⟨before, after, rfl⟩ := List.append_of_mem hc
      rw [← h (c :: (before ++ after)) List.perm_middle.symm, List.findSome?_cons, hz]
    exact Option.some.inj ((hfirst ha hx).symm.trans (hfirst hb hy))
  · intro h l' hperm
    cases hfind : l.findSome? f with
    | none =>
      rw [List.findSome?_eq_none_iff] at hfind ⊢
      exact fun a ha ↦ hfind a (hperm.mem_iff.mp ha)
    | some x =>
      obtain ⟨a, ha, hx⟩ := List.exists_of_findSome?_eq_some hfind
      refine findSome?_eq_of_hit (fun b hb c hc ↦ ?_) (hperm.mem_iff.mpr ha) hx
      exact h b (hperm.mem_iff.mp hb) c (hperm.mem_iff.mp hc)

end Search

end Assoc
