import Mathlib.Algebra.BigOperators.Group.List.Basic
import Mathlib.Algebra.Order.BigOperators.Group.List
import Mathlib.Data.List.Nodup
import Mathlib.Data.List.Perm.Subperm
import Mathlib.Tactic.Linarith
import Mathlib.Tactic.Ring

/-!
# Keyed tables

A relational table is a list of rows together with a function `key` that reads off the primary
key.  This file has the three things a statement on such a table does: look a row up by its key
(`Table.find`), rewrite the row with a given key (`Table.modify`), and append a row.

What the rest of a development wants to know about them is how they move *sums*.  `Table.sumOver`
adds up a column over the rows that satisfy a condition.  Every bookkeeping argument (a counter on
one table equals a sum over another) compares such sums before and after a statement: row by row
with `Table.sumOver_add`, or down to the one row that counts with `Table.sumOver_eq_single`.
-/

set_option autoImplicit false

namespace Table

universe u v

variable {α : Type u} {κ : Type v}

/-! ## Unique keys -/

/-- No two rows share a key. -/
def Keyed (key : α → κ) (t : List α) : Prop := (t.map key).Nodup

instance [DecidableEq κ] (key : α → κ) (t : List α) : Decidable (Keyed key t) :=
  inferInstanceAs (Decidable (List.Nodup _))

variable {key : α → κ}

theorem Keyed.eq_of_key {t : List α} (ht : Keyed key t) {r r' : α} (hr : r ∈ t) (hr' : r' ∈ t)
    (h : key r = key r') : r = r' :=
  List.inj_on_of_nodup_map ht hr hr' h

theorem Keyed.append {t : List α} (ht : Keyed key t) {r : α} (hr : ∀ r' ∈ t, key r' ≠ key r) :
    Keyed key (t ++ [r]) := by
  rw [Keyed, List.map_append, List.nodup_append]
  refine ⟨ht, by simp, ?_⟩
  intro a ha b hb hab
  obtain ⟨r', hr', rfl⟩ := List.mem_map.mp ha
  rw [List.map_singleton, List.mem_singleton] at hb
  exact hr r' hr' (hab.trans hb)

theorem Keyed.filter {t : List α} (ht : Keyed key t) (p : α → Bool) : Keyed key (t.filter p) :=
  ht.sublist (List.filter_sublist.map key)

variable [DecidableEq κ] (key)

/-- The row with key `k`. -/
def find (k : κ) (t : List α) : Option α := t.find? fun r ↦ key r = k

/-- Rewrite the row with key `k`. -/
def modify (k : κ) (f : α → α) (t : List α) : List α := t.map fun r ↦ if key r = k then f r else r

variable {key}

/-! ## Looking rows up -/

theorem mem_of_find {k : κ} {t : List α} {r : α} (h : find key k t = some r) :
    r ∈ t ∧ key r = k :=
  ⟨List.mem_of_find?_eq_some h, by simpa using List.find?_some h⟩

theorem find_eq_none_iff {k : κ} {t : List α} : find key k t = none ↔ ∀ r ∈ t, key r ≠ k := by
  simp [find]

theorem find_isSome_iff {k : κ} {t : List α} : (find key k t).isSome ↔ ∃ r ∈ t, key r = k := by
  simp [find]

theorem Keyed.find_of_mem {t : List α} (ht : Keyed key t) {r : α} (hr : r ∈ t) :
    find key (key r) t = some r := by
  cases h : find key (key r) t with
  | none => exact absurd rfl (find_eq_none_iff.mp h r hr)
  | some r' =>
    obtain ⟨hmem, hkey⟩ := mem_of_find h
    rw [ht.eq_of_key hmem hr hkey]

theorem Keyed.find_eq_some_iff {t : List α} (ht : Keyed key t) {k : κ} {r : α} :
    find key k t = some r ↔ r ∈ t ∧ key r = k := by
  refine ⟨mem_of_find, ?_⟩
  rintro ⟨hr, rfl⟩
  exact ht.find_of_mem hr

theorem find_append {k : κ} {t u : List α} :
    find key k (t ++ u) = (find key k t).or (find key k u) := by
  simp [find, List.find?_append]

/-- A row that a statement keeps is still found. -/
theorem Keyed.find_filter {t : List α} (ht : Keyed key t) {k : κ} {r : α} {p : α → Bool}
    (h : find key k t = some r) (hp : p r = true) : find key k (t.filter p) = some r := by
  obtain ⟨hr, rfl⟩ := mem_of_find h
  exact (ht.filter p).find_of_mem (List.mem_filter.mpr ⟨hr, hp⟩)

/-! ## Rewriting a row -/

theorem mem_modify {k : κ} {f : α → α} {t : List α} {r : α} :
    r ∈ modify key k f t ↔ ∃ r₀ ∈ t, (if key r₀ = k then f r₀ else r₀) = r := by
  simp [modify]

theorem mem_modify_of_eq {k : κ} {f : α → α} {t : List α} {r : α} (hr : r ∈ t) (hk : key r = k) :
    f r ∈ modify key k f t :=
  mem_modify.mpr ⟨r, hr, if_pos hk⟩

/-- A row at another key is an old row. -/
theorem mem_of_mem_modify {k : κ} {f : α → α} (hf : ∀ r, key (f r) = key r) {t : List α} {r : α}
    (hr : r ∈ modify key k f t) (hk : key r ≠ k) : r ∈ t := by
  obtain ⟨r₀, hr₀, rfl⟩ := mem_modify.mp hr
  split at hk
  · rename_i h
    exact absurd ((hf r₀).trans h) hk
  · rename_i h
    rwa [if_neg h]

/-- What the update leaves alone reads the same before and after it. -/
theorem map_modify {β : Type*} {k : κ} {f : α → α} {g : α → β} (hf : ∀ r, g (f r) = g r)
    (t : List α) : (modify key k f t).map g = t.map g := by
  rw [modify, List.map_map]
  refine List.map_congr_left fun r _ ↦ ?_
  show g (if key r = k then f r else r) = g r
  split
  · exact hf r
  · rfl

theorem Keyed.modify {k : κ} {f : α → α} (hf : ∀ r, key (f r) = key r) {t : List α}
    (ht : Keyed key t) : Keyed key (modify key k f t) := by
  rw [Keyed, map_modify hf]
  exact ht

/-- Looking up after every row has been rewritten, its key apart. -/
theorem find_map {g : α → α} (hg : ∀ r, key (g r) = key r) (j : κ) (t : List α) :
    find key j (t.map g) = (find key j t).map g := by
  rw [find, List.find?_map]
  simp only [Function.comp_def, hg]
  rfl

/-- Looking up after an update: the updated row at `k`, the old row elsewhere. -/
theorem find_modify {k : κ} {f : α → α} (hf : ∀ r, key (f r) = key r) (j : κ) (t : List α) :
    find key j (modify key k f t) = (find key j t).map fun r ↦ if key r = k then f r else r := by
  refine find_map (fun r ↦ ?_) j t
  split
  · exact hf r
  · rfl

theorem find_modify_of_ne {k : κ} {f : α → α} (hf : ∀ r, key (f r) = key r) {j : κ} (hne : j ≠ k)
    (t : List α) : find key j (modify key k f t) = find key j t := by
  rw [find_modify hf]
  cases h : find key j t with
  | none => rfl
  | some r => rw [Option.map_some, if_neg ((mem_of_find h).2 ▸ hne)]

/-- Looking up after an update of a row that is there. -/
theorem find_modify_of_find {k : κ} {f : α → α} (hf : ∀ r, key (f r) = key r) {t : List α} {r : α}
    (h : find key k t = some r) (j : κ) :
    find key j (modify key k f t) = if k = j then some (f r) else find key j t := by
  split
  · rename_i hkj
    rw [← hkj, find_modify hf, h, Option.map_some, if_pos (mem_of_find h).2]
  · rename_i hkj
    exact find_modify_of_ne hf (Ne.symm hkj) t

/-- An update at an absent key changes nothing. -/
theorem modify_of_absent {k : κ} {f : α → α} {t : List α} (h : ∀ r ∈ t, key r ≠ k) :
    modify key k f t = t := by
  rw [modify]
  conv_rhs => rw [← List.map_id t]
  exact List.map_congr_left fun r hr ↦ if_neg (h r hr)

/-! ## Replacing or adding a row -/

variable (key) in
/-- `INSERT … ON CONFLICT DO UPDATE`: the row takes the place of the one with its key, or comes
last. -/
def upsert (r : α) (t : List α) : List α :=
  if ∃ r' ∈ t, key r' = key r then modify key (key r) (fun _ ↦ r) t else t ++ [r]

theorem mem_upsert {r r' : α} {t : List α} :
    r' ∈ upsert key r t ↔ r' = r ∨ (r' ∈ t ∧ key r' ≠ key r) := by
  rw [upsert]
  split
  · rename_i hex
    obtain ⟨r₀, hr₀, hkey⟩ := hex
    rw [mem_modify]
    constructor
    · rintro ⟨r₁, hr₁, rfl⟩
      split
      · exact .inl rfl
      · rename_i hne
        exact .inr ⟨hr₁, hne⟩
    · rintro (rfl | ⟨hr', hne⟩)
      · exact ⟨r₀, hr₀, if_pos hkey⟩
      · exact ⟨r', hr', if_neg hne⟩
  · rename_i hnone
    rw [List.mem_append, List.mem_singleton]
    constructor
    · rintro (hr' | rfl)
      · exact .inr ⟨hr', fun hkey ↦ hnone ⟨r', hr', hkey⟩⟩
      · exact .inl rfl
    · rintro (rfl | ⟨hr', -⟩)
      · exact .inr rfl
      · exact .inl hr'

/-- Putting a row in the place of one with its key keeps the keys. -/
theorem key_replace (r r' : α) : key (if key r' = key r then r else r') = key r' := by
  split
  · rename_i heq
    exact heq.symm
  · rfl

theorem Keyed.upsert {t : List α} (ht : Keyed key t) (r : α) : Keyed key (upsert key r t) := by
  rw [Table.upsert]
  split
  · rw [Keyed, Table.modify, List.map_map, Function.comp_def]
    simp only [key_replace]
    exact ht
  · rename_i hnone
    exact ht.append fun r' hr' hkey ↦ hnone ⟨r', hr', hkey⟩

/-- An upsert changes nothing when the row is there already. -/
theorem upsert_eq_self_iff {r : α} {t : List α} :
    upsert key r t = t ↔ r ∈ t ∧ ∀ r' ∈ t, key r' = key r → r' = r := by
  constructor
  · intro h
    refine ⟨?_, fun r' hr' hkey ↦ ?_⟩
    · rw [← h, mem_upsert]
      exact .inl rfl
    · rw [← h, mem_upsert] at hr'
      exact hr'.resolve_right fun ⟨_, hne⟩ ↦ hne hkey
  · rintro ⟨hr, hsame⟩
    rw [upsert, if_pos ⟨r, hr, rfl⟩, modify]
    refine (List.map_congr_left fun r' hr' ↦ ?_).trans (List.map_id t)
    rw [id]
    split
    · rename_i hkey
      exact (hsame r' hr' hkey).symm
    · rfl

/-- Looking up after an upsert: the new row at its key, the old row elsewhere. -/
theorem find_upsert {r : α} {k : κ} {t : List α} :
    find key k (upsert key r t) = if key r = k then some r else find key k t := by
  rw [upsert]
  split
  · rename_i hex
    rw [modify, find_map (key_replace r)]
    cases hfind : find key k t with
    | none =>
      obtain ⟨r', hr', hkey⟩ := hex
      have hk : key r ≠ k := fun hk ↦ find_eq_none_iff.mp hfind r' hr' (hkey.trans hk)
      rw [if_neg hk, Option.map_none]
    | some r₀ =>
      rw [Option.map_some, (mem_of_find hfind).2]
      by_cases hk : key r = k
      · rw [if_pos hk.symm, if_pos hk]
      · rw [if_neg (Ne.symm hk), if_neg hk]
  · rename_i hnone
    rw [find_append]
    by_cases hk : key r = k
    · subst hk
      rw [find_eq_none_iff.mpr fun r' hr' hkey ↦ hnone ⟨r', hr', hkey⟩]
      simp [find]
    · simp [find, hk]

/-- `INSERT` of row after row, which the unique key refuses at the first one that is there. -/
def insertAll (key : α → κ) (rows : List α) (t : List α) : Option (List α) :=
  rows.foldlM (fun t r ↦ if ∃ r' ∈ t, key r' = key r then none else some (t ++ [r])) t

theorem insertAll_eq_some {rows t t' : List α} (h : insertAll key rows t = some t')
    (ht : Keyed key t) : t' = t ++ rows ∧ Keyed key t' := by
  rw [insertAll] at h
  induction rows generalizing t with
  | nil =>
    obtain rfl := Option.some.inj h
    exact ⟨(List.append_nil _).symm, ht⟩
  | cons r rows ih =>
    rw [List.foldlM_cons] at h
    split at h
    · cases h
    · rename_i hnone
      have ht₁ : Keyed key (t ++ [r]) := ht.append fun r' hr' hkey ↦ hnone ⟨r', hr', hkey⟩
      obtain ⟨rfl, hkeyed⟩ := ih h ht₁
      exact ⟨List.append_assoc .., hkeyed⟩

theorem insertAll_of_keyed {rows t : List α} (h : Keyed key (t ++ rows)) :
    insertAll key rows t = some (t ++ rows) := by
  rw [insertAll]
  induction rows generalizing t with
  | nil => rw [List.append_nil]; rfl
  | cons r rows ih =>
    have hnone : ¬ ∃ r' ∈ t, key r' = key r := by
      rintro ⟨r', hr', hkey⟩
      rw [Keyed, List.map_append, List.nodup_append] at h
      exact h.2.2 _ (List.mem_map_of_mem hr') _ (List.mem_cons_self ..) hkey
    rw [List.append_cons] at h ⊢
    rw [List.foldlM_cons, if_neg hnone, ← ih h]
    rfl

/-! ## Sums of a column -/

/-- The sum of `g` over the rows that satisfy `p`. -/
def sumOver (p : α → Prop) [DecidablePred p] (g : α → ℤ) (t : List α) : ℤ :=
  (t.map fun r ↦ if p r then g r else 0).sum

variable {p : α → Prop} [DecidablePred p] {g : α → ℤ}

@[simp] theorem sumOver_nil : sumOver p g [] = 0 := rfl

@[simp] theorem sumOver_cons (r : α) (t : List α) :
    sumOver p g (r :: t) = (if p r then g r else 0) + sumOver p g t := by
  simp [sumOver]

@[simp] theorem sumOver_append (t u : List α) :
    sumOver p g (t ++ u) = sumOver p g t + sumOver p g u := by
  simp [sumOver]

theorem sumOver_nonneg {t : List α} (h : ∀ r ∈ t, p r → 0 ≤ g r) : 0 ≤ sumOver p g t := by
  refine List.sum_nonneg fun x hx ↦ ?_
  obtain ⟨r, hr, rfl⟩ := List.mem_map.mp hx
  split
  · rename_i hp; exact h r hr hp
  · exact le_refl 0

theorem sumOver_le {g' : α → ℤ} {t : List α} (h : ∀ r ∈ t, p r → g r ≤ g' r) :
    sumOver p g t ≤ sumOver p g' t := by
  refine List.sum_le_sum fun r hr ↦ ?_
  split
  · rename_i hp; exact h r hr hp
  · exact le_refl 0

theorem sumOver_nonpos {t : List α} (h : ∀ r ∈ t, p r → g r ≤ 0) : sumOver p g t ≤ 0 := by
  refine (sumOver_le h).trans (le_of_eq ?_)
  simp [sumOver]

theorem sumOver_eq_zero {t : List α} (h : ∀ r ∈ t, p r → g r = 0) : sumOver p g t = 0 := by
  induction t with
  | nil => rfl
  | cons r t ih =>
    rw [sumOver_cons, ih fun r' hr' ↦ h r' (List.mem_cons_of_mem _ hr'), add_zero]
    split
    · rename_i hp; exact h r (List.mem_cons_self ..) hp
    · rfl

theorem sumOver_congr {q : α → Prop} [DecidablePred q] {g' : α → ℤ} {t : List α}
    (h : ∀ r ∈ t, (if p r then g r else 0) = if q r then g' r else 0) :
    sumOver p g t = sumOver q g' t := by
  rw [sumOver, sumOver, List.map_congr_left h]

/-- A sum that only one row contributes to. -/
theorem sumOver_eq_single {t : List α} (hnodup : t.Nodup) {r : α} (hr : r ∈ t)
    (h : ∀ r' ∈ t, p r' ↔ r' = r) : sumOver p g t = g r := by
  induction t with
  | nil => simp at hr
  | cons a t ih =>
    obtain ⟨ha, ht⟩ := List.nodup_cons.mp hnodup
    rw [sumOver_cons]
    by_cases har : a = r
    · subst har
      have hrest : sumOver p g t = 0 := sumOver_eq_zero fun r' hr' hp ↦
        absurd hr' (((h r' (List.mem_cons_of_mem _ hr')).mp hp) ▸ ha)
      rw [if_pos ((h a (List.mem_cons_self ..)).mpr rfl), hrest, add_zero]
    · have hrt : r ∈ t := (List.mem_cons.mp hr).resolve_left (Ne.symm har)
      rw [if_neg (mt (h a (List.mem_cons_self ..)).mp har), zero_add]
      exact ih ht hrt fun r' hr' ↦ h r' (List.mem_cons_of_mem _ hr')

theorem sumOver_perm {t u : List α} (h : t.Perm u) : sumOver p g t = sumOver p g u :=
  (h.map _).sum_eq

theorem sumOver_map {β : Type*} {f : β → α} {t : List β} :
    sumOver p g (t.map f) = sumOver (fun r ↦ p (f r)) (fun r ↦ g (f r)) t := by
  simp [sumOver, Function.comp_def]

theorem sumOver_filter {q : α → Bool} {t : List α} :
    sumOver p g (t.filter q) = sumOver (fun r ↦ p r ∧ q r = true) g t := by
  induction t with
  | nil => rfl
  | cons r t ih =>
    rw [List.filter_cons, sumOver_cons, ← ih]
    by_cases hq : q r = true
    · simp [hq]
    · simp [hq]

theorem sumOver_neg {t : List α} : sumOver p (fun r ↦ -g r) t = -sumOver p g t := by
  induction t with
  | nil => rfl
  | cons r t ih =>
    rw [sumOver_cons, sumOver_cons, ih]
    split <;> ring

/-- Sums add up row by row. -/
theorem sumOver_add {q q' : α → Prop} [DecidablePred q] [DecidablePred q'] {h h' : α → ℤ}
    {t : List α}
    (hadd : ∀ r ∈ t,
      ((if p r then g r else 0) + if q r then h r else 0) = if q' r then h' r else 0) :
    sumOver p g t + sumOver q h t = sumOver q' h' t := by
  induction t with
  | nil => rfl
  | cons r t ih =>
    have hrest := ih fun r' hr' ↦ hadd r' (List.mem_cons_of_mem _ hr')
    have hhead := hadd r (List.mem_cons_self ..)
    rw [sumOver_cons, sumOver_cons, sumOver_cons]
    linarith

/-- Some of the rows add up to at most all of them, when nothing counts negatively. -/
theorem sumOver_le_of_subset {t u : List α} (hnodup : t.Nodup) (hsub : t ⊆ u)
    (h : ∀ r ∈ u, p r → 0 ≤ g r) : sumOver p g t ≤ sumOver p g u := by
  obtain ⟨v, hperm, hsublist⟩ := List.Nodup.subperm hnodup hsub
  rw [← sumOver_perm hperm]
  clear hperm hsub
  induction hsublist with
  | slnil => exact le_refl 0
  | cons r _ ih =>
    rw [sumOver_cons]
    have hrest := ih fun r' hr' ↦ h r' (List.mem_cons_of_mem _ hr')
    have hr := h r (List.mem_cons_self ..)
    split
    · rename_i hp
      linarith [hr hp]
    · linarith
  | cons_cons r _ ih =>
    rw [sumOver_cons, sumOver_cons]
    linarith [ih fun r' hr' ↦ h r' (List.mem_cons_of_mem _ hr')]

end Table
