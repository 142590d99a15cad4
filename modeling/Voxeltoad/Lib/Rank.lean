import Mathlib.Data.List.Sort

/-!
# Sorting by rank

A list is sorted by a function `rank` into a linear order; elements of the same rank stay in the
order they came in.  If no two of them have the same rank (`Rank.Distinct`), a sorted list is
determined by what is in it (`Rank.sortBy_unique`).  So the order of the list that is sorted does
not matter (`Rank.sortBy_congr`), and sorting and filtering commute (`Rank.sortBy_filter`).  What
ranks above an element is what comes after it (`Rank.filter_lt_of_eq_append`).

Where ranks are tied, a list has more than one order (`Rank.Orders`), and a `Rank.Plan` is a choice
of one for every list.  A place that no tie crosses is a `Rank.Border`: what stands before it is the
same in every order (`Rank.Border.take_perm`).
-/

set_option autoImplicit false

namespace Rank

universe u v

variable {α : Type u} {β : Type v}

/-- No two elements have the same rank. -/
def Distinct (rank : α → β) (l : List α) : Prop := (l.map rank).Nodup

instance [DecidableEq β] (rank : α → β) (l : List α) : Decidable (Distinct rank l) :=
  inferInstanceAs (Decidable (List.Nodup _))

section Distinct

variable {rank : α → β} {l l' : List α}

theorem Distinct.eq_of_rank (h : Distinct rank l) {a b : α} (ha : a ∈ l) (hb : b ∈ l)
    (heq : rank a = rank b) : a = b :=
  List.inj_on_of_nodup_map h ha hb heq

theorem Distinct.sublist (h : Distinct rank l) (hsub : l'.Sublist l) : Distinct rank l' :=
  List.Nodup.sublist (hsub.map rank) h

theorem Distinct.perm (h : Distinct rank l) (hperm : l'.Perm l) : Distinct rank l' :=
  (hperm.map rank).nodup_iff.mpr h

end Distinct

variable [LinearOrder β] (rank : α → β)

/-- Sort by rank. -/
def sortBy (l : List α) : List α := l.insertionSort fun a b ↦ rank a ≤ rank b

variable {rank}

theorem sortBy_perm (l : List α) : (sortBy rank l).Perm l := List.perm_insertionSort _ l

theorem mem_sortBy {l : List α} {a : α} : a ∈ sortBy rank l ↔ a ∈ l := (sortBy_perm l).mem_iff

theorem pairwise_sortBy (l : List α) : (sortBy rank l).Pairwise fun a b ↦ rank a ≤ rank b :=
  have : IsTrans α fun a b ↦ rank a ≤ rank b := ⟨fun _ _ _ ↦ le_trans⟩
  have : Std.Total fun a b : α ↦ rank a ≤ rank b := ⟨fun a b ↦ le_total (rank a) (rank b)⟩
  List.pairwise_insertionSort _ l

/-- **A sorted list is determined by what is in it.** -/
theorem sortBy_unique {l l' : List α} (h : Distinct rank l) (hperm : l'.Perm l)
    (hsorted : l'.Pairwise fun a b ↦ rank a ≤ rank b) : l' = sortBy rank l := by
  refine List.Perm.eq_of_pairwise ?_ hsorted (pairwise_sortBy l) (hperm.trans (sortBy_perm l).symm)
  intro a b ha hb hab hba
  exact h.eq_of_rank (hperm.mem_iff.mp ha) (mem_sortBy.mp hb) (le_antisymm hab hba)

/-- The order of the list that is sorted does not matter. -/
theorem sortBy_congr {l l' : List α} (h : Distinct rank l) (hperm : l'.Perm l) :
    sortBy rank l' = sortBy rank l :=
  sortBy_unique h ((sortBy_perm l').trans hperm) (pairwise_sortBy l')

/-- **Sorting and filtering commute.** -/
theorem sortBy_filter {l : List α} (h : Distinct rank l) (p : α → Bool) :
    sortBy rank (l.filter p) = (sortBy rank l).filter p :=
  (sortBy_unique (h.sublist List.filter_sublist) ((sortBy_perm l).filter p)
    ((pairwise_sortBy l).filter p)).symm

theorem pairwise_lt_sortBy {l : List α} (h : Distinct rank l) :
    (sortBy rank l).Pairwise fun a b ↦ rank a < rank b := by
  have hle : (sortBy rank l).Pairwise fun a b ↦ rank a ≤ rank b := pairwise_sortBy l
  have hne : (sortBy rank l).Pairwise fun a b ↦ rank a ≠ rank b :=
    List.pairwise_map.mp (h.perm (sortBy_perm l))
  exact hle.imp₂ (fun _ _ hab hne ↦ lt_of_le_of_ne hab hne) hne

/-- **What ranks above an element comes after it.** -/
theorem filter_lt_of_eq_append {l before after : List α} {a : α} (h : Distinct rank l)
    (heq : sortBy rank l = before ++ a :: after) :
    (sortBy rank l).filter (fun b ↦ rank a < rank b) = after := by
  have hsorted := pairwise_lt_sortBy h
  rw [heq, List.pairwise_append, List.pairwise_cons] at hsorted
  obtain ⟨-, ⟨hafter, -⟩, hbefore⟩ := hsorted
  have hnone : before.filter (fun b ↦ rank a < rank b) = [] := by
    refine List.filter_eq_nil_iff.mpr fun b hb ↦ ?_
    simpa using (hbefore b hb a (List.mem_cons_self ..)).le
  rw [heq, List.filter_append, hnone, List.nil_append, List.filter_cons_of_neg (by simp),
    List.filter_eq_self.mpr fun b hb ↦ decide_eq_true (hafter b hb)]

/-- The first element has the least rank. -/
theorem le_of_head? {l : List α} {a b : α} (h : (sortBy rank l).head? = some a) (hb : b ∈ l) :
    rank a ≤ rank b := by
  have hsorted : (sortBy rank l).Pairwise fun a b ↦ rank a ≤ rank b := pairwise_sortBy l
  have hmem : b ∈ sortBy rank l := mem_sortBy.mpr hb
  cases hl : sortBy rank l with
  | nil => simp [hl] at h
  | cons c cs =>
    rw [hl] at h hsorted hmem
    obtain rfl : c = a := Option.some.inj h
    rcases List.mem_cons.mp hmem with rfl | hmem
    · exact le_rfl
    · exact List.rel_of_pairwise_cons hsorted hmem

variable (rank) in
/-- The first element in the order of `rank`. -/
def first (l : List α) : Option α := (sortBy rank l).head?

theorem first_spec {l : List α} {a : α} (h : first rank l = some a) :
    a ∈ l ∧ ∀ b ∈ l, rank a ≤ rank b :=
  ⟨mem_sortBy.mp (List.mem_of_mem_head? h), fun _ hb ↦ le_of_head? h hb⟩

theorem first_eq_none_iff {l : List α} : first rank l = none ↔ l = [] := by
  rw [first, List.head?_eq_none_iff, ← List.length_eq_zero_iff, (sortBy_perm l).length_eq,
    List.length_eq_zero_iff]

/-! ## Orders with ties -/

variable (rank) in
/-- `l'` is `l` in an order by rank, with ties in any order. -/
structure Orders (l l' : List α) : Prop where
  perm : l'.Perm l
  sorted : l'.Pairwise fun a b ↦ rank a ≤ rank b

variable (rank) in
/-- A choice of an order by rank for every list. -/
structure Plan where
  order : List α → List α
  orders : ∀ l, Orders rank l (order l)

theorem orders_sortBy (l : List α) : Orders rank l (sortBy rank l) :=
  ⟨sortBy_perm l, pairwise_sortBy l⟩

/-- Ties stay in the order they came in. -/
def Plan.stable : Plan rank := ⟨sortBy rank, orders_sortBy⟩

/-- A plan that chooses a given order for one list. -/
def Plan.choosing [DecidableEq α] {l l' : List α} (h : Orders rank l l') : Plan rank where
  order xs := if xs = l then l' else sortBy rank xs
  orders xs := by
    split
    · rename_i heq
      exact heq ▸ h
    · exact orders_sortBy xs

theorem Plan.choosing_order [DecidableEq α] {l l' : List α} (h : Orders rank l l') :
    (Plan.choosing h).order l = l' :=
  if_pos rfl

variable (rank) in
/-- No tie crosses the place after the first `p` elements: they are the ones up to some rank. -/
def Border (l : List α) (p : Nat) : Prop := ∃ t, (l.filter fun a ↦ rank a ≤ t).length = p

section Orders

variable {l l₁ l₂ : List α} {p q : Nat}

/-- In a sorted list, what ranks up to `t` comes first. -/
theorem filter_le_eq_takeWhile {l : List α} (h : l.Pairwise fun a b ↦ rank a ≤ rank b) (t : β) :
    (l.filter fun a ↦ rank a ≤ t) = l.takeWhile fun a ↦ rank a ≤ t := by
  induction l with
  | nil => rfl
  | cons a l ih =>
    obtain ⟨ha, hl⟩ := List.pairwise_cons.mp h
    by_cases hle : rank a ≤ t
    · rw [List.filter_cons_of_pos (by simpa using hle),
        List.takeWhile_cons_of_pos (by simpa using hle), ih hl]
    · rw [List.takeWhile_cons_of_neg (by simpa using hle), List.filter_eq_nil_iff]
      intro b hb
      rcases List.mem_cons.mp hb with rfl | hb
      · simpa using hle
      · simpa using (not_le.mp hle).trans_le (ha b hb)

theorem Orders.take_eq_filter (h : Orders rank l l₁) {t : β}
    (ht : (l.filter fun a ↦ rank a ≤ t).length = p) : l₁.take p = l₁.filter fun a ↦ rank a ≤ t := by
  rw [← ht, ← (h.perm.filter fun a ↦ decide (rank a ≤ t)).length_eq,
    filter_le_eq_takeWhile h.sorted]
  exact (List.prefix_iff_eq_take.mp (List.takeWhile_prefix _)).symm

/-- **What stands before a border is the same in every order.** -/
theorem Border.take_perm (h : Border rank l p) (h₁ : Orders rank l l₁) (h₂ : Orders rank l l₂) :
    (l₁.take p).Perm (l₂.take p) := by
  obtain ⟨t, ht⟩ := h
  rw [h₁.take_eq_filter ht, h₂.take_eq_filter ht]
  exact (h₁.perm.trans h₂.perm.symm).filter _

/-- Where there is no border, the two neighbours can change places. -/
theorem Orders.swap {before after : List α} {a b : α}
    (h : Orders rank l (before ++ a :: b :: after)) (hno : ¬Border rank l (before.length + 1)) :
    Orders rank l (before ++ b :: a :: after) := by
  obtain ⟨hbefore, hpair, hcross⟩ := List.pairwise_append.mp h.sorted
  obtain ⟨ha, hpair⟩ := List.pairwise_cons.mp hpair
  obtain ⟨hb, hafter⟩ := List.pairwise_cons.mp hpair
  have hab : rank a ≤ rank b := ha b (List.mem_cons_self ..)
  have htie : rank b ≤ rank a := by
    -- Otherwise the elements up to `a` are the ones up to its rank.
    by_contra hstrict
    refine hno ⟨rank a, ?_⟩
    have hkept : before.filter (fun c ↦ rank c ≤ rank a) = before :=
      List.filter_eq_self.mpr fun c hc ↦ decide_eq_true (hcross c hc a (List.mem_cons_self ..))
    have hdropped : (b :: after).filter (fun c ↦ rank c ≤ rank a) = [] := by
      refine List.filter_eq_nil_iff.mpr fun c hc ↦ ?_
      have hbc : rank b ≤ rank c := by
        rcases List.mem_cons.mp hc with rfl | hc
        · exact le_rfl
        · exact hb c hc
      simpa using (not_le.mp hstrict).trans_le hbc
    rw [← (h.perm.filter fun c ↦ decide (rank c ≤ rank a)).length_eq, List.filter_append, hkept,
      List.filter_cons_of_pos (by simp), hdropped, List.length_append, List.length_singleton]
  refine ⟨((List.Perm.swap a b after).append_left before).trans h.perm, ?_⟩
  refine List.pairwise_append.mpr
    ⟨hbefore, List.pairwise_cons.mpr ⟨?_, List.pairwise_cons.mpr ⟨?_, hafter⟩⟩, ?_⟩
  · intro c hc
    rcases List.mem_cons.mp hc with rfl | hc
    · exact htie
    · exact hb c hc
  · exact fun c hc ↦ ha c (List.mem_cons_of_mem _ hc)
  · intro c hc d hd
    rcases List.mem_cons.mp hd with rfl | hd
    · exact hcross c hc d (by simp)
    · rcases List.mem_cons.mp hd with rfl | hd
      · exact hcross c hc d (by simp)
      · exact hcross c hc d (by simp [hd])

end Orders

end Rank
