import Mathlib.Algebra.BigOperators.Group.Finset.Basic
import Mathlib.Data.List.NodupEquivFin
import Mathlib.Tactic.Linarith

/-!
# Shares

Parties that come one after the other each take a share of the same amount, rounded up, and divide
it by how many they are at that time.  Shares are not taken back: whoever came early keeps a large
one.

* `Shares.Graded` is what there is to say about the counts: the first is at least one, the second at
  least two, and so on.  It stays so when some of the parties leave (`Shares.Graded.sublist`).
* `Shares.Graded.sum_le` bounds what the parties have together by what they would have if the counts
  were `1, 2, 3, …`.
* `Shares.le_mul_sum` bounds it from below, where no count was more than `most`.
-/

set_option autoImplicit false

namespace Shares

/-! ## Counts -/

/-- The `k`-th of the list is at least `k`. -/
def Graded (counts : List Nat) : Prop := ∀ i n, counts[i]? = some n → i + 1 ≤ n

theorem graded_nil : Graded [] := by
  intro i n h
  simp at h

theorem Graded.sublist {counts counts' : List Nat} (h : Graded counts)
    (hsub : counts'.Sublist counts) : Graded counts' := by
  obtain ⟨f, hf⟩ := List.sublist_iff_exists_orderEmbedding_getElem?_eq.mp hsub
  intro i n hn
  rw [hf] at hn
  have hle : i ≤ f i := f.strictMono.le_apply
  exact (Nat.succ_le_succ hle).trans (h _ _ hn)

theorem graded_concat {counts : List Nat} {n : Nat} :
    Graded (counts ++ [n]) ↔ Graded counts ∧ counts.length + 1 ≤ n := by
  constructor
  · intro h
    exact ⟨h.sublist (List.sublist_append_left _ _), h _ _ (by simp)⟩
  · rintro ⟨h, hn⟩ i m him
    rcases Nat.lt_trichotomy i counts.length with hi | rfl | hi
    · rw [List.getElem?_append_left hi] at him
      exact h i m him
    · obtain rfl : n = m := by simpa using him
      exact hn
    · simp [List.getElem?_append_right hi.le, show i - counts.length ≠ 0 by omega] at him

theorem Graded.pos {counts : List Nat} (h : Graded counts) {n : Nat} (hn : n ∈ counts) : 1 ≤ n := by
  obtain ⟨i, hi⟩ := List.getElem?_of_mem hn
  exact (Nat.le_add_left 1 i).trans (h i n hi)

/-- What decreases with the count sums up to no more than over `1, 2, 3, …`. -/
theorem Graded.sum_le {g : Nat → Int} (hg : ∀ m n, 1 ≤ m → m ≤ n → g n ≤ g m) {counts : List Nat}
    (h : Graded counts) : (counts.map g).sum ≤ ∑ k ∈ Finset.range counts.length, g (k + 1) := by
  induction counts using List.reverseRecOn with
  | nil => simp
  | append_singleton counts n ih =>
    obtain ⟨hcounts, hn⟩ := graded_concat.mp h
    rw [List.map_append, List.sum_append, List.length_append, List.length_singleton,
      Finset.sum_range_succ]
    have hlast := hg _ n (Nat.le_add_left 1 counts.length) hn
    simpa using add_le_add (ih hcounts) hlast

/-! ## Rounding up -/

/-- `ceil(v/n)`. -/
def ceilDiv (v : Int) (n : Nat) : Int := (v + n - 1) / n

theorem le_ceilDiv_mul (v : Int) {n : Nat} (hn : 1 ≤ n) : v ≤ ceilDiv v n * n := by
  have hpos : (0 : Int) < n := by omega
  have h := Int.lt_ediv_add_one_mul_self (v + n - 1) hpos
  rw [add_mul, one_mul] at h
  have : v ≤ (v + n - 1) / n * n := by omega
  exact this

theorem ceilDiv_le {v q : Int} {n : Nat} (hn : 1 ≤ n) (h : v ≤ q * n) : ceilDiv v n ≤ q := by
  have hpos : (0 : Int) < n := by omega
  refine Int.lt_add_one_iff.mp (Int.ediv_lt_of_lt_mul hpos ?_)
  rw [add_mul, one_mul]
  omega

theorem ceilDiv_pos {v : Int} (hv : 0 < v) {n : Nat} (hn : 1 ≤ n) : 0 < ceilDiv v n := by
  by_contra hneg
  have hle := le_ceilDiv_mul v hn
  have hmul : ceilDiv v n * n ≤ 0 := Int.mul_nonpos_of_nonpos_of_nonneg (not_lt.mp hneg) (by omega)
  omega

theorem ceilDiv_anti {v : Int} (hv : 0 < v) {m n : Nat} (hm : 1 ≤ m) (hmn : m ≤ n) :
    ceilDiv v n ≤ ceilDiv v m := by
  refine ceilDiv_le (hm.trans hmn) ((le_ceilDiv_mul v hm).trans ?_)
  exact Int.mul_le_mul_of_nonneg_left (by omega) (ceilDiv_pos hv hm).le

/-- Parties that counted at most `most` each have together as many parts in `most` as they are. -/
theorem le_mul_sum {v : Int} (hv : 0 < v) {counts : List Nat} {most : Nat}
    (hcounts : ∀ n ∈ counts, 1 ≤ n ∧ n ≤ most) :
    counts.length * v ≤ most * (counts.map (ceilDiv v)).sum := by
  induction counts with
  | nil => simp
  | cons n counts ih =>
    obtain ⟨hone, hmost⟩ := hcounts n (List.mem_cons_self ..)
    have hrest := ih fun m hm ↦ hcounts m (List.mem_cons_of_mem _ hm)
    have hshare : v ≤ most * ceilDiv v n := by
      refine (le_ceilDiv_mul v hone).trans ?_
      rw [mul_comm]
      exact Int.mul_le_mul_of_nonneg_right (by omega) (ceilDiv_pos hv hone).le
    rw [List.length_cons, List.map_cons, List.sum_cons, mul_add]
    push_cast
    linarith

end Shares
