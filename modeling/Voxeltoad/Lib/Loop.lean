import Mathlib.Data.List.Basic
import Mathlib.Data.List.Pairwise

/-!
# Loops that can fail

A transaction is a function `σ → Except ε σ`, and a loop inside one is a `List.foldlM`: it runs a
step over the elements of a list and stops at the first error.  This file has the rules such
loops are reasoned about with.

* `Loop.foldlM_rec` is the invariant rule.  The invariant may mention what is left to do, which is
  how a loop over rows that were *read before the loop* is handled: it says that the rows still to
  come are still what was read.
* `Loop.foldlM_ok_iff` is the rule for guarded loops whose iterations do not get in each other's
  way.  If the guard of a later iteration is not affected by an earlier one, the loop succeeds
  exactly when every guard holds *at the start*.  `Loop.foldlM_ok_iff_forall` is the case of guards
  that do not look at the state.
-/

set_option autoImplicit false

namespace Loop

universe u v w

variable {ε : Type u} {σ : Type v} {ι : Type w}

/-- Peeling one statement off a sequence. -/
theorem bind_eq_ok {α β : Type v} {x : Except ε α} {f : α → Except ε β} {b : β} :
    (x >>= f) = .ok b ↔ ∃ a, x = .ok a ∧ f a = .ok b := by
  cases x with
  | error e =>
    constructor
    · intro h
      cases h
    · rintro ⟨a, ha, -⟩
      cases ha
  | ok a =>
    refine ⟨fun h ↦ ⟨a, rfl, h⟩, ?_⟩
    rintro ⟨a', ha, hf⟩
    cases ha
    exact hf

theorem map_eq_ok {α β : Type v} {x : Except ε α} {f : α → β} {b : β} :
    x.map f = .ok b ↔ ∃ a, x = .ok a ∧ f a = b := by
  cases x with
  | error e => simp [Except.map]
  | ok a => simp [Except.map]

/-- **The invariant rule.**  `P rest s` is what holds in state `s` when `rest` is still to be
done. -/
theorem foldlM_rec {step : σ → ι → Except ε σ} (P : List ι → σ → Prop)
    (hstep : ∀ i rest s s', P (i :: rest) s → step s i = .ok s' → P rest s')
    {l : List ι} {s s' : σ} (h : l.foldlM step s = .ok s') (hP : P l s) : P [] s' := by
  induction l generalizing s with
  | nil =>
    rw [List.foldlM_nil] at h
    cases h
    exact hP
  | cons i rest ih =>
    rw [List.foldlM_cons] at h
    obtain ⟨s₁, h₁, h₂⟩ := bind_eq_ok.mp h
    exact ih h₂ (hstep i rest s s₁ hP h₁)

/-- **Guarded loops with independent iterations.**  An iteration succeeds iff its guard `ok` holds.
When earlier iterations leave the guards of later ones alone, whether the loop succeeds is decided
by the state it starts in.  `I` is an invariant of the loop that all this may rely on. -/
theorem foldlM_ok_iff {step : σ → ι → Except ε σ} {ok : ι → σ → Prop} {I : σ → Prop} {l : List ι}
    (hok : ∀ i ∈ l, ∀ s, I s → ((∃ s', step s i = .ok s') ↔ ok i s))
    (hI : ∀ i ∈ l, ∀ s s', I s → step s i = .ok s' → I s')
    (hind : l.Pairwise fun i j ↦ ∀ s s', I s → step s i = .ok s' → (ok j s' ↔ ok j s))
    {s : σ} (hs : I s) : (∃ s', l.foldlM step s = .ok s') ↔ ∀ i ∈ l, ok i s := by
  induction l generalizing s with
  | nil => exact ⟨fun _ ↦ by simp, fun _ ↦ ⟨s, rfl⟩⟩
  | cons i rest ih =>
    obtain ⟨hi, hrest⟩ := List.pairwise_cons.mp hind
    have hhead : i ∈ i :: rest := List.mem_cons_self ..
    have htail := fun {s : σ} ↦ @ih (fun j hj ↦ hok j (List.mem_cons_of_mem _ hj))
      (fun j hj ↦ hI j (List.mem_cons_of_mem _ hj)) hrest s
    constructor
    · rintro ⟨s', h⟩
      rw [List.foldlM_cons] at h
      obtain ⟨s₁, h₁, h₂⟩ := bind_eq_ok.mp h
      have hall := (htail (hI i hhead s s₁ hs h₁)).mp ⟨s', h₂⟩
      intro j hj
      rcases List.mem_cons.mp hj with rfl | hj
      · exact (hok j hhead s hs).mp ⟨s₁, h₁⟩
      · exact (hi j hj s s₁ hs h₁).mp (hall j hj)
    · intro hall
      obtain ⟨s₁, h₁⟩ := (hok i hhead s hs).mpr (hall i hhead)
      obtain ⟨s', h₂⟩ := (htail (hI i hhead s s₁ hs h₁)).mpr fun j hj ↦
        (hi j hj s s₁ hs h₁).mpr (hall j (List.mem_cons_of_mem _ hj))
      refine ⟨s', ?_⟩
      rw [List.foldlM_cons]
      exact bind_eq_ok.mpr ⟨s₁, h₁, h₂⟩

/-- **Guarded loops whose guards do not look at the state.** -/
theorem foldlM_ok_iff_forall {step : σ → ι → Except ε σ} {ok : ι → Prop} {l : List ι}
    (hok : ∀ i ∈ l, ∀ s, (∃ s', step s i = .ok s') ↔ ok i) (s : σ) :
    (∃ s', l.foldlM step s = .ok s') ↔ ∀ i ∈ l, ok i :=
  foldlM_ok_iff (I := fun _ ↦ True) (fun i hi s _ ↦ hok i hi s) (fun _ _ _ _ _ _ ↦ trivial)
    (List.pairwise_of_forall fun _ _ _ _ _ _ ↦ Iff.rfl) trivial

end Loop
