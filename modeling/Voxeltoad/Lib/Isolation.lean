import Voxeltoad.Lib.Run

/-!
# A party that cannot tell whether it is alone

A machine serves several parties, and each operation is one party's.  `Run.answersTo` is what one of
them is answered over a run.  `view` is what the state holds of that party, and it is the state of a
machine of its own.

`Run.alone` reduces that the party cannot tell whether it is alone to two facts about single steps:
an operation of its own does the same to the view as the machine of its own, and any other operation
leaves the view as it is.

The tables of such a machine are lists of rows, and the view of a table is a filter.
-/

set_option autoImplicit false

namespace Run

variable {σ τ ο α : Type*}

/-- The state that an operation leaves. -/
def after (f : σ → ο → α × σ) (s : σ) (o : ο) : σ := (f s o).2

/-- What the operations of one party are answered with. -/
def answersTo (own : ο → Bool) (f : σ → ο → α × σ) : σ → List ο → List α
  | _, [] => []
  | s, o :: ops => if own o then (f s o).1 :: answersTo own f (after f s o) ops
    else answersTo own f (after f s o) ops

/-- **A party is answered as if it were alone**, and the view of what it leaves is what it would
leave alone.  `I` is an invariant of the machine, and `A` a side condition on its operations. -/
theorem alone {own : ο → Bool} {f : σ → ο → α × σ} {g : τ → ο → α × τ} {view : σ → τ} {I : σ → Prop}
    {A : σ → ο → Prop} (hI : ∀ s o, I s → I (after f s o))
    (hown : ∀ s o, I s → A s o → own o = true → g (view s) o = ((f s o).1, view (after f s o)))
    (hother : ∀ s o, I s → own o = false → view (after f s o) = view s) {s : σ}
    {ops : List ο} (hs : I s) (hA : Along (after f) A s ops) :
    answersTo own f s ops = answers g (view s) (ops.filter own) ∧
      view (run (after f) s ops) = run (after g) (view s) (ops.filter own) := by
  induction ops generalizing s with
  | nil => exact ⟨rfl, rfl⟩
  | cons o ops ih =>
    obtain ⟨hanswers, hview⟩ := ih (hI s o hs) hA.2
    cases ho : own o with
    | true =>
      have hstep := hown s o hs hA.1 ho
      have hafter : after g (view s) o = view (after f s o) := congrArg Prod.snd hstep
      rw [List.filter_cons_of_pos ho, answersTo, if_pos ho, answers, run_cons, run_cons,
        hafter, hview, hstep, hanswers]
      exact ⟨rfl, rfl⟩
    | false =>
      have hneg : ¬ own o = true := by rw [ho]; exact Bool.false_ne_true
      rw [List.filter_cons_of_neg hneg, answersTo, if_neg hneg, run_cons, ← hother s o hs ho]
      exact ⟨hanswers, hview⟩

end Run

namespace Isolation

open List

variable {ρ : Type*} {P Q : ρ → Bool} {rows : List ρ}

/-- Rows that are not of the view may change, as long as they do not come into it. -/
theorem filter_map_of_other {f : ρ → ρ} (hf : ∀ r, f r = r ∨ Q r = false ∧ Q (f r) = false)
    (rows : List ρ) : (rows.map f).filter Q = rows.filter Q := by
  induction rows with
  | nil => rfl
  | cons r rows ih =>
    rw [map_cons, filter_cons, filter_cons, ih]
    rcases hf r with hr | ⟨hr, hfr⟩
    · rw [hr]
    · rw [hr, hfr]
      rfl

theorem filter_filter_of_imp (hPQ : ∀ r ∈ rows, P r = true → Q r = true) :
    (rows.filter Q).filter P = rows.filter P := by
  rw [filter_filter]
  refine filter_congr fun r hr ↦ ?_
  rw [Bool.eq_iff_iff, Bool.and_eq_true]
  exact ⟨And.left, fun hP ↦ ⟨hP, hPQ r hr hP⟩⟩

end Isolation
