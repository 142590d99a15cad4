import Mathlib.Data.List.Induction

/-!
# Runs of a state machine

A machine here is a total function `step : σ → ο → σ`: an operation that fails is one that leaves
the state alone.  A run is a list of operations, and since the operations of all the parties are
drawn from one type `ο`, a statement about every list is a statement about every interleaving.

`Run.invariant` is induction over a run.  `Run.Along A s ops` says that every operation of the run
met the side condition `A` in the state it was taken in, for properties that hold only as long as
the environment behaves; `Run.invariant_along` is the induction rule under such a condition.

Some properties are about the *past*: what is held now was true at some earlier instant.
`Run.visited` is the list of the states a run went through, and `Run.invariant_past` is induction
over a run for a property of a state and the states before it.  `Run.both` is two runs taken side by
side, for properties that compare them.

An operation may also be answered.  `Run.answers` is what a machine answers over a run, and
`Run.answers_eq` the rule for two machines that answer the same.
-/

set_option autoImplicit false

namespace Run

universe u v

variable {σ : Type u} {ο : Type v} (step : σ → ο → σ)

/-- The state after the operations `ops`. -/
def run (s : σ) (ops : List ο) : σ := ops.foldl step s

@[simp] theorem run_nil (s : σ) : run step s [] = s := rfl

@[simp] theorem run_cons (s : σ) (o : ο) (ops : List ο) :
    run step s (o :: ops) = run step (step s o) ops := rfl

theorem run_append (s : σ) (ops ops' : List ο) :
    run step s (ops ++ ops') = run step (run step s ops) ops' :=
  List.foldl_append

theorem run_concat (s : σ) (ops : List ο) (o : ο) :
    run step s (ops ++ [o]) = step (run step s ops) o := by
  rw [run_append]; rfl

/-- Every operation of the run met `A` in the state it was taken in. -/
def Along (A : σ → ο → Prop) : σ → List ο → Prop
  | _, [] => True
  | s, o :: ops => A s o ∧ Along A (step s o) ops

instance decidableAlong (A : σ → ο → Prop) [∀ s o, Decidable (A s o)] :
    ∀ s ops, Decidable (Along step A s ops)
  | _, [] => .isTrue trivial
  | s, o :: ops =>
    have := decidableAlong A (step s o) ops
    inferInstanceAs (Decidable (_ ∧ _))

variable {step}

/-- **Induction over a run**, under a side condition on its steps. -/
theorem invariant_along {A : σ → ο → Prop} {I : σ → Prop}
    (hstep : ∀ s o, A s o → I s → I (step s o)) {s : σ} {ops : List ο}
    (hA : Along step A s ops) (h : I s) : I (run step s ops) := by
  induction ops generalizing s with
  | nil => exact h
  | cons o ops ih => exact ih hA.2 (hstep s o hA.1 h)

/-- **Induction over a run.** -/
theorem invariant {I : σ → Prop} (hstep : ∀ s o, I s → I (step s o)) {s : σ} (ops : List ο)
    (h : I s) : I (run step s ops) := by
  induction ops generalizing s with
  | nil => exact h
  | cons o ops ih => exact ih (hstep s o h)

/-! ## The past of a state -/

variable (step) in
/-- The states of a run, the first and the last included. -/
def visited (s : σ) : List ο → List σ
  | [] => [s]
  | o :: ops => s :: visited (step s o) ops

theorem visited_concat (s : σ) (ops : List ο) (o : ο) :
    visited step s (ops ++ [o]) = visited step s ops ++ [step (run step s ops) o] := by
  induction ops generalizing s with
  | nil => rfl
  | cons o' ops ih => rw [List.cons_append, visited, ih]; rfl

theorem run_mem_visited (s : σ) (ops : List ο) : run step s ops ∈ visited step s ops := by
  induction ops generalizing s with
  | nil => exact List.mem_singleton.mpr rfl
  | cons o ops ih => exact List.mem_cons_of_mem _ (ih (step s o))

/-- A state a run went through came up in its first part or in its second. -/
theorem mem_visited_append {s p : σ} {ops ops' : List ο} (h : p ∈ visited step s (ops ++ ops')) :
    p ∈ visited step s ops ∨ p ∈ visited step (run step s ops) ops' := by
  induction ops generalizing s with
  | nil => exact .inr h
  | cons o ops ih =>
    rw [List.cons_append] at h
    rcases List.mem_cons.mp h with rfl | h
    · exact .inl (List.mem_cons_self ..)
    · rcases ih h with h | h
      · exact .inl (List.mem_cons_of_mem _ h)
      · exact .inr h

theorem along_concat {A : σ → ο → Prop} {s : σ} {ops : List ο} {o : ο} :
    Along step A s (ops ++ [o]) ↔ Along step A s ops ∧ A (run step s ops) o := by
  induction ops generalizing s with
  | nil => exact ⟨fun h ↦ ⟨trivial, h.1⟩, fun h ↦ ⟨h.2, trivial⟩⟩
  | cons o' ops ih =>
    rw [List.cons_append]
    exact ⟨fun h ↦ ⟨⟨h.1, (ih.mp h.2).1⟩, (ih.mp h.2).2⟩, fun h ↦ ⟨h.1.1, ih.mpr ⟨h.1.2, h.2⟩⟩⟩

/-- **Induction over a run and its past**, under a side condition on its steps.  `P past s` is what
holds in state `s` when the run went through the states `past` to get there, `s` included. -/
theorem invariant_past_along {A : σ → ο → Prop} {P : List σ → σ → Prop}
    (hstep : ∀ past s o, A s o → s ∈ past → P past s → P (past ++ [step s o]) (step s o)) {s : σ}
    (h : P [s] s) {ops : List ο} (hA : Along step A s ops) :
    P (visited step s ops) (run step s ops) := by
  induction ops using List.reverseRecOn with
  | nil => exact h
  | append_singleton ops o ih =>
    obtain ⟨hA, ho⟩ := along_concat.mp hA
    rw [visited_concat, run_concat]
    exact hstep _ _ o ho (run_mem_visited s ops) (ih hA)

/-- Two side conditions that an invariant makes equivalent. -/
theorem along_iff {A B : σ → ο → Prop} {J : σ → Prop} (hJ : ∀ s o, J s → J (step s o))
    (h : ∀ s o, J s → (A s o ↔ B s o)) {s : σ} {ops : List ο} (hs : J s) :
    Along step A s ops ↔ Along step B s ops := by
  induction ops generalizing s with
  | nil => exact Iff.rfl
  | cons o ops ih => exact and_congr (h s o hs) (ih (hJ s o hs))

/-- A condition on the operations alone. -/
theorem along_of_forall {A : ο → Prop} {ops : List ο} (h : ∀ o ∈ ops, A o) (s : σ) :
    Along step (fun _ o ↦ A o) s ops := by
  induction ops generalizing s with
  | nil => trivial
  | cons o ops ih =>
      exact ⟨h o (List.mem_cons_self ..), ih (fun o' ho' ↦ h o' (List.mem_cons_of_mem _ ho')) _⟩

theorem along_true (s : σ) (ops : List ο) : Along step (fun _ _ ↦ True) s ops :=
  along_of_forall (fun _ _ ↦ trivial) s

/-- **Induction over a run and its past.** -/
theorem invariant_past {P : List σ → σ → Prop}
    (hstep : ∀ past s o, s ∈ past → P past s → P (past ++ [step s o]) (step s o)) {s : σ}
    (h : P [s] s) (ops : List ο) : P (visited step s ops) (run step s ops) :=
  invariant_past_along (fun past s o _ ↦ hstep past s o) h (along_true s ops)

/-- Under a side condition, an invariant holds in every state the run goes through. -/
theorem invariant_visited {A : σ → ο → Prop} {I : σ → Prop}
    (hstep : ∀ s o, A s o → I s → I (step s o)) {s : σ} {ops : List ο}
    (hA : Along step A s ops) (h : I s) : ∀ p ∈ visited step s ops, I p := by
  induction ops generalizing s with
  | nil =>
    intro p hp
    rw [List.mem_singleton.mp hp]
    exact h
  | cons o ops ih =>
    intro p hp
    rcases List.mem_cons.mp hp with rfl | hp
    · exact h
    · exact ih hA.2 (hstep s o hA.1 h) p hp

/-- Every state a run goes through holds what the run keeps up.  `R rest s` is what holds in state
`s` when `rest` is still to be done. -/
theorem visited_rest {R : List ο → σ → Prop}
    (hstep : ∀ o rest s, R (o :: rest) s → R rest (step s o))
    {ops : List ο} {s : σ} (h : R ops s) : ∀ p ∈ visited step s ops, ∃ rest, R rest p := by
  induction ops generalizing s with
  | nil =>
    intro p hp
    rw [List.mem_singleton.mp hp]
    exact ⟨[], h⟩
  | cons o ops ih =>
    intro p hp
    rcases List.mem_cons.mp hp with rfl | hp
    · exact ⟨o :: ops, h⟩
    · exact ih (hstep o ops s h) p hp

/-- When a side condition is *exactly* what a step needs, it is exactly what a run needs: a
property holds in every state the run goes through iff every step met the condition.  `J` is an
invariant of the machine that the step may rely on. -/
theorem visited_iff_along {A : σ → ο → Prop} {I J : σ → Prop} (hJ : ∀ s o, J s → J (step s o))
    (hstep : ∀ s o, J s → I s → (I (step s o) ↔ A s o)) {s : σ} {ops : List ο} (hs : J s)
    (h : I s) : (∀ p ∈ visited step s ops, I p) ↔ Along step A s ops := by
  constructor
  · induction ops generalizing s with
    | nil => exact fun _ ↦ trivial
    | cons o ops ih =>
      intro hall
      have hnext : I (step s o) := by
        refine hall _ (List.mem_cons_of_mem _ ?_)
        cases ops <;> exact List.mem_cons_self ..
      refine ⟨(hstep s o hs h).mp hnext, ?_⟩
      exact ih (hJ s o hs) hnext fun p hp ↦ hall p (List.mem_cons_of_mem _ hp)
  · intro hA p hp
    have hboth : ∀ p ∈ visited step s ops, J p ∧ I p :=
      invariant_visited (fun s o hA hI ↦ ⟨hJ s o hI.1, (hstep s o hI.1 hI.2).mpr hA⟩) hA ⟨hs, h⟩
    exact (hboth p hp).2

/-! ## Two runs side by side

A property of two runs is a property of one run of the machine that takes both steps at once. -/

variable (step) in
/-- One step of each run. -/
def both (p : σ × σ) (o : ο × ο) : σ × σ := (step p.1 o.1, step p.2 o.2)

/-! ## Machines that answer -/

variable {τ : Type*} {α : Type*}

/-- What a machine answers, operation by operation. -/
def answers (f : σ → ο → α × σ) : σ → List ο → List α
  | _, [] => []
  | s, o :: ops => (f s o).1 :: answers f (f s o).2 ops

/-- **Two machines that answer the same.**  `R rest s t` is what holds between their states when
`rest` is still to be done. -/
theorem answers_eq {f : σ → ο → α × σ} {g : τ → ο → α × τ} (R : List ο → σ → τ → Prop)
    (hstep : ∀ o rest s t, R (o :: rest) s t → (f s o).1 = (g t o).1 ∧ R rest (f s o).2 (g t o).2)
    {ops : List ο} {s : σ} {t : τ} (h : R ops s t) : answers f s ops = answers g t ops := by
  induction ops generalizing s t with
  | nil => rfl
  | cons o ops ih =>
    obtain ⟨hanswer, hrest⟩ := hstep o ops s t h
    rw [answers, answers, hanswer, ih hrest]

theorem answers_map {β : Type*} {f : σ → ο → α × σ} (φ : α → β) (s : σ) (ops : List ο) :
    (answers f s ops).map φ = answers (fun s o ↦ (φ (f s o).1, (f s o).2)) s ops := by
  induction ops generalizing s with
  | nil => rfl
  | cons o ops ih => rw [answers, answers, List.map_cons, ih]

end Run
