import Mathlib.Data.List.Sort

/-!
# Transactions

A table whose ids come from a sequence (`SerialTable`), and transactions of statements any of which
can fail (`transact`).  A transaction that fails puts the rows back; the sequences stay where they
are.

What is to be known of a transaction that commits is `Steps`: each statement did what it does.
`Steps.exists_inserts` is that for a list of rows that are inserted into one table, and they come
out of it in that order.
-/

set_option autoImplicit false

universe u v

/-! ## Tables with a sequence -/

/-- The rows with their ids, in the order in which they lie there. -/
structure SerialTable (α : Type u) where
  rows : List (ℕ × α)
  /-- The next value of the sequence. -/
  next : ℕ
  nodup : (rows.map Prod.fst).Nodup
  lt_next : ∀ r ∈ rows, r.1 < next

namespace SerialTable

variable {α : Type u}

def empty : SerialTable α := ⟨[], 1, List.nodup_nil, nofun⟩

/-- `ORDER BY id`. -/
def ordered (t : SerialTable α) : List α :=
  (t.rows.insertionSort fun r r' ↦ r.1 ≤ r'.1).map Prod.snd

/-- `DELETE`, of all rows. -/
def clear (t : SerialTable α) : SerialTable α := ⟨[], t.next, List.nodup_nil, nofun⟩

/-- The sequence gave away an id. -/
def skip (t : SerialTable α) : SerialTable α :=
  { t with next := t.next + 1, lt_next := fun r hr ↦ Nat.lt_succ_of_lt (t.lt_next r hr) }

def push (a : α) (t : SerialTable α) : SerialTable α where
  rows := t.rows ++ [(t.next, a)]
  next := t.next + 1
  nodup := by
    rw [List.map_append, List.map_singleton, List.nodup_append]
    refine ⟨t.nodup, List.nodup_singleton _, fun i hi j hj ↦ ?_⟩
    obtain ⟨r, hr, rfl⟩ := List.mem_map.mp hi
    rw [List.mem_singleton.mp hj]
    exact (t.lt_next r hr).ne
  lt_next := by
    intro r hr
    rcases List.mem_append.mp hr with hr | hr
    · exact Nat.lt_succ_of_lt (t.lt_next r hr)
    · rw [List.mem_singleton.mp hr]
      exact Nat.lt_succ_self _

/-- `INSERT`.  It fails if the row cannot be written, and if there is a row that it clashes with. -/
def insert (clash : α → α → Bool) (row : Option α) (t : SerialTable α) : SerialTable α × Bool :=
  match row with
  | none => (t, false)
  | some a => if t.rows.any fun r ↦ clash r.2 a then (t.skip, false) else (t.push a, true)

/-- The rows of `t`, when a transaction that came to `t'` fails.  No id is given twice. -/
def abort (t t' : SerialTable α) : SerialTable α :=
  { t with
    next := max t.next t'.next
    lt_next := fun r hr ↦ (t.lt_next r hr).trans_le (Nat.le_max_left ..) }

theorem mem_ordered {t : SerialTable α} {a : α} : a ∈ t.ordered ↔ ∃ r ∈ t.rows, r.2 = a := by
  simp only [ordered, List.mem_map, List.mem_insertionSort]

/-- A new row comes last. -/
@[simp] theorem ordered_push (a : α) (t : SerialTable α) :
    (t.push a).ordered = t.ordered ++ [a] := by
  have hsorted :
      (t.rows.insertionSort (fun r r' ↦ r.1 ≤ r'.1) ++ [(t.next, a)]).Pairwise fun r r' ↦
      r.1 ≤ r'.1 := by
    rw [List.pairwise_append]
    refine ⟨List.pairwise_insertionSort .., List.pairwise_singleton .., fun r hr r' hr' ↦ ?_⟩
    rw [List.mem_singleton.mp hr']
    exact (t.lt_next r ((List.mem_insertionSort _).mp hr)).le
  have hperm : ((t.push a).rows.insertionSort fun r r' ↦ r.1 ≤ r'.1).Perm
      (t.rows.insertionSort (fun r r' ↦ r.1 ≤ r'.1) ++ [(t.next, a)]) :=
    (List.perm_insertionSort ..).trans ((List.perm_insertionSort ..).symm.append_right _)
  have heq :=
    hperm.eq_of_pairwise (fun r r' hr hr' hle hge ↦ ?_) (List.pairwise_insertionSort ..) hsorted
  · rw [ordered, heq, List.map_append]
    rfl
  · have hr' := hperm.symm.subset hr'
    exact List.inj_on_of_nodup_map (t.push a).nodup ((List.mem_insertionSort _).mp hr)
      ((List.mem_insertionSort _).mp hr') (le_antisymm hle hge)

/-- What `INSERT` does when it succeeds. -/
theorem insert_eq_true {clash : α → α → Bool} {row : Option α} {t t' : SerialTable α}
    (h : t.insert clash row = (t', true)) :
    ∃ a, row = some a ∧ (∀ b ∈ t.ordered, clash b a = false) ∧ t' = t.push a := by
  unfold SerialTable.insert at h
  split at h
  · cases h
  · rename_i a
    split at h
    · cases h
    · rename_i hclash
      cases h
      refine ⟨a, rfl, fun b hb ↦ ?_, rfl⟩
      obtain ⟨r, hr, rfl⟩ := mem_ordered.mp hb
      have hall : ∀ r ∈ t.rows, clash r.2 a = false := by simpa using hclash
      exact hall r hr

end SerialTable

/-! ## Statements -/

namespace Transaction

variable {σ : Type u} {S : Type v}

/-- The statements one after the other, up to the first that fails.  `fault i` is a failure of the
`i`-th one that has nothing to do with what it does. -/
def run (exec : σ → S → σ × Bool) (fault : ℕ → Bool) : ℕ → List S → σ → σ × Bool
  | _, [], s => (s, true)
  | i, st :: sts, s =>
    if fault i then (s, false)
    else
      match exec s st with
      | (s', true) => run exec fault (i + 1) sts s'
      | (s', false) => (s', false)

/-- **A transaction.**  The last thing that can fail is the commit. -/
def transact (exec : σ → S → σ × Bool) (abort : σ → σ → σ) (fault : ℕ → Bool) (i : ℕ)
    (sts : List S) (s : σ) : σ × Bool :=
  match run exec fault i sts s with
  | (s', true) => if fault (i + sts.length) then (abort s s', false) else (s', true)
  | (s', false) => (abort s s', false)

/-- All statements succeed. -/
inductive Steps (exec : σ → S → σ × Bool) : σ → List S → σ → Prop
  | nil {s : σ} : Steps exec s [] s
  | cons {s s' s'' : σ} {st : S} {sts : List S} (h : exec s st = (s', true))
      (hsteps : Steps exec s' sts s'') : Steps exec s (st :: sts) s''

variable {exec : σ → S → σ × Bool} {abort : σ → σ → σ} {fault : ℕ → Bool}

theorem steps_of_run {sts : List S} {i : ℕ} {s s' : σ} (h : run exec fault i sts s = (s', true)) :
    Steps exec s sts s' := by
  induction sts generalizing i s with
  | nil =>
    cases h
    exact .nil
  | cons st sts ih =>
    rw [run] at h
    split at h
    · cases h
    · split at h
      · rename_i hst
        exact .cons hst (ih h)
      · cases h

theorem steps_of_transact {sts : List S} {i : ℕ} {s s' : σ}
    (h : transact exec abort fault i sts s = (s', true)) : Steps exec s sts s' := by
  rw [transact] at h
  split at h
  · rename_i hrun
    split at h
    · cases h
    · cases h
      exact steps_of_run hrun
  · cases h

/-- **A transaction that fails is aborted**, wherever it fails. -/
theorem abort_of_transact {sts : List S} {i : ℕ} {s s' : σ}
    (h : transact exec abort fault i sts s = (s', false)) : ∃ s'', s' = abort s s'' := by
  rw [transact] at h
  split at h
  · split at h
    · cases h
      exact ⟨_, rfl⟩
    · cases h
  · cases h
    exact ⟨_, rfl⟩

theorem run_of_steps {sts : List S} {i : ℕ} {s s' : σ} (h : Steps exec s sts s')
    (hfault : ∀ j, i ≤ j → j < i + sts.length → fault j = false) :
    run exec fault i sts s = (s', true) := by
  induction h generalizing i with
  | nil => rfl
  | @cons s s₁ s' st sts hst _ ih =>
    have hfirst : fault i = false := hfault i le_rfl (by simp)
    have hrest : run exec fault (i + 1) sts s₁ = (s', true) :=
      ih fun j hle hlt ↦ hfault j (by omega) (by rw [List.length_cons]; omega)
    simp only [run, hfirst, hst, Bool.false_eq_true, if_false, hrest]

/-- **A transaction of statements that succeed commits**, unless something else fails. -/
theorem transact_of_steps {sts : List S} {i : ℕ} {s s' : σ} (h : Steps exec s sts s')
    (hfault : ∀ j, i ≤ j → j ≤ i + sts.length → fault j = false) :
    transact exec abort fault i sts s = (s', true) := by
  have hcommit : fault (i + sts.length) = false := hfault _ (by omega) le_rfl
  rw [transact, run_of_steps h fun j hle hlt ↦ hfault j hle hlt.le]
  simp only [hcommit, Bool.false_eq_true, if_false]

theorem run_of_fault {sts : List S} {i j : ℕ} {s : σ} (hj : fault j = true) (hle : i ≤ j)
    (hlt : j < i + sts.length) : (run exec fault i sts s).2 = false := by
  induction sts generalizing i s with
  | nil =>
    rw [List.length_nil] at hlt
    omega
  | cons st sts ih =>
    rw [run]
    split
    · rfl
    · rename_i hfirst
      have hne : i ≠ j := fun heq ↦ hfirst (heq ▸ hj)
      rw [List.length_cons] at hlt
      split
      · exact ih (by omega) (by omega)
      · rfl

/-- A fault anywhere in a transaction fails it. -/
theorem transact_of_fault {sts : List S} {i j : ℕ} {s : σ} (hj : fault j = true) (hle : i ≤ j)
    (hlt : j ≤ i + sts.length) : (transact exec abort fault i sts s).2 = false := by
  rcases hrun : run exec fault i sts s with ⟨s', ok⟩
  rw [transact, hrun]
  cases ok with
  | false => rfl
  | true =>
    rcases hlt.lt_or_eq with hlt | rfl
    · have hfalse : (run exec fault i sts s).2 = false := run_of_fault hj hle hlt
      rw [hrun] at hfalse
      cases hfalse
    · simp only [hj, if_true]

theorem steps_append {sts sts' : List S} {s s'' : σ} :
    Steps exec s (sts ++ sts') s'' ↔ ∃ s', Steps exec s sts s' ∧ Steps exec s' sts' s'' := by
  constructor
  · intro h
    induction sts generalizing s with
    | nil => exact ⟨s, .nil, h⟩
    | cons st sts ih =>
      rcases h with _ | ⟨hst, h⟩
      obtain ⟨s', hs', h⟩ := ih h
      exact ⟨s', .cons hst hs', h⟩
  · rintro ⟨s', h, h'⟩
    induction h with
    | nil => exact h'
    | cons hst _ ih => exact .cons hst (ih h')

theorem Steps.single {st : S} {s s' : σ} (h : Steps exec s [st] s') : exec s st = (s', true) := by
  rcases h with _ | ⟨hst, h⟩
  rcases h with _ | _
  exact hst

/-- **Rows that are inserted one after the other.**  `put t` is the state with the table `t`.  Those
of a table without clashes do not clash. -/
theorem Steps.exists_inserts {α ρ : Type} {put : SerialTable ρ → σ} {st : α → S}
    {row : α → Option ρ} {clash : ρ → ρ → Bool}
    (hexec : ∀ t a, exec (put t) (st a) = (t.insert clash (row a)).map put id) {as : List α}
    {t : SerialTable ρ} {s : σ} (h : Steps exec (put t) (as.map st) s) :
    ∃ t' rs, s = put t' ∧ t'.ordered = t.ordered ++ rs ∧
    List.Forall₂ (fun a r ↦ row a = some r) as rs ∧
      (t.ordered.Pairwise (fun r r' ↦ clash r r' = false) →
        t'.ordered.Pairwise fun r r' ↦ clash r r' = false) := by
  induction as generalizing t with
  | nil =>
    rcases h with _ | _
    exact ⟨t, [], rfl, (List.append_nil _).symm, .nil, id⟩
  | cons a as ih =>
    rcases h with _ | ⟨hst, h⟩
    rw [hexec] at hst
    rcases hinsert : t.insert clash (row a) with ⟨t₁, ok⟩
    rw [hinsert] at hst
    cases hst
    obtain ⟨r, hr, hclash, rfl⟩ := SerialTable.insert_eq_true hinsert
    obtain ⟨t', rs, rfl, hordered, hrows, hunique⟩ := ih h
    refine ⟨t', r :: rs, rfl, ?_, .cons hr hrows, fun ht ↦ hunique ?_⟩
    · rw [hordered, SerialTable.ordered_push, List.append_assoc]
      rfl
    · rw [SerialTable.ordered_push, List.pairwise_append]
      refine ⟨ht, List.pairwise_singleton .., fun b hb r' hr' ↦ ?_⟩
      exact List.mem_singleton.mp hr' ▸ hclash b hb

end Transaction
