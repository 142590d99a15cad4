import Mathlib.Algebra.BigOperators.Group.List.Basic
import Mathlib.Algebra.GroupWithZero.Nat
import Mathlib.Data.List.Dedup
import Voxeltoad.Lib.Rank

/-!
# Queries with placeholders

A `SELECT` with a list of conditions that all have to hold.  The values stand apart from the
conditions, in a list of arguments: each condition takes as many of them as it has placeholders, in
order, and what is left is for the clauses after `WHERE`.  So an argument too few or too many is an
error, and one out of step changes what is selected.

A comparison with `NULL` is unknown, and a row is selected only if every condition is true of it, so
a condition here simply says whether it is true.

`Sql.Where` is put together step by step.  `Sql.Where.Means` says that its arguments are in step,
and which rows it selects; every step keeps that up, and the queries are then what one expects
(`Sql.Where.Means.count`, `Sql.Where.Means.limit`, `Sql.Where.Means.limitOffset`).
-/

set_option autoImplicit false

namespace Sql

/-- A value of a column, or an argument. -/
inductive Value where
  | null
  | bool (b : Bool)
  | int (n : Int)
  | text (s : String)
  | time (t : Int)
  deriving DecidableEq, Repr

namespace Value

/-- Whether a comparison is true. -/
def lt : Value → Value → Bool
  | int m, int n => m < n
  | time s, time t => s < t
  | _, _ => false

/-- Whether two values are equal; `NULL` equals nothing. -/
def eq (v w : Value) : Bool := v = w ∧ v ≠ null

/-- A column that may be `NULL`. -/
def nullable {α : Type} (value : α → Value) : Option α → Value
  | none => null
  | some a => value a

@[simp] theorem lt_int (m n : Int) : (int m).lt (int n) = decide (m < n) := rfl

@[simp] theorem lt_time (s t : Int) : (time s).lt (time t) = decide (s < t) := rfl

@[simp] theorem eq_bool (b c : Bool) : (bool b).eq (bool c) = decide (b = c) := by simp [eq]

@[simp] theorem eq_int (m n : Int) : (int m).eq (int n) = decide (m = n) := by simp [eq]

@[simp] theorem eq_text (s t : String) : (text s).eq (text t) = decide (s = t) := by simp [eq]

@[simp] theorem eq_time (s t : Int) : (time s).eq (time t) = decide (s = t) := by simp [eq]

@[simp] theorem nullable_int_eq (a : Option Int) (n : Int) :
    (nullable int a).eq (int n) = decide (a = some n) := by
  cases a <;> simp [nullable, eq]

@[simp] theorem nullable_text_eq (a : Option String) (s : String) :
    (nullable text a).eq (text s) = decide (a = some s) := by
  cases a <;> simp [nullable, eq]

@[simp] theorem nullable_int_eq_null (a : Option Int) : nullable int a = null ↔ a = none := by
  cases a <;> simp [nullable]

end Value

/-! ## Conditions -/

/-- A condition with placeholders, and whether it is true of a row. -/
structure Cond (ρ : Type) where
  arity : Nat
  holds : List Value → ρ → Bool

namespace Cond

variable {ρ : Type}

/-- `1=1`. -/
def always : Cond ρ := ⟨0, fun _ _ ↦ true⟩

/-- `col = ?`. -/
def eq (col : ρ → Value) : Cond ρ := ⟨1, fun args r ↦ args.any fun v ↦ (col r).eq v⟩

/-- `col IS NULL`. -/
def isNull (col : ρ → Value) : Cond ρ := ⟨0, fun _ r ↦ col r = .null⟩

/-- `col <> ''`. -/
def nonempty (col : ρ → Value) : Cond ρ := ⟨0, fun _ r ↦ col r ≠ .null ∧ col r ≠ .text ""⟩

/-- `col > ?`. -/
def above (col : ρ → Value) : Cond ρ := ⟨1, fun args r ↦ args.any fun v ↦ v.lt (col r)⟩

/-- `col < ?`. -/
def below (col : ρ → Value) : Cond ρ := ⟨1, fun args r ↦ args.any fun v ↦ (col r).lt v⟩

/-- `col >= ?`. -/
def atLeast (col : ρ → Value) : Cond ρ :=
  ⟨1, fun args r ↦ args.any fun v ↦ v.lt (col r) || (col r).eq v⟩

/-- `col > ?`, for texts in the order of a collation. -/
def textAbove {κ : Type} [LinearOrder κ] (collate : String → κ) (col : ρ → String) : Cond ρ :=
  ⟨1, fun args r ↦ args.any fun
    | .text s => collate s < collate (col r)
    | _ => false⟩

/-- `col IN (?, …)`, with `n` placeholders. -/
def oneOf (col : ρ → Value) (n : Nat) : Cond ρ := ⟨n, fun args r ↦ args.any fun v ↦ (col r).eq v⟩

/-- `(?='' OR col=?)`. -/
def emptyOrEq (col : ρ → Value) : Cond ρ :=
  ⟨2, fun
    | [v, w], r => v.eq (.text "") || (col r).eq w
    | _, _ => false⟩

/-- `(col, col') < (?, ?)`. -/
def pairBelow (col col' : ρ → Value) : Cond ρ :=
  ⟨2, fun
    | [v, w], r => (col r).lt v || (col r).eq v && (col' r).lt w
    | _, _ => false⟩

@[simp] theorem always_holds (args : List Value) (r : ρ) : always.holds args r = true := rfl

@[simp] theorem eq_holds (col : ρ → Value) (v : Value) (r : ρ) :
    (eq col).holds [v] r = (col r).eq v :=
  Bool.or_false _

@[simp] theorem isNull_holds (col : ρ → Value) (args : List Value) (r : ρ) :
    (isNull col).holds args r = decide (col r = .null) := rfl

@[simp] theorem nonempty_holds (col : ρ → Value) (args : List Value) (r : ρ) :
    (nonempty col).holds args r = decide (col r ≠ .null ∧ col r ≠ .text "") := rfl

@[simp] theorem above_holds (col : ρ → Value) (v : Value) (r : ρ) :
    (above col).holds [v] r = v.lt (col r) := Bool.or_false _

@[simp] theorem below_holds (col : ρ → Value) (v : Value) (r : ρ) :
    (below col).holds [v] r = (col r).lt v := Bool.or_false _

@[simp] theorem atLeast_time_holds (col : ρ → Int) (t : Int) (r : ρ) :
    (atLeast fun r ↦ .time (col r)).holds [.time t] r = decide (t ≤ col r) := by
  show (((Value.time t).lt (.time (col r)) || (Value.time (col r)).eq (.time t)) || false) = _
  rw [Bool.or_false, Value.lt_time, Value.eq_time, ← Bool.decide_or, decide_eq_decide]
  omega

@[simp] theorem textAbove_holds {κ : Type} [LinearOrder κ] (collate : String → κ) (col : ρ → String)
    (s : String) (r : ρ) :
    (textAbove collate col).holds [.text s] r = decide (collate s < collate (col r)) :=
      Bool.or_false _

@[simp] theorem oneOf_text_holds (col : ρ → String) (n : Nat) (ss : List String) (r : ρ) :
    (oneOf (fun r ↦ .text (col r)) n).holds (ss.map .text) r = decide (col r ∈ ss) := by
  show (ss.map Value.text).any (fun v ↦ (Value.text (col r)).eq v) = _
  rw [Bool.eq_iff_iff]
  simp

@[simp] theorem emptyOrEq_holds (col : ρ → Value) (v w : Value) (r : ρ) :
    (emptyOrEq col).holds [v, w] r = (v.eq (.text "") || (col r).eq w) := rfl

@[simp] theorem pairBelow_holds (col col' : ρ → Value) (v w : Value) (r : ρ) :
    (pairBelow col col').holds [v, w] r = ((col r).lt v || (col r).eq v && (col' r).lt w) := rfl

end Cond

variable {ρ κ : Type}

def arity (conds : List (Cond ρ)) : Nat := (conds.map Cond.arity).sum

/-- Whether all conditions are true of a row; each takes its arguments from the front. -/
def holds : List (Cond ρ) → List Value → ρ → Bool
  | [], _, _ => true
  | c :: conds, args, r => c.holds (args.take c.arity) r && holds conds (args.drop c.arity) r

theorem arity_append (conds conds' : List (Cond ρ)) :
    arity (conds ++ conds') = arity conds + arity conds' := by
  rw [arity, List.map_append, List.sum_append]
  rfl

theorem holds_append {conds conds' : List (Cond ρ)} {args args' : List Value}
    (h : args.length = arity conds) (r : ρ) :
    holds (conds ++ conds') (args ++ args') r = (holds conds args r && holds conds' args' r) := by
  induction conds generalizing args with
  | nil =>
    have hnil : args = [] := List.eq_nil_of_length_eq_zero h
    rw [hnil]
    rfl
  | cons c conds ih =>
    have hlength : c.arity + arity conds = args.length := h.symm
    have htake : (args ++ args').take c.arity = args.take c.arity :=
      List.take_append_of_le_length (by omega)
    have hdrop : (args ++ args').drop c.arity = args.drop c.arity ++ args' :=
      List.drop_append_of_le_length (by omega)
    have hrest : (args.drop c.arity).length = arity conds := by
      rw [List.length_drop]
      omega
    rw [List.cons_append, holds, holds, htake, hdrop, ih hrest, Bool.and_assoc]

/-! ## Queries -/

/-- The rows that meet the conditions, and the arguments that are left. -/
def rows (table : List ρ) (conds : List (Cond ρ)) (args : List Value) :
    Option (List ρ × List Value) :=
  if arity conds ≤ args.length then
    some (table.filter (holds conds (args.take (arity conds))), args.drop (arity conds))
  else none

/-- `SELECT COUNT(*)`. -/
def count (table : List ρ) (conds : List (Cond ρ)) (args : List Value) : Option Int :=
  match rows table conds args with
  | some (found, []) => some found.length
  | _ => none

/-- `ORDER BY ... LIMIT ?`.  A limit cannot be negative. -/
def limit [LinearOrder κ] (rank : ρ → κ) (table : List ρ) (conds : List (Cond ρ))
    (args : List Value) : Option (List ρ) :=
  match rows table conds args with
  | some (found, [.int n]) => if 0 ≤ n then some ((Rank.sortBy rank found).take n.toNat) else none
  | _ => none

/-- `LIMIT ? OFFSET ?`.  Neither can be negative. -/
def window {σ : Type} (l : List σ) : List Value → Option (List σ)
  | [.int n, .int m] => if 0 ≤ n ∧ 0 ≤ m then some ((l.drop m.toNat).take n.toNat) else none
  | _ => none

/-- The same in SQLite, where a negative limit is none, and a negative offset is 0. -/
def lenientWindow {σ : Type} (l : List σ) : List Value → Option (List σ)
  | [.int n, .int m] =>
    some (if 0 ≤ n then (l.drop m.toNat).take n.toNat else l.drop m.toNat)
  | _ => none

/-- `ORDER BY ... LIMIT ? OFFSET ?`. -/
def limitOffset [LinearOrder κ] (rank : ρ → κ) (table : List ρ) (conds : List (Cond ρ))
    (args : List Value) : Option (List ρ) :=
  (rows table conds args).bind fun (found, rest) ↦ window (Rank.sortBy rank found) rest

/-! ## Groups -/

/-- `GROUP BY`: what is made of the rows of each key. -/
def groupBy [DecidableEq κ] {σ : Type} (key : ρ → κ) (summarize : κ → List ρ → σ) (found : List ρ) :
    List σ :=
  (found.map key).dedup.map fun k ↦ summarize k (found.filter fun r ↦ key r = k)

theorem mem_groupBy [DecidableEq κ] {σ : Type} {key : ρ → κ} {summarize : κ → List ρ → σ}
    {found : List ρ} {g : σ} : g ∈ groupBy key summarize found ↔
      ∃ r ∈ found, g = summarize (key r) (found.filter fun q ↦ key q = key r) := by
  simp only [groupBy, List.mem_map, List.mem_dedup]
  constructor
  · rintro ⟨k, ⟨r, hr, rfl⟩, rfl⟩
    exact ⟨r, hr, rfl⟩
  · rintro ⟨r, hr, rfl⟩
    exact ⟨key r, ⟨r, hr, rfl⟩, rfl⟩

/-- The groups have different keys. -/
theorem nodup_groupBy [DecidableEq κ] {σ : Type} (key : ρ → κ) (summarize : κ → List ρ → σ)
    (keyOf : σ → κ) (hkey : ∀ k rows, keyOf (summarize k rows) = k) (found : List ρ) :
    ((groupBy key summarize found).map keyOf).Nodup := by
  rw [groupBy, List.map_map]
  simp only [Function.comp_def, hkey, List.map_id']
  exact List.nodup_dedup _

/-- Adding up group by group is adding up. -/
theorem sum_of_groups [DecidableEq κ] {M : Type} [AddCommGroup M] (key : ρ → κ) (measure : ρ → M)
    {keys : List κ} (hnodup : keys.Nodup) (found : List ρ) (hkeys : ∀ r ∈ found, key r ∈ keys) :
    (keys.map fun k ↦ ((found.filter fun r ↦ key r = k).map measure).sum).sum =
      (found.map measure).sum := by
  induction found with
  | nil => simp
  | cons r found ih =>
    have hcons : ∀ k, (((r :: found).filter fun r ↦ key r = k).map measure).sum =
        (if k = key r then measure r else 0) +
        ((found.filter fun r ↦ key r = k).map measure).sum := by
      intro k
      rw [List.filter_cons]
      by_cases h : k = key r
      · rw [if_pos (decide_eq_true h.symm), List.map_cons, List.sum_cons, if_pos h]
      · rw [if_neg (by simpa using Ne.symm h), if_neg h, zero_add]
    have hone : keys.count (key r) = 1 :=
      List.count_eq_one_of_mem hnodup (hkeys r (List.mem_cons_self ..))
    simp only [hcons, List.sum_map_add, List.map_cons, List.sum_cons,
      ih fun r hr ↦ hkeys r (List.mem_cons_of_mem _ hr),
      List.sum_map_ite_eq keys (fun _ ↦ measure r) (fun _ ↦ 0), hone, one_nsmul, sub_zero,
      List.map_const', List.sum_replicate, nsmul_zero, add_zero]

/-- `SELECT ... GROUP BY`, and the arguments that are left. -/
def grouped [DecidableEq κ] {σ : Type} (key : ρ → κ) (summarize : κ → List ρ → σ) (table : List ρ)
    (conds : List (Cond ρ)) (args : List Value) : Option (List σ × List Value) :=
  (rows table conds args).map fun (found, rest) ↦ (groupBy key summarize found, rest)

/-- `SELECT COUNT(*) FROM (SELECT 1 ... GROUP BY ...)`. -/
def countGroups [DecidableEq κ] (key : ρ → κ) (table : List ρ) (conds : List (Cond ρ))
    (args : List Value) : Option Int :=
  match grouped key (fun _ _ ↦ ()) table conds args with
  | some (groups, []) => some groups.length
  | _ => none

/-! ## Putting a query together -/

/-- The conditions of a query that is being put together, and its arguments. -/
structure Where (ρ : Type) where
  conds : List (Cond ρ)
  args : List Value

namespace Where

/-- A query that begins with a condition. -/
def start (c : Cond ρ) (vs : List Value) : Where ρ := ⟨[c], vs⟩

/-- One more condition, with its arguments. -/
def add (w : Where ρ) (c : Cond ρ) (vs : List Value) : Where ρ := ⟨w.conds ++ [c], w.args ++ vs⟩

/-- One more condition, if it is asked for. -/
def addIf (w : Where ρ) (asked : Bool) (c : Cond ρ) (vs : List Value) : Where ρ :=
  if asked then w.add c vs else w

/-- One more condition on an optional value. -/
def addSome {α : Type} (w : Where ρ) (a : Option α) (c : Cond ρ) (value : α → Value) : Where ρ :=
  match a with
  | none => w
  | some a => w.add c [value a]

/-- A query selects the rows that satisfy `P`, and its arguments are in step. -/
structure Means (w : Where ρ) (P : ρ → Bool) : Prop where
  length_args : w.args.length = arity w.conds
  holds_eq : ∀ r, holds w.conds w.args r = P r

variable {w : Where ρ} {P : ρ → Bool} {table : List ρ}

theorem Means.congr (h : w.Means P) {Q : ρ → Bool} (hPQ : ∀ r, P r = Q r) : w.Means Q :=
  ⟨h.length_args, fun r ↦ (h.holds_eq r).trans (hPQ r)⟩

theorem Means.start {c : Cond ρ} {vs : List Value} (hvs : vs.length = c.arity) :
    (Where.start c vs).Means fun r ↦ c.holds vs r where
  length_args := hvs
  holds_eq r := by
    show (c.holds (vs.take c.arity) r && true) = _
    rw [← hvs, List.take_length, Bool.and_true]

theorem Means.add (h : w.Means P) {c : Cond ρ} {vs : List Value} (hvs : vs.length = c.arity) :
    (w.add c vs).Means fun r ↦ P r && c.holds vs r where
  length_args := by
    show (w.args ++ vs).length = arity (w.conds ++ [c])
    rw [List.length_append, arity_append, h.length_args, hvs]
    rfl
  holds_eq r := by
    show holds (w.conds ++ [c]) (w.args ++ vs) r = _
    rw [holds_append h.length_args, h.holds_eq, holds, ← hvs, List.take_length, holds,
      Bool.and_true]

theorem Means.addIf (h : w.Means P) (asked : Bool) {c : Cond ρ} {vs : List Value}
    (hvs : vs.length = c.arity) :
    (w.addIf asked c vs).Means fun r ↦ P r && (!asked || c.holds vs r) := by
  cases asked with
  | true => exact h.add hvs
  | false => exact Means.congr h fun r ↦ by simp

theorem Means.addSome {α : Type} (h : w.Means P) (a : Option α) {c : Cond ρ} {value : α → Value}
    (hc : c.arity = 1) :
    (w.addSome a c value).Means fun r ↦ P r && (a.all fun a ↦ c.holds [value a] r) := by
  cases a with
  | none => exact Means.congr h fun r ↦ by simp
  | some a => exact h.add hc.symm

/-- What a query selects, with the arguments after those of its conditions. -/
theorem Means.rows (h : w.Means P) (table : List ρ) (rest : List Value) :
    Sql.rows table w.conds (w.args ++ rest) = some (table.filter P, rest) := by
  have hfun : Sql.holds w.conds w.args = P := funext h.holds_eq
  rw [Sql.rows, ← h.length_args, if_pos (by simp), List.take_left, List.drop_left, hfun]

theorem Means.count (h : w.Means P) (table : List ρ) :
    Sql.count table w.conds w.args = some ((table.filter P).length : Int) := by
  have hrows := h.rows table []
  rw [List.append_nil] at hrows
  rw [Sql.count, hrows]

section Sorted

variable [LinearOrder κ]

theorem Means.limit (h : w.Means P) (rank : ρ → κ) (table : List ρ) {n : Int} (hn : 0 ≤ n) :
    Sql.limit rank table w.conds (w.args ++ [.int n]) =
      some ((Rank.sortBy rank (table.filter P)).take n.toNat) := by
  rw [Sql.limit, h.rows]
  exact if_pos hn

theorem Means.limitOffset (h : w.Means P) (rank : ρ → κ) (table : List ρ) {n m : Int} (hn : 0 ≤ n)
    (hm : 0 ≤ m) : Sql.limitOffset rank table w.conds (w.args ++ [.int n, .int m]) =
      some (((Rank.sortBy rank (table.filter P)).drop m.toNat).take n.toNat) := by
  rw [Sql.limitOffset, h.rows]
  exact if_pos ⟨hn, hm⟩

end Sorted

theorem Means.grouped [DecidableEq κ] {σ : Type} (h : w.Means P) (key : ρ → κ)
    (summarize : κ → List ρ → σ) (table : List ρ) (rest : List Value) :
    Sql.grouped key summarize table w.conds (w.args ++ rest) =
      some (groupBy key summarize (table.filter P), rest) := by
  rw [Sql.grouped, h.rows]
  rfl

theorem Means.countGroups [DecidableEq κ] (h : w.Means P) (key : ρ → κ) (table : List ρ) :
    Sql.countGroups key table w.conds w.args =
      some ((((table.filter P).map key).dedup.length : Nat) : Int) := by
  have hgrouped := h.grouped key (fun _ _ ↦ ()) table []
  rw [List.append_nil] at hgrouped
  simp only [Sql.countGroups, hgrouped, groupBy, List.length_map]

end Where

end Sql
