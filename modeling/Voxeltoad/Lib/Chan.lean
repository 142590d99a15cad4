import Mathlib.Data.List.Basic

/-!
# Bounded channels

A `Chan` is a bounded first-in first-out channel as several goroutines share one: a queue that never
holds more than its capacity, and a flag that says whether it was closed.

* `Chan.trySend` is a send that does not wait: a full channel refuses it, and a closed one panics,
  full or not.
* `Chan.recv` is one receive: what is queued comes out also after the close, and only then does the
  receiver learn of it.
-/

set_option autoImplicit false

/-- A bounded channel. -/
structure Chan (α : Type*) where
  capacity : Nat
  items : List α
  closed : Bool
  bounded : items.length ≤ capacity

namespace Chan

variable {α : Type*}

/-- A new channel. -/
def make (capacity : Nat) : Chan α :=
  { capacity, items := [], closed := false, bounded := Nat.zero_le _ }

/-- The channel, closed. -/
def close (c : Chan α) : Chan α := { c with closed := true }

/-- What a send that does not wait comes to. -/
inductive Sent (α : Type*)
  | sent (c : Chan α)
  | full
  | panics

/-- A send that does not wait. -/
def trySend (c : Chan α) (x : α) : Sent α :=
  if c.closed then .panics
  else if h : c.items.length < c.capacity then
    .sent { c with items := c.items ++ [x], bounded := by rw [List.length_append]; exact h }
  else .full

/-- What a receive comes to. -/
inductive Received (α : Type*)
  | received (x : α) (c : Chan α)
  | drained
  | blocks

/-- The channel without its first item. -/
def tail (c : Chan α) : Chan α :=
  { c with
    items := c.items.tail
    bounded := Nat.le_trans (List.length_tail ▸ Nat.sub_le _ _) c.bounded }

/-- One receive. -/
def recv (c : Chan α) : Received α :=
  match c.items with
  | x :: _ => .received x c.tail
  | [] => if c.closed then .drained else .blocks

/-- **What a send can do**: queue the item at the end of an open channel, find an open channel full,
or panic on a closed one. -/
theorem trySend_cases (c : Chan α) (x : α) :
    (∃ c', c.trySend x = .sent c' ∧ c.closed = false ∧ c'.items = c.items ++ [x] ∧
      c'.closed = false) ∨
    (c.trySend x = .full ∧ c.closed = false) ∨
    (c.trySend x = .panics ∧ c.closed = true) := by
  unfold trySend
  cases c.closed with
  | true => exact .inr (.inr ⟨rfl, rfl⟩)
  | false =>
    split
    · rename_i h
      exact absurd h Bool.false_ne_true
    split
    · exact .inl ⟨_, rfl, rfl, rfl, rfl⟩
    · exact .inr (.inl ⟨rfl, rfl⟩)

/-- **What a receive can do**: take the first item, or find nothing queued. -/
theorem recv_cases (c : Chan α) :
    (∃ x c', c.recv = .received x c' ∧ c.items = x :: c'.items ∧ c'.closed = c.closed) ∨
    (c.recv = .drained ∧ c.items = [] ∧ c.closed = true) ∨
    (c.recv = .blocks ∧ c.items = [] ∧ c.closed = false) := by
  unfold recv
  cases hitems : c.items with
  | cons x rest =>
    have hrest : c.tail.items = rest := congrArg List.tail hitems
    exact .inl ⟨x, c.tail, rfl, by rw [hrest], rfl⟩
  | nil =>
    cases c.closed with
    | true => exact .inr (.inl ⟨rfl, rfl, rfl⟩)
    | false => exact .inr (.inr ⟨rfl, rfl, rfl⟩)

end Chan
