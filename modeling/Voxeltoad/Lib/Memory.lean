import Mathlib.Data.List.GetD

/-!
# Arrays in memory

A program with slices can change an array under the eyes of others that hold it.  `Memory α` has the
arrays that were allocated, by their addresses, and `Memory.Keeps n` says that the first `n` of them
are as they were: that is so of whatever a program does with the arrays it allocates itself.
-/

set_option autoImplicit false

/-- The arrays that were allocated. -/
structure Memory (α : Type) where
  arrays : List (List α)

namespace Memory

variable {α : Type}

/-- The number of arrays, and the address of the next one. -/
def size (mem : Memory α) : Nat := mem.arrays.length

/-- The elements of an array. -/
def read (mem : Memory α) (a : Nat) : List α := mem.arrays.getD a []

/-- A new array. -/
def alloc (mem : Memory α) (xs : List α) : Memory α × Nat := (⟨mem.arrays ++ [xs]⟩, mem.size)

/-- Overwrite an array. -/
def write (mem : Memory α) (a : Nat) (xs : List α) : Memory α := ⟨mem.arrays.set a xs⟩

/-- `append`, for an array with room for one more element. -/
def push (mem : Memory α) (a : Nat) (x : α) : Memory α := mem.write a (mem.read a ++ [x])

/-- The first arrays are as they were. -/
structure Keeps (n : Nat) (mem mem' : Memory α) : Prop where
  size_le : mem.size ≤ mem'.size
  read_eq : ∀ a < n, mem'.read a = mem.read a

section

variable {mem mem' mem'' : Memory α} {n a : Nat}

theorem Keeps.refl (n : Nat) (mem : Memory α) : Keeps n mem mem := ⟨Nat.le_refl _, fun _ _ ↦ rfl⟩

theorem Keeps.trans (h : Keeps n mem mem') (h' : Keeps n mem' mem'') : Keeps n mem mem'' :=
  ⟨Nat.le_trans h.size_le h'.size_le, fun a ha ↦ (h'.read_eq a ha).trans (h.read_eq a ha)⟩

theorem Keeps.mono {m : Nat} (h : Keeps n mem mem') (hm : m ≤ n) : Keeps m mem mem' :=
  ⟨h.size_le, fun a ha ↦ h.read_eq a (Nat.lt_of_lt_of_le ha hm)⟩

@[simp] theorem size_alloc (mem : Memory α) (xs : List α) :
    (mem.alloc xs).1.size = mem.size + 1 := by
  simp [alloc, size]

@[simp] theorem snd_alloc (mem : Memory α) (xs : List α) : (mem.alloc xs).2 = mem.size := rfl

@[simp] theorem read_alloc (mem : Memory α) (xs : List α) :
    (mem.alloc xs).1.read mem.size = xs := by
  simp [alloc, read, size]

/-- To allocate an array changes no other one. -/
theorem keeps_alloc (mem : Memory α) (xs : List α) : Keeps mem.size mem (mem.alloc xs).1 := by
  refine ⟨by simp, fun a ha ↦ ?_⟩
  rw [read, read, alloc, List.getD_append _ _ _ _ ha]

@[simp] theorem size_write (mem : Memory α) (a : Nat) (xs : List α) :
    (mem.write a xs).size = mem.size :=
  List.length_set ..

theorem read_write (h : a < mem.size) (xs : List α) : (mem.write a xs).read a = xs := by
  have hlt : a < mem.arrays.length := h
  simp [read, write, hlt]

/-- To write to an array changes no other one. -/
theorem keeps_write (h : n ≤ a) (mem : Memory α) (xs : List α) : Keeps n mem (mem.write a xs) := by
  refine ⟨Nat.le_of_eq (size_write ..).symm, fun b hb ↦ ?_⟩
  have hne : a ≠ b := by omega
  simp [read, write, List.getD_eq_getElem?_getD, List.getElem?_set_ne hne]

end

end Memory
