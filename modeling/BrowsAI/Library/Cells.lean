import Mathlib.Logic.Function.Basic

/-!
# Mutable cells

A memory of cells, each behind a reference. Copies of a reference lead to the same cell, and `alloc`
makes a cell that no reference led to before, so that a copied value and a shared cell are told
apart by what a later `write` changes.
-/

/-- The cells from `next` on are free. -/
structure Cells (α : Type) where
  next : Nat
  contents : Nat → α

namespace Cells

/-- The address of a cell. -/
structure Ref where
  index : Nat
  deriving DecidableEq

variable {α : Type}

/-- No cell is allocated; every address reads as the same value. -/
def empty (a : α) : Cells α := ⟨0, fun _ => a⟩

/-- The contents of a cell. -/
def read (c : Cells α) (r : Ref) : α := c.contents r.index

/-- Changes one cell. -/
def write (c : Cells α) (r : Ref) (a : α) : Cells α :=
  { c with contents := Function.update c.contents r.index a }

/-- A new cell. -/
def alloc (c : Cells α) (a : α) : Ref × Cells α :=
  (⟨c.next⟩, ⟨c.next + 1, Function.update c.contents c.next a⟩)

/-- The reference leads to a cell that was made. -/
def Allocated (c : Cells α) (r : Ref) : Prop := r.index < c.next

variable {c : Cells α} {r r' : Ref}

/-- A cell that is written, or another one. -/
theorem read_write (c : Cells α) (r r' : Ref) (a : α) :
    (c.write r a).read r' = if r = r' then a else c.read r' := by
  show Function.update c.contents r.index a r'.index = _
  by_cases hr : r = r'
  · rw [hr, Function.update_self, if_pos rfl]
  · have hindex : r'.index ≠ r.index := by
      intro hindex
      cases r
      cases r'
      exact hr (congrArg Ref.mk hindex.symm)
    rw [Function.update_of_ne hindex, if_neg hr]
    rfl

theorem read_write_of_ne (c : Cells α) (hr : r ≠ r') (a : α) :
    (c.write r a).read r' = c.read r' := by
  rw [read_write, if_neg hr]

@[simp] theorem read_alloc_self (c : Cells α) (a : α) : (c.alloc a).2.read (c.alloc a).1 = a :=
  Function.update_self ..

theorem allocated_alloc (c : Cells α) (a : α) : (c.alloc a).2.Allocated (c.alloc a).1 :=
  Nat.lt_succ_self c.next

/-- A new cell is none of those that were there. -/
theorem Allocated.alloc_ne (h : c.Allocated r) (a : α) : (c.alloc a).1 ≠ r := by
  rintro rfl
  exact Nat.lt_irrefl _ h

end Cells
