import Mathlib.Data.Nat.Basic
import Mathlib.Order.Basic

/-!
# Growing heaps

Cells that are allocated one after the other and never freed. A later heap extends
an earlier one when it keeps the cells the earlier one has allocated, so that
whatever was read through allocated pointers can still be read.
-/

namespace OrderTracking

universe u

/-- Cells, of which those below `next` are allocated. -/
structure Heap (α : Type u) where
  cells : Nat → α
  next : Nat

namespace Heap

variable {α : Type u}

/-- Allocate a cell, at the pointer `next`. -/
def alloc (value : α) (heap : Heap α) : Heap α where
  cells := Function.update heap.cells heap.next value
  next := heap.next + 1

/-- Replace what an allocated cell holds. -/
def modify (pointer : Nat) (change : α → α) (heap : Heap α) : Heap α where
  cells := Function.update heap.cells pointer (change (heap.cells pointer))
  next := heap.next

/-- What the pointers point to. -/
def read (pointers : List Nat) (heap : Heap α) : List α :=
  pointers.map heap.cells

/-- The pointers point to allocated cells. -/
def Allocated (pointers : List Nat) (heap : Heap α) : Prop :=
  ∀ pointer ∈ pointers, pointer < heap.next

theorem allocated_nil (heap : Heap α) : heap.Allocated [] := by
  intro pointer member
  cases member

/-- The later heap has the allocated cells of the earlier one. -/
structure Extends (heap later : Heap α) : Prop where
  next_le : heap.next ≤ later.next
  cells : ∀ pointer, pointer < heap.next → later.cells pointer = heap.cells pointer

theorem Extends.refl (heap : Heap α) : heap.Extends heap where
  next_le := le_refl _
  cells := fun _ _ => rfl

theorem Extends.trans
    {heap later last : Heap α}
    (first : heap.Extends later)
    (second : later.Extends last) :
    heap.Extends last where
  next_le := first.next_le.trans second.next_le
  cells := by
    intro pointer allocated
    rw [second.cells pointer (allocated.trans_le first.next_le),
      first.cells pointer allocated]

theorem extends_alloc
    (value : α)
    (heap : Heap α) :
    heap.Extends (heap.alloc value) where
  next_le := Nat.le_succ _
  cells := fun _ allocated => Function.update_of_ne allocated.ne _ _

theorem Allocated.later
    {pointers : List Nat}
    {heap later : Heap α}
    (allocated : heap.Allocated pointers)
    (extended : heap.Extends later) :
    later.Allocated pointers :=
  fun pointer member => (allocated pointer member).trans_le extended.next_le

/-- What is read through allocated pointers stays. -/
theorem Extends.read_eq
    {pointers : List Nat}
    {heap later : Heap α}
    (extended : heap.Extends later)
    (allocated : heap.Allocated pointers) :
    later.read pointers = heap.read pointers :=
  List.map_congr_left fun pointer member =>
    extended.cells pointer (allocated pointer member)

@[simp] theorem read_nil (heap : Heap α) : heap.read [] = [] := rfl

@[simp] theorem read_append
    (front back : List Nat)
    (heap : Heap α) :
    heap.read (front ++ back) = heap.read front ++ heap.read back :=
  List.map_append

/-- The new pointer points to the new cell. -/
@[simp] theorem read_alloc
    (value : α)
    (heap : Heap α) :
    (heap.alloc value).read [heap.next] = [value] := by
  simp [read, alloc]

/-- A change does not show where its cell is not read. -/
theorem read_modify_of_not_mem
    {pointer : Nat}
    {pointers : List Nat}
    (other : pointer ∉ pointers)
    (change : α → α)
    (heap : Heap α) :
    (heap.modify pointer change).read pointers = heap.read pointers := by
  apply List.map_congr_left
  intro candidate member
  have different : candidate ≠ pointer := by
    rintro rfl
    exact other member
  exact Function.update_of_ne different _ _

theorem cells_foldl_modify_of_not_mem
    {pointer : Nat}
    {pointers : List Nat}
    (other : pointer ∉ pointers)
    (change : α → α)
    (heap : Heap α) :
    (pointers.foldl (fun heap pointer => heap.modify pointer change) heap).cells pointer =
      heap.cells pointer := by
  induction pointers generalizing heap with
  | nil => rfl
  | cons first pointers inductionHypothesis =>
      rw [List.mem_cons, not_or] at other
      rw [List.foldl_cons, inductionHypothesis other.2]
      exact Function.update_of_ne other.1 _ _

/-- A change of several cells. -/
theorem read_foldl_modify
    {front back : List Nat}
    (distinct : (front ++ back).Nodup)
    (change : α → α)
    (heap : Heap α) :
    (front.foldl (fun heap pointer => heap.modify pointer change) heap).read
        (front ++ back) =
      (heap.read front).map change ++ heap.read back := by
  induction front generalizing heap with
  | nil => rfl
  | cons pointer front inductionHypothesis =>
      rw [List.cons_append, List.nodup_cons, List.mem_append, not_or] at distinct
      obtain ⟨notIn, others⟩ := distinct
      have rest := inductionHypothesis others (heap.modify pointer change)
      rw [read_modify_of_not_mem notIn.1, read_modify_of_not_mem notIn.2] at rest
      have first := cells_foldl_modify_of_not_mem notIn.1 change (heap.modify pointer change)
      rw [List.cons_append, List.foldl_cons, read, List.map_cons, first]
      rw [read] at rest
      rw [rest]
      simp [modify, read]

end Heap
end OrderTracking
