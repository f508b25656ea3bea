import Mathlib.Data.List.Range
import Mathlib.Logic.Function.Basic

namespace memory

/-- Mutable objects by reference, which is the identity of an object.
References below `next` have been handed out; the next object gets `next`. -/
structure Heap (α : Type*) where
  next : Nat
  cell : Nat → α

namespace Heap

variable {α : Type*}

def alloc (h : Heap α) (a : α) : Nat × Heap α :=
  (h.next, ⟨h.next + 1, Function.update h.cell h.next a⟩)

/-- Allocates a list of objects, in order. -/
def allocAll (h : Heap α) : List α → List Nat × Heap α
  | [] => ([], h)
  | a :: as =>
    let (r, h) := h.alloc a
    let (rs, h) := h.allocAll as
    (r :: rs, h)

/-- Mutates the object behind a reference. -/
def modify (h : Heap α) (r : Nat) (f : α → α) : Heap α :=
  ⟨h.next, Function.update h.cell r (f (h.cell r))⟩

@[simp] theorem modify_cell_self (h : Heap α) (r : Nat) (f : α → α) :
    (h.modify r f).cell r = f (h.cell r) := by
  simp [modify]

theorem modify_cell_of_ne (h : Heap α) {r r' : Nat} (f : α → α) (hne : r' ≠ r) :
    (h.modify r f).cell r' = h.cell r' := by
  simp [modify, hne]

/-- What a mutation leaves alone in the object, it leaves alone everywhere. -/
theorem modify_cell_map {β : Type*} (h : Heap α) (r r' : Nat) {f : α → α} {view : α → β}
    (hview : ∀ a, view (f a) = view a) : view ((h.modify r f).cell r') = view (h.cell r') := by
  by_cases hr : r' = r
  · subst hr
    rw [modify_cell_self, hview]
  · rw [modify_cell_of_ne h f hr]

theorem allocAll_refs (h : Heap α) (as : List α) :
    (h.allocAll as).1 = List.range' h.next as.length := by
  induction as generalizing h with
  | nil => rfl
  | cons a as ih =>
    simp only [allocAll, List.length_cons, List.range'_succ, ih]
    rfl

theorem allocAll_next (h : Heap α) (as : List α) : (h.allocAll as).2.next = h.next + as.length := by
  induction as generalizing h with
  | nil => rfl
  | cons a as ih =>
    simp only [allocAll, List.length_cons, ih]
    simp only [alloc]
    omega

/-- Allocation leaves the objects that exist as they are. -/
theorem allocAll_cell_of_lt (h : Heap α) (as : List α) {r : Nat} (hr : r < h.next) :
    (h.allocAll as).2.cell r = h.cell r := by
  induction as generalizing h with
  | nil => rfl
  | cons a as ih =>
    simp only [allocAll]
    rw [ih _ (Nat.lt_succ_of_lt hr)]
    simp [alloc, Nat.ne_of_lt hr]

/-- The new references hold the new objects, in order. -/
theorem allocAll_map_cell (h : Heap α) (as : List α) :
    (h.allocAll as).1.map (h.allocAll as).2.cell = as := by
  induction as generalizing h with
  | nil => rfl
  | cons a as ih =>
    simp only [allocAll, List.map_cons, ih]
    congr 1
    rw [allocAll_cell_of_lt _ _ (Nat.lt_succ_self _)]
    simp [alloc]

/-- A new reference holds one of the new objects. -/
theorem allocAll_cell_mem {h : Heap α} {as : List α} {r : Nat} (hr : r ∈ (h.allocAll as).1) :
    (h.allocAll as).2.cell r ∈ as := by
  have hmem := List.mem_map_of_mem (f := (h.allocAll as).2.cell) hr
  rwa [allocAll_map_cell] at hmem

theorem mem_allocAll {h : Heap α} {as : List α} {r : Nat} :
    r ∈ (h.allocAll as).1 ↔ h.next ≤ r ∧ r < (h.allocAll as).2.next := by
  rw [allocAll_refs, allocAll_next, List.mem_range'_1]

end Heap

end memory
