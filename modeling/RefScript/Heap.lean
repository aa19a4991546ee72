import RefScript.Word

namespace RefScript

/-!
# The heap

The heap is an append-only sequence of slots. Handles are given out in order
from zero; a slot is empty until it is first written, and no slot is ever
freed or reused.
-/

/-- The slots in allocation order; an empty slot holds no word. -/
structure Heap where
  slots : Array (Option Word)
  deriving DecidableEq

namespace Heap

/-- The heap without slots. -/
def empty : Heap :=
  ⟨#[]⟩

/-- The number of slots, which is the handle of the next one. -/
def size (heap : Heap) : Nat :=
  heap.slots.size

/-- Whether nothing has been allocated. -/
def isEmpty (heap : Heap) : Bool :=
  heap.slots.isEmpty

/-- Append an empty slot, giving its handle. -/
def allocate (heap : Heap) : Handle × Heap :=
  (heap.size, ⟨heap.slots.push none⟩)

/-- The contents of a slot, if the handle designates one. -/
def slot? (heap : Heap) (handle : Handle) : Option (Option Word) :=
  heap.slots[handle]?

/-- The word in a slot; there is none if the slot is absent or empty. -/
def read? (heap : Heap) (handle : Handle) : Option Word :=
  (heap.slot? handle).join

/-- Fill a slot, if the handle designates one. -/
def write? (heap : Heap) (handle : Handle) (value : Word) : Option Heap :=
  if handle < heap.size then
    some ⟨heap.slots.setIfInBounds handle (some value)⟩
  else
    none

/-- Reading gives the word of a slot that is there and holds one. -/
theorem read?_eq_some_iff {heap : Heap} {handle : Handle} {value : Word} :
    heap.read? handle = some value ↔ heap.slot? handle = some (some value) :=
  Option.join_eq_some_iff

/-- Filling a slot leaves the number of slots. -/
theorem size_of_write? {heap written : Heap} {handle : Handle} {value : Word}
    (done : heap.write? handle value = some written) : written.size = heap.size := by
  simp only [write?, Option.ite_none_right_eq_some, Option.some.injEq] at done
  obtain ⟨_, rfl⟩ := done
  simp [size]

/-- The new slot is the next one, and empty; the others stay as they are. -/
theorem slot?_allocate (heap : Heap) (handle : Handle) :
    heap.allocate.2.slot? handle =
      if handle = heap.size then some none else heap.slot? handle :=
  Array.getElem?_push

/-- A slot that is filled holds the word; the others stay as they are. -/
theorem slot?_of_write?
    {heap written : Heap} {handle : Handle} {value : Word}
    (done : heap.write? handle value = some written) (other : Handle) :
    written.slot? other = if handle = other then some (some value) else heap.slot? other := by
  simp only [write?, Option.ite_none_right_eq_some, Option.some.injEq] at done
  obtain ⟨present, rfl⟩ := done
  simp only [slot?, Array.getElem?_setIfInBounds]
  by_cases sameSlot : handle = other
  · subst sameSlot
    rw [if_pos rfl, if_pos rfl]
    exact if_pos present
  · rw [if_neg sameSlot, if_neg sameSlot]

end Heap

end RefScript
