import RefScript.Proofs.Store.Atomicity
import RefScript.Proofs.Store.Histories
import RefScript.Proofs.Store.Lifetime

namespace RefScript

/-!
# The history of the heap

A request does one of three things to the heap: it leaves it as it is, it
appends an empty slot, or it fills one slot. Only a granted allocation appends,
and only a granted write through a reference fills, namely the slot whose
handle the reference holds at that moment. So the handles that a history
answers count up from zero, and a slot holds the word that was written to it
last, through whichever name and frame.
-/

/-- The slot that a cell designates is the one whose handle it holds as a reference. -/
theorem Cell.handle?_eq_some_iff {cell : Cell} {handle : Handle} :
    cell.handle? = some handle ↔ ∃ raw, cell = ⟨.ref, some raw⟩ ∧ raw.toInt = handle := by
  obtain ⟨kind, value⟩ := cell
  cases kind <;> cases value <;> simp [Cell.handle?, Word.toHandle?_eq_some_iff]

namespace Store

variable {Body : Type}

/-- The handle that a request answers, if it is an allocation that is granted. -/
def allocatedHandle? (store : Store Body) (operation : Operation Body) : Option Handle :=
  match operation, perform operation store with
  | .allocate _, .ok (.handle handle) _ => some handle
  | _, _ => none

/-- The handles that the allocations of a history answer, in order. -/
def allocatedHandles (store : Store Body) : List (Operation Body) → List Handle
  | [] => []
  | operation :: rest =>
      (store.allocatedHandle? operation).toList ++
        (store.after operation).allocatedHandles rest

/-- The request is a granted write of the value through a reference that holds the handle. -/
def Fills
    (store : Store Body)
    (operation : Operation Body)
    (handle : Handle)
    (value : Word) : Prop :=
  ∃ name raw next,
    operation = .write name value ∧
      store.find? name = some ⟨.ref, some raw⟩ ∧
      raw.toInt = handle ∧
      perform operation store = .ok .done next

/-- The request writes nothing to the slot with the handle. -/
def LeavesSlot (handle : Handle) (store : Store Body) (operation : Operation Body) : Prop :=
  ∀ value, ¬ store.Fills operation handle value

/-- What a request does to the heap. -/
inductive HeapChange (store : Store Body) (operation : Operation Body) : Heap → Prop where
  | untouched
      (noHandle : store.allocatedHandle? operation = none)
      (leaves : ∀ handle, LeavesSlot handle store operation) :
      HeapChange store operation store.heap
  | appended
      (answered : store.allocatedHandle? operation = some store.heap.size)
      (leaves : ∀ handle, LeavesSlot handle store operation) :
      HeapChange store operation store.heap.allocate.2
  | filled
      {handle : Handle} {value : Word} {heap : Heap}
      (noHandle : store.allocatedHandle? operation = none)
      (fills : store.Fills operation handle value)
      (written : store.heap.write? handle value = some heap) :
      HeapChange store operation heap

/-- A write fills one slot, with one word. -/
theorem Fills.unique
    {store : Store Body} {operation : Operation Body}
    {handle other : Handle} {value later : Word}
    (first : store.Fills operation handle value)
    (second : store.Fills operation other later) :
    other = handle ∧ later = value := by
  obtain ⟨name, raw, _, rfl, found, holds, _⟩ := first
  obtain ⟨_, _, _, same, foundToo, holdsToo, _⟩ := second
  cases same
  rw [found] at foundToo
  cases foundToo
  rw [holds] at holdsToo
  exact ⟨(Int.ofNat.inj holdsToo).symm, rfl⟩

/-- A write that fills a slot leaves exactly the others. -/
theorem Fills.leavesSlot_iff
    {store : Store Body} {operation : Operation Body}
    {filled : Handle} {value : Word}
    (fills : store.Fills operation filled value)
    (handle : Handle) :
    LeavesSlot handle store operation ↔ filled ≠ handle := by
  constructor
  · rintro leaves rfl
    exact leaves value fills
  · intro otherSlot later fillsToo
    exact otherSlot (fills.unique fillsToo).1.symm

/-- Only writes and allocations touch the heap. -/
theorem Granted.heap_eq
    {store next : Store Body}
    {operation : Operation Body}
    {reply : Reply Body}
    (granted : Granted store operation reply next)
    (notWrite : ∀ name value, operation ≠ .write name value)
    (notAllocation : ∀ name, operation ≠ .allocate name) :
    next.heap = store.heap := by
  cases granted with
  | writeScalar | writeSlot =>
      exact (notWrite _ _ rfl).elim
  | allocate =>
      exact (notAllocation _ rfl).elim
  | copy found assigned =>
      obtain ⟨stack, globals, rfl⟩ := assign?_others assigned
      rfl
  | popScope active popped =>
      exact (sameStorage_endScopes _ _).heap
  | popFrame active =>
      exact (sameStorage_endScopes _ _).heap
  | recount =>
      exact (sameStorage_recount store).heap
  | _ =>
      rfl

theorem allocatedHandle?_eq_some_iff
    {store : Store Body} {operation : Operation Body} {handle : Handle} :
    store.allocatedHandle? operation = some handle ↔ store.Allocates operation handle := by
  unfold allocatedHandle? Allocates
  split
  case h_1 name answered next outcome =>
    simp [outcome, eq_comm]
  case h_2 notAnswered =>
    constructor
    · intro impossible
      contradiction
    · rintro ⟨name, next, rfl, outcome⟩
      exact (notAnswered name handle next rfl outcome).elim

/-- What is no write fills no slot. -/
theorem leavesSlot_of_ne_write
    {operation : Operation Body}
    (notWrite : ∀ name value, operation ≠ .write name value)
    (store : Store Body)
    (handle : Handle) :
    LeavesSlot handle store operation := by
  rintro value ⟨name, _, _, isWrite, _⟩
  exact notWrite name value isWrite

theorem allocatedHandle?_of_ne_allocate
    {operation : Operation Body}
    (notAllocation : ∀ name, operation ≠ .allocate name)
    (store : Store Body) :
    store.allocatedHandle? operation = none := by
  rw [Option.eq_none_iff_forall_ne_some]
  intro handle answered
  obtain ⟨name, _, isAllocation, _⟩ := allocatedHandle?_eq_some_iff.mp answered
  exact notAllocation name isAllocation

/-- Every request, granted or refused, changes the heap in one of the three ways. -/
theorem heapChange (store : Store Body) (operation : Operation Body) :
    HeapChange store operation (store.after operation).heap := by
  cases outcome : perform operation store with
  | error fault next =>
      rw [after_of_error outcome]
      apply HeapChange.untouched
      · unfold allocatedHandle?
        simp [outcome]
      · rintro handle value ⟨_, _, _, _, _, _, answered⟩
        rw [outcome] at answered
        contradiction
  | ok reply next =>
      rw [after_of_ok outcome]
      have granted := granted_of_perform outcome
      cases operation with
      | write name value =>
          have noHandle : store.allocatedHandle? (.write name value) = none :=
            allocatedHandle?_of_ne_allocate (by simp) store
          cases granted with
          | writeScalar found isInt assigned =>
              obtain ⟨stack, globals, rfl⟩ := assign?_others assigned
              refine .untouched noHandle ?_
              rintro handle value ⟨_, _, _, same, foundToo, _⟩
              cases same
              rw [found] at foundToo
              cases foundToo
              contradiction
          | writeSlot found isRef designated written =>
              obtain ⟨raw, rfl, holds⟩ := Cell.handle?_eq_some_iff.mp designated
              exact .filled noHandle ⟨name, raw, _, rfl, found, holds, outcome⟩ written
      | allocate name =>
          have leaves : ∀ handle, LeavesSlot handle store (.allocate name) :=
            leavesSlot_of_ne_write (by simp) store
          cases granted with
          | allocate found isRef fits assigned =>
              obtain ⟨stack, globals, rfl⟩ := assign?_others assigned
              rw [(sameStorage_recount _).heap]
              exact .appended (allocatedHandle?_eq_some_iff.mpr ⟨name, _, rfl, outcome⟩) leaves
      | _ =>
          rw [granted.heap_eq (by simp) (by simp)]
          exact .untouched (allocatedHandle?_of_ne_allocate (by simp) store)
            (leavesSlot_of_ne_write (by simp) store)

/-- A request makes the heap larger by the slot whose handle it answers. -/
theorem range_size_after (store : Store Body) (operation : Operation Body) :
    List.range (store.after operation).heap.size =
      List.range store.heap.size ++ (store.allocatedHandle? operation).toList := by
  have change := heapChange store operation
  generalize (store.after operation).heap = heap at change
  cases change with
  | untouched noHandle leaves =>
      simp [noHandle]
  | appended answered leaves =>
      have oneMore : store.heap.allocate.2.size = store.heap.size + 1 := Array.size_push none
      rw [oneMore, List.range_succ, answered]
      rfl
  | filled noHandle fills written =>
      simp [noHandle, Heap.size_of_write? written]

/-- No request takes a slot away. -/
theorem size_heap_le_after (store : Store Body) (operation : Operation Body) :
    store.heap.size ≤ (store.after operation).heap.size := by
  have grown := congrArg List.length (range_size_after store operation)
  simp only [List.length_range, List.length_append] at grown
  omega

/-- An allocation that is granted adds a slot. -/
theorem Granted.size_heap_of_allocate
    {store next : Store Body} {name : String} {reply : Reply Body}
    (granted : Granted store (.allocate name) reply next) :
    next.heap.size = store.heap.size + 1 := by
  cases granted with
  | allocate found isRef fits assigned =>
      obtain ⟨stack, globals, rfl⟩ := assign?_others assigned
      rw [(sameStorage_recount _).heap]
      exact Array.size_push none

/-- The handles that a history answers are those of the slots that it adds, in order. -/
theorem range_size_afterAll (store : Store Body) (operations : List (Operation Body)) :
    List.range (store.afterAll operations).heap.size =
      List.range store.heap.size ++ store.allocatedHandles operations := by
  induction operations generalizing store with
  | nil =>
      simp [allocatedHandles]
  | cons operation rest inductionHypothesis =>
      rw [afterAll_cons, inductionHypothesis, range_size_after, List.append_assoc,
        allocatedHandles]

/-- A slot is full after a request that fills it, or if it was full and is left alone. -/
theorem slot?_after_full_iff
    (store : Store Body)
    (operation : Operation Body)
    (handle : Handle)
    (value : Word) :
    (store.after operation).heap.slot? handle = some (some value) ↔
      store.Fills operation handle value ∨
        store.heap.slot? handle = some (some value) ∧ LeavesSlot handle store operation := by
  have change := heapChange store operation
  generalize (store.after operation).heap = heap at change
  cases change with
  | untouched noHandle leaves =>
      simp [leaves handle, leaves handle value]
  | appended answered leaves =>
      have absent : store.heap.slot? store.heap.size = none := Array.getElem?_size
      rw [Heap.slot?_allocate]
      by_cases isNew : handle = store.heap.size
      · simp [isNew, absent, leaves store.heap.size value]
      · simp [isNew, leaves handle, leaves handle value]
  | @filled filled word _ noHandle fills written =>
      rw [Heap.slot?_of_write? written, fills.leavesSlot_iff]
      by_cases sameSlot : filled = handle
      · subst sameSlot
        simp only [↓reduceIte, Option.some.injEq, ne_eq, not_true_eq_false, and_false, or_false]
        constructor
        · rintro rfl
          exact fills
        · intro fillsToo
          exact (fills.unique fillsToo).2.symm
      · have fillsNot : ¬ store.Fills operation handle value := fun fillsToo =>
          sameSlot (fills.unique fillsToo).1.symm
        simp [sameSlot, fillsNot]

/-- A slot is empty after the request that appends it, or if it was empty and is left alone. -/
theorem slot?_after_empty_iff
    (store : Store Body)
    (operation : Operation Body)
    (handle : Handle) :
    (store.after operation).heap.slot? handle = some none ↔
      store.allocatedHandle? operation = some handle ∨
        store.heap.slot? handle = some none ∧ LeavesSlot handle store operation := by
  have change := heapChange store operation
  generalize (store.after operation).heap = heap at change
  cases change with
  | untouched noHandle leaves =>
      simp [noHandle, leaves handle]
  | appended answered leaves =>
      rw [Heap.slot?_allocate, answered]
      by_cases isNew : handle = store.heap.size
      · simp [isNew]
      · simp [isNew, Ne.symm isNew, leaves handle]
  | @filled filled word _ noHandle fills written =>
      rw [Heap.slot?_of_write? written, noHandle, fills.leavesSlot_iff]
      by_cases sameSlot : filled = handle <;> simp [sameSlot]

/-- A request that does not fill a slot leaves its contents. -/
theorem slot?_after_of_leaves
    {store : Store Body} {operation : Operation Body} {handle : Handle}
    (present : handle < store.heap.size)
    (leaves : LeavesSlot handle store operation) :
    (store.after operation).heap.slot? handle = store.heap.slot? handle := by
  have change := heapChange store operation
  generalize (store.after operation).heap = heap at change
  cases change with
  | untouched noHandle leavesAll =>
      rfl
  | appended answered leavesAll =>
      rw [Heap.slot?_allocate, if_neg (Nat.ne_of_lt present)]
  | filled noHandle fills written =>
      rw [Heap.slot?_of_write? written, if_neg ((fills.leavesSlot_iff handle).mp leaves)]

/-- What is neither a write nor an allocation leaves the heap, granted or not. -/
theorem heap_after_of_other
    {operation : Operation Body}
    (notWrite : ∀ name value, operation ≠ .write name value)
    (notAllocation : ∀ name, operation ≠ .allocate name)
    (store : Store Body) :
    (store.after operation).heap = store.heap :=
  @holds_after Body (fun later => later.heap = store.heap) store operation
    (fun granted => granted.heap_eq notWrite notAllocation) rfl

/-- Only a slot that is there is filled. -/
theorem Fills.lt_size
    {store : Store Body} {operation : Operation Body} {handle : Handle} {value : Word}
    (fills : store.Fills operation handle value) :
    handle < store.heap.size := by
  have change := heapChange store operation
  generalize (store.after operation).heap = heap at change
  cases change with
  | untouched noHandle leaves | appended answered leaves =>
      exact (leaves handle value fills).elim
  | filled noHandle fillsToo written =>
      obtain ⟨rfl, rfl⟩ := fillsToo.unique fills
      simp only [Heap.write?, Option.ite_none_right_eq_some] at written
      exact written.1

/-- A slot holds no word after a request if it held none before and is left alone. -/
theorem read?_after_eq_none_iff
    (store : Store Body)
    (operation : Operation Body)
    (handle : Handle) :
    (store.after operation).heap.read? handle = none ↔
      store.heap.read? handle = none ∧ LeavesSlot handle store operation := by
  simp only [Option.eq_none_iff_forall_ne_some, ne_eq, Heap.read?_eq_some_iff,
    slot?_after_full_iff, not_or, forall_and]
  constructor
  · rintro ⟨leaves, notKept⟩
    exact ⟨fun value full => notKept value ⟨full, leaves⟩, leaves⟩
  · rintro ⟨empty, leaves⟩
    exact ⟨leaves, fun value kept => empty value kept.1⟩

/-- A slot holds no word after a history if it held none before and is never filled. -/
theorem read?_afterAll_eq_none_iff
    (store : Store Body)
    (operations : List (Operation Body))
    (handle : Handle) :
    (store.afterAll operations).heap.read? handle = none ↔
      store.heap.read? handle = none ∧ Abides (LeavesSlot handle) store operations := by
  induction operations generalizing store with
  | nil =>
      simp [Abides]
  | cons operation rest inductionHypothesis =>
      rw [afterAll_cons, inductionHypothesis, read?_after_eq_none_iff, and_assoc, Abides]

/-- A slot is full after a history if it is at first, or if it is filled and left from then on. -/
theorem slot?_afterAll_full_iff
    (store : Store Body)
    (operations : List (Operation Body))
    (handle : Handle)
    (value : Word) :
    (store.afterAll operations).heap.slot? handle = some (some value) ↔
      (store.heap.slot? handle = some (some value) ∧
          Abides (LeavesSlot handle) store operations) ∨
        ∃ earlier request later,
          operations = earlier ++ request :: later ∧
            (store.afterAll earlier).Fills request handle value ∧
            Abides (LeavesSlot handle) ((store.afterAll earlier).after request) later :=
  holds_afterAll_iff (fun store => store.heap.slot? handle = some (some value))
    (fun store operation => store.Fills operation handle value) (LeavesSlot handle)
    (fun store operation => slot?_after_full_iff store operation handle value)
    store operations

/-- A slot is empty after a history if it is at first, or appended, and left from then on. -/
theorem slot?_afterAll_empty_iff
    (store : Store Body)
    (operations : List (Operation Body))
    (handle : Handle) :
    (store.afterAll operations).heap.slot? handle = some none ↔
      (store.heap.slot? handle = some none ∧ Abides (LeavesSlot handle) store operations) ∨
        ∃ earlier request later,
          operations = earlier ++ request :: later ∧
            (store.afterAll earlier).allocatedHandle? request = some handle ∧
            Abides (LeavesSlot handle) ((store.afterAll earlier).after request) later :=
  holds_afterAll_iff (fun store => store.heap.slot? handle = some none)
    (fun store operation => store.allocatedHandle? operation = some handle) (LeavesSlot handle)
    (fun store operation => slot?_after_empty_iff store operation handle)
    store operations

/-- A slot that is full remains full. -/
theorem slot?_afterAll_of_full
    {store : Store Body} {handle : Handle} {value : Word}
    (full : store.heap.slot? handle = some (some value))
    (operations : List (Operation Body)) :
    ∃ newest, (store.afterAll operations).heap.slot? handle = some (some newest) := by
  have notEmpty : (store.afterAll operations).heap.read? handle ≠ none := by
    intro empty
    have emptyBefore := ((read?_afterAll_eq_none_iff store operations handle).mp empty).1
    rw [Heap.read?_eq_some_iff.mpr full] at emptyBefore
    contradiction
  obtain ⟨newest, contents⟩ := Option.ne_none_iff_exists'.mp notEmpty
  exact ⟨newest, Heap.read?_eq_some_iff.mp contents⟩

/--
After every history of requests to a new store: the handles that its granted
allocations answered are zero, one, two and so on, one for each slot. A slot
holds the word of the last write that was granted, after the slot had been
allocated, through a name that then designated a reference with its handle,
whatever that name and frame; it is empty if there was no such write.

So a further request changes a slot only by being such a write. What is neither
a write nor an allocation leaves the whole heap as it is, and so does every
request that is refused; and a slot that is full remains full.
-/
theorem heap_history
    (settings : Settings)
    (reporter : Reporter)
    (input : InputTape)
    (operations : List (Operation Body)) :
    let fresh := (withReporter settings reporter : Store Body).withInput input
    let reached := fresh.afterAll operations
    fresh.allocatedHandles operations = List.range reached.heap.size ∧
    reached.heap.size = (fresh.allocatedHandles operations).length ∧
    (∀ handle value,
      reached.heap.slot? handle = some (some value) ↔
        ∃ earlier request later,
          operations = earlier ++ request :: later ∧
            handle ∈ fresh.allocatedHandles earlier ∧
            (fresh.afterAll earlier).Fills request handle value ∧
            Abides (LeavesSlot handle) ((fresh.afterAll earlier).after request) later) ∧
    (∀ handle,
      reached.heap.slot? handle = some none ↔
        ∃ earlier request later,
          operations = earlier ++ request :: later ∧
            (fresh.afterAll earlier).allocatedHandle? request = some handle ∧
            Abides (LeavesSlot handle) ((fresh.afterAll earlier).after request) later) ∧
    (∀ operation handle,
      handle < reached.heap.size → LeavesSlot handle reached operation →
        (reached.after operation).heap.slot? handle = reached.heap.slot? handle) ∧
    (∀ operation,
      (∀ name value, operation ≠ .write name value) → (∀ name, operation ≠ .allocate name) →
        (reached.after operation).heap = reached.heap) ∧
    (∀ operation fault next,
      perform operation reached = .error fault next → next.heap = reached.heap) ∧
    (∀ later handle value,
      reached.heap.slot? handle = some (some value) →
        ∃ newest, (reached.afterAll later).heap.slot? handle = some (some newest)) := by
  intro fresh reached
  have answered (operations : List (Operation Body)) :
      fresh.allocatedHandles operations = List.range (fresh.afterAll operations).heap.size := by
    rw [range_size_afterAll]
    rfl
  have noSlot (handle : Handle) : fresh.heap.slot? handle = none := rfl
  refine ⟨answered operations, ?_, ?_, ?_, ?_, ?_, ?_, ?_⟩
  · rw [answered, List.length_range]
  · intro handle value
    rw [slot?_afterAll_full_iff]
    simp only [noSlot, reduceCtorEq, false_and, false_or]
    refine exists_congr fun earlier => exists_congr fun request => exists_congr fun later =>
      and_congr_right fun _ => ?_
    constructor
    · rintro ⟨fills, kept⟩
      exact ⟨by simpa [answered] using fills.lt_size, fills, kept⟩
    · rintro ⟨_, fills, kept⟩
      exact ⟨fills, kept⟩
  · intro handle
    rw [slot?_afterAll_empty_iff]
    simp only [noSlot, reduceCtorEq, false_and, false_or]
  · intro operation handle present leaves
    exact slot?_after_of_leaves present leaves
  · intro operation notWrite notAllocation
    exact heap_after_of_other notWrite notAllocation reached
  · intro operation fault next failed
    rw [eq_of_perform_error failed]
  · intro later handle value full
    exact slot?_afterAll_of_full full later

end Store

end RefScript
