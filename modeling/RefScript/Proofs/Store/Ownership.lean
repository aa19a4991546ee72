import Mathlib.Data.Finset.Card
import RefScript.Proofs.Store.Atomicity
import RefScript.Proofs.Store.Histories
import RefScript.Proofs.Store.References

namespace RefScript

/-!
# Live handles and the references that hold them

A flag says that a handle is live, not that a reference holds it: a reference
that gets another value leaves its former handle live, though perhaps no other
reference holds it. Where no bound reference gets another value or another
declaration, every live handle is held by a reference. Where, besides, no
reference gets its value from another variable, every live handle is held by
one reference alone and every bound reference holds a live handle, so that the
live count is the number of bound references.
-/

namespace Liveness

/-- The live handles. -/
def liveHandles (liveness : Liveness) : Finset Handle :=
  (Finset.range liveness.size).filter fun handle => liveness.isLive handle

theorem mem_liveHandles {liveness : Liveness} {handle : Handle} :
    handle ∈ liveness.liveHandles ↔ liveness.isLive handle := by
  simp only [liveHandles, Finset.mem_filter, Finset.mem_range, and_iff_right_iff_imp]
  exact lt_size_of_isLive

theorem card_liveHandles (liveness : Liveness) :
    liveness.liveHandles.card = liveness.liveCount := by
  have listed :
      liveness.liveHandles.card =
        ((List.range liveness.size).filter fun handle => decide (liveness.isLive handle)).length :=
    rfl
  rw [listed, ← countP_isLive, List.countP_eq_length_filter]
  simp

end Liveness

namespace Store

variable {Body : Type} {store next : Store Body} {operation : Operation Body}
  {reply : Reply Body}

/-- Every live handle is held by a reference. -/
def LiveHeld (store : Store Body) : Prop :=
  ∀ handle, store.liveness.isLive handle → ∃ raw ∈ store.boundRefs, raw.toInt = handle

/--
A request that overwrites no reference leaves in place what is held before or
gained by it, but for the scopes that it ends.
-/
theorem Granted.mem_boundRefs_of_kept
    (granted : Granted store operation reply next)
    (kept : store.overwritten? operation = none)
    {raw : Word} {handle : Handle}
    (member : raw ∈ store.boundRefs + store.gainedBy operation)
    (holds : raw.toInt = handle)
    (notEnded : ∀ scope ∈ store.endedBy operation, ¬ scope.Holds handle) :
    raw ∈ next.boundRefs := by
  rw [← granted.boundRefs_eq, lostBy, kept, Multiset.mem_add, Multiset.mem_add] at member
  rcases member with after | ended | overwritten
  · exact after
  · obtain ⟨scope, isEnded, name, found⟩ := Scope.mem_boundIn.mp ended
    exact (notEnded scope isEnded ⟨name, raw, found, holds⟩).elim
  · simp at overwritten

/-- The handle that a request answers is new, a reference gains it, and no scope ends. -/
theorem Granted.gained_of_handle
    {handle : Handle}
    (granted : Granted store operation (.handle handle) next) :
    handle = store.heap.size ∧ store.endedBy operation = [] ∧
      ∃ raw, store.gainedBy operation = {raw} ∧ raw.toInt = handle := by
  cases granted with
  | @allocate _ _ word _ found isRef fits assigned =>
      obtain ⟨stack, globals, rfl⟩ := assign?_others assigned
      refine ⟨rfl, rfl, word, ?_, Word.toInt_of_ofHandle? fits⟩
      simp [gainedBy, fits]

/-- A request that overwrites no reference leaves a holder to every live handle. -/
theorem LiveHeld.of_granted
    (held : LiveHeld store)
    (consistent : Consistent store)
    (kept : store.overwritten? operation = none)
    (granted : Granted store operation reply next) :
    LiveHeld next := by
  intro handle live
  rcases (granted.isLive_iff consistent handle).mp live with rfl | ⟨before, notEnded⟩
  · obtain ⟨_, noneEnded, raw, gained, holds⟩ := granted.gained_of_handle
    have member : raw ∈ store.boundRefs + store.gainedBy operation := by
      simp [gained]
    exact ⟨raw, granted.mem_boundRefs_of_kept kept member holds (by simp [noneEnded]), holds⟩
  · obtain ⟨raw, isBound, holds⟩ := held handle before
    have member : raw ∈ store.boundRefs + store.gainedBy operation :=
      Multiset.mem_add.mpr (Or.inl isBound)
    exact ⟨raw, granted.mem_boundRefs_of_kept kept member holds notEnded, holds⟩

/-- The live handles are no more than the values that references hold. -/
theorem LiveHeld.liveCount_le (held : LiveHeld store) :
    store.liveness.liveCount ≤ store.boundRefs.toFinset.card := by
  have included :
      store.liveness.liveHandles ⊆
        store.boundRefs.toFinset.image fun raw => raw.toInt.toNat := by
    intro handle live
    obtain ⟨raw, member, holds⟩ := held handle (Liveness.mem_liveHandles.mp live)
    exact Finset.mem_image.mpr ⟨raw, Multiset.mem_toFinset.mpr member, by rw [holds]; rfl⟩
  calc
    store.liveness.liveCount = store.liveness.liveHandles.card :=
      store.liveness.card_liveHandles.symm
    _ ≤ (store.boundRefs.toFinset.image fun raw => raw.toInt.toNat).card :=
      Finset.card_le_card included
    _ ≤ store.boundRefs.toFinset.card :=
      Finset.card_image_le

/--
After every history of requests to a new store in which no bound reference gets
another value or, in its own scope, another declaration: every live handle is
held by a reference, global or in a scope of some frame. So the live count does
not exceed the number of raw values that references hold.
-/
theorem live_handles_are_held
    (settings : Settings)
    (reporter : Reporter)
    (input : InputTape)
    (operations : List (Operation Body))
    (kept :
      Abides (fun store operation => store.overwritten? operation = none)
        ((withReporter settings reporter).withInput input) operations) :
    let fresh := (withReporter settings reporter : Store Body).withInput input
    let reached := fresh.afterAll operations
    (∀ handle, reached.liveness.isLive handle →
      ∃ scope ∈ reached.scopes, scope.Holds handle) ∧
    reached.liveness.reachable ≤ reached.boundRefs.toFinset.card := by
  intro fresh reached
  have invariant : Consistent reached ∧ LiveHeld reached := by
    refine afterAll_of_abides (fun store => Consistent store ∧ LiveHeld store) ?_ kept ?_
    · rintro store next operation reply keeps granted ⟨consistent, held⟩
      exact ⟨granted.consistent consistent, held.of_granted consistent keeps granted⟩
    · refine ⟨consistent_fresh settings reporter input, fun handle live => ?_⟩
      exact absurd (Liveness.lt_size_of_isLive live) (Nat.not_lt_zero handle)
  obtain ⟨consistent, held⟩ := invariant
  constructor
  · intro handle live
    obtain ⟨raw, member, holds⟩ := held handle live
    obtain ⟨scope, isScope, name, found⟩ := Scope.mem_boundIn.mp member
    exact ⟨scope, isScope, name, raw, found, holds⟩
  · rw [consistent.countCurrent]
    exact held.liveCount_le

/--
Two parameters of one name, the second of which takes its value from a reference
that got its own from an integer; a local variable that shadows them; and, after
the call, a slot that no other request but the last one knows.
-/
def holdingHistory : List (Operation Unit) :=
  [.declare "first" .ref, .allocate "first", .declare "second" .ref, .allocate "second",
    .declare "number" .int, .copy "number" "second", .pushFrame, .declare "alias" .ref,
    .copy "alias" "number", .pushCallFrame "swap" ["slot", "slot"] ["first", "alias"],
    .declare "slot" .ref, .allocate "slot", .popFrame, .pushScope, .declare "first" .ref,
    .allocate "first"]

/--
The call has cleared the flags of the last parameter and of the local variable;
the two live handles that remain are held, though four references are bound.
-/
theorem parameters_leave_the_rest_held :
    let fresh := (withReporter Settings.standard .silent : Store Unit).withInput .empty
    let reached := fresh.afterAll holdingHistory
    Abides (fun store operation => store.overwritten? operation = none) fresh holdingHistory ∧
      reached.liveness.flags = #[true, false, false, true] ∧
      (∃ scope ∈ reached.scopes, scope.Holds 0) ∧
      (∃ scope ∈ reached.scopes, scope.Holds 3) ∧
      reached.liveness.reachable ≤ reached.boundRefs.toFinset.card := by
  intro fresh reached
  have kept :
      Abides (fun store operation => store.overwritten? operation = none)
        fresh holdingHistory := by
    decide +kernel
  have flags : reached.liveness.flags = #[true, false, false, true] := by
    decide +kernel
  have firstLive : reached.liveness.isLive 0 := by
    simp [Liveness.isLive, flags]
  have lastLive : reached.liveness.isLive 3 := by
    simp [Liveness.isLive, flags]
  obtain ⟨held, notExceeded⟩ := live_handles_are_held _ _ _ holdingHistory kept
  -- Without the names the counts are the same as they stand, and no history is run to see it.
  subst reached fresh
  exact ⟨kept, flags, held 0 firstLive, held 3 lastLive, notExceeded⟩

/-- Whether no reference gets the value of another variable, by a copy or by a call. -/
def sharesNothing (store : Store Body) : Operation Body → Bool
  | .copy target _ => (store.find? target).all fun cell => !cell.isRef
  | .pushCallFrame _ _ actuals => actuals.isEmpty
  | _ => true

/-- Live handles and bound references are in one-to-one correspondence. -/
structure SolelyOwned (store : Store Body) : Prop where
  distinct : store.boundRefs.Nodup
  holdsLive :
    ∀ raw ∈ store.boundRefs, ∃ handle : Handle,
      raw.toInt = handle ∧ store.liveness.isLive handle
  liveHeld : LiveHeld store

/-- Where nothing is shared, references gain the handles of new slots alone. -/
theorem gainedBy_eq_zero
    (unshared : store.sharesNothing operation = true)
    (notAllocation : ∀ name, operation ≠ .allocate name) :
    store.gainedBy operation = 0 := by
  rw [Multiset.eq_zero_iff_forall_notMem]
  intro raw gained
  cases origin_of_mem_gainedBy gained with
  | slot newest =>
      exact notAllocation _ rfl
  | copied foundTarget isRef found holds =>
      simp [sharesNothing, foundTarget, Cell.isRef, isRef] at unshared
  | passed isActual found holds =>
      rw [sharesNothing, List.isEmpty_iff] at unshared
      simp [unshared] at isActual

/-- Where nothing is shared, a request gains nothing unless it answers the handle of a new slot. -/
theorem Granted.gainedBy_eq_zero_or
    (granted : Granted store operation reply next)
    (unshared : store.sharesNothing operation = true) :
    store.gainedBy operation = 0 ∨ ∃ handle, reply = .handle handle := by
  by_cases isAllocation : ∃ name, operation = .allocate name
  · obtain ⟨name, rfl⟩ := isAllocation
    cases granted with
    | allocate => exact Or.inr ⟨_, rfl⟩
  · exact Or.inl (gainedBy_eq_zero unshared (not_exists.mp isAllocation))

namespace SolelyOwned

/-- Where nothing is shared, what references hold and what they gain is all distinct. -/
theorem nodup_gained
    (owned : SolelyOwned store)
    (consistent : Consistent store)
    (unshared : store.sharesNothing operation = true)
    (granted : Granted store operation reply next) :
    (store.boundRefs + store.gainedBy operation).Nodup := by
  rcases granted.gainedBy_eq_zero_or unshared with nothing | ⟨handle, rfl⟩
  · rw [nothing, add_zero]
    exact owned.distinct
  · obtain ⟨isNew, _, raw, gained, holds⟩ := granted.gained_of_handle
    have notBound : raw ∉ store.boundRefs := by
      intro isBound
      obtain ⟨other, holdsToo, live⟩ := owned.holdsLive raw isBound
      have tracked := Liveness.lt_size_of_isLive live
      have sameHandle : other = handle := Int.ofNat.inj (holdsToo.symm.trans holds)
      rw [consistent.flagPerSlot, sameHandle, isNew] at tracked
      exact Nat.lt_irrefl _ tracked
    rw [gained, add_comm, Multiset.singleton_add]
    exact Multiset.nodup_cons.mpr ⟨notBound, owned.distinct⟩

/-- Where nothing is shared or overwritten, the correspondence is kept. -/
theorem of_granted
    (owned : SolelyOwned store)
    (consistent : Consistent store)
    (kept : store.overwritten? operation = none)
    (unshared : store.sharesNothing operation = true)
    (granted : Granted store operation reply next) :
    SolelyOwned next := by
  have allDistinct := owned.nodup_gained consistent unshared granted
  rw [← granted.boundRefs_eq, Multiset.nodup_add] at allDistinct
  obtain ⟨distinct, _, separate⟩ := allDistinct
  refine ⟨distinct, ?_, owned.liveHeld.of_granted consistent kept granted⟩
  intro raw member
  have source : raw ∈ store.boundRefs + store.gainedBy operation := by
    rw [← granted.boundRefs_eq]
    exact Multiset.mem_add.mpr (Or.inl member)
  rcases Multiset.mem_add.mp source with isBound | gained
  · obtain ⟨handle, holds, live⟩ := owned.holdsLive raw isBound
    refine ⟨handle, holds, (granted.isLive_iff consistent handle).mpr (Or.inr ⟨live, ?_⟩)⟩
    -- A reference that ends with its scope holds another value than the one that stays.
    rintro scope ended ⟨name, other, found, holdsToo⟩
    have sameValue : other = raw := Int32.toInt_inj.mp (holdsToo.trans holds.symm)
    subst sameValue
    have lost : other ∈ store.lostBy operation :=
      Multiset.mem_add.mpr (Or.inl (Scope.mem_boundIn.mpr ⟨scope, ended, name, found⟩))
    exact Multiset.disjoint_left.mp separate member lost
  · rcases granted.gainedBy_eq_zero_or unshared with nothing | ⟨handle, rfl⟩
    · simp [nothing] at gained
    · obtain ⟨_, _, newest, gains, holds⟩ := granted.gained_of_handle
      rw [gains, Multiset.mem_singleton] at gained
      subst gained
      exact ⟨handle, holds, (granted.isLive_iff consistent handle).mpr (Or.inl rfl)⟩

/-- The handles that references hold are the live ones, each held once. -/
theorem map_toNat_boundRefs (owned : SolelyOwned store) :
    (store.boundRefs.map fun raw => raw.toInt.toNat) = store.liveness.liveHandles.val := by
  have injective :
      ∀ first ∈ store.boundRefs, ∀ second ∈ store.boundRefs,
        first.toInt.toNat = second.toInt.toNat → first = second := by
    intro first isFirst second isSecond same
    obtain ⟨handle, holds, _⟩ := owned.holdsLive first isFirst
    obtain ⟨other, holdsToo, _⟩ := owned.holdsLive second isSecond
    apply Int32.toInt_inj.mp
    omega
  rw [Multiset.Nodup.ext (owned.distinct.map_on injective) store.liveness.liveHandles.nodup]
  intro handle
  rw [Multiset.mem_map, Finset.mem_val, Liveness.mem_liveHandles]
  constructor
  · rintro ⟨raw, member, rfl⟩
    obtain ⟨handle, holds, live⟩ := owned.holdsLive raw member
    rw [holds]
    exact live
  · intro live
    obtain ⟨raw, member, holds⟩ := owned.liveHeld handle live
    exact ⟨raw, member, by rw [holds]; rfl⟩

/-- The live count is the number of bound references. -/
theorem liveCount_eq (owned : SolelyOwned store) :
    store.liveness.liveCount = store.boundRefs.card := by
  calc
    store.liveness.liveCount = store.liveness.liveHandles.val.card :=
      store.liveness.card_liveHandles.symm
    _ = (store.boundRefs.map fun raw => raw.toInt.toNat).card := by
      rw [owned.map_toNat_boundRefs]
    _ = store.boundRefs.card :=
      Multiset.card_map _ _

/-- A handle is live if and only if exactly one reference holds it. -/
theorem isLive_iff (owned : SolelyOwned store) (handle : Handle) :
    store.liveness.isLive handle ↔
      store.boundRefs.countP (fun raw => raw.toInt = (handle : Int)) = 1 := by
  constructor
  · intro live
    obtain ⟨raw, member, holds⟩ := owned.liveHeld handle live
    have holdsSame : ∀ other ∈ store.boundRefs,
        (other.toInt = (handle : Int)) = (raw = other) := by
      intro other _
      rw [← holds, Int32.toInt_inj]
      exact propext eq_comm
    calc
      store.boundRefs.countP (fun other => other.toInt = (handle : Int))
          = store.boundRefs.countP (fun other => raw = other) :=
        Multiset.countP_congr rfl holdsSame
      _ = 1 :=
        Multiset.count_eq_one_of_mem owned.distinct member
  · intro one
    have held : 0 < store.boundRefs.countP fun raw => raw.toInt = (handle : Int) := by
      omega
    obtain ⟨raw, member, holds⟩ := Multiset.countP_pos.mp held
    obtain ⟨other, holdsToo, live⟩ := owned.holdsLive raw member
    have sameHandle : other = handle := Int.ofNat.inj (holdsToo.symm.trans holds)
    rw [← sameHandle]
    exact live

end SolelyOwned

/--
After every history of requests to a new store in which no bound reference gets
another value or, in its own scope, another declaration, and none gets its value
from another variable: a handle is live if and only if exactly one reference,
global or in a scope of some frame, holds it; all bound references hold the
handles of slots, each another one; and the live count that the store reports
last is the number of bound references.
-/
theorem live_count_is_exact
    (settings : Settings)
    (reporter : Reporter)
    (input : InputTape)
    (operations : List (Operation Body))
    (abides :
      Abides
        (fun store operation =>
          store.overwritten? operation = none ∧ store.sharesNothing operation)
        ((withReporter settings reporter).withInput input) operations) :
    let fresh := (withReporter settings reporter : Store Body).withInput input
    let reached := fresh.afterAll operations
    (∀ handle,
      reached.liveness.isLive handle ↔
        reached.boundRefs.countP (fun raw => raw.toInt = (handle : Int)) = 1) ∧
    reached.boundRefs.Nodup ∧
    (∀ raw ∈ reached.boundRefs,
      ∃ handle : Handle, raw.toInt = handle ∧ handle < reached.heap.size) ∧
    reached.liveness.reachable = reached.boundRefs.card := by
  intro fresh reached
  have invariant : Consistent reached ∧ SolelyOwned reached := by
    refine afterAll_of_abides (fun store => Consistent store ∧ SolelyOwned store) ?_ abides ?_
    · rintro store next operation reply ⟨kept, unshared⟩ granted ⟨consistent, owned⟩
      exact ⟨granted.consistent consistent, owned.of_granted consistent kept unshared granted⟩
    · have noneBound : fresh.boundRefs = 0 := boundRefs_fresh settings reporter input
      refine ⟨consistent_fresh settings reporter input,
        by simp [noneBound], by simp [noneBound], fun handle live => ?_⟩
      exact absurd (Liveness.lt_size_of_isLive live) (Nat.not_lt_zero handle)
  obtain ⟨consistent, owned⟩ := invariant
  refine ⟨owned.isLive_iff, owned.distinct, ?_, ?_⟩
  · intro raw member
    obtain ⟨handle, holds, live⟩ := owned.holdsLive raw member
    have tracked := Liveness.lt_size_of_isLive live
    rw [consistent.flagPerSlot] at tracked
    exact ⟨handle, holds, tracked⟩
  · rw [consistent.countCurrent, owned.liveCount_eq]

/--
A variable and two that a block declares, one of which shadows the first; a call
with a variable of its own; the end of the call and of the block; and a block
that shadows the variable once more.
-/
def nestedHistory : List (Operation Unit) :=
  [.declare "x" .ref, .pushFrame, .declare "x" .ref, .allocate "x", .pushScope,
    .declare "x" .ref, .allocate "x", .declare "y" .ref, .allocate "y",
    .pushCallFrame "local" [] [], .declare "z" .ref, .allocate "z", .popFrame, .popScope,
    .pushScope, .declare "x" .ref, .allocate "x"]

/-- Two references are bound, and each of the two live handles is held by one of them. -/
theorem nested_blocks_are_counted :
    let fresh := (withReporter Settings.standard .silent : Store Unit).withInput .empty
    let reached := fresh.afterAll nestedHistory
    Abides
        (fun store operation =>
          store.overwritten? operation = none ∧ store.sharesNothing operation)
        fresh nestedHistory ∧
      reached.liveness.flags = #[true, false, false, false, true] ∧
      reached.boundRefs.countP (fun raw => raw.toInt = 0) = 1 ∧
      reached.boundRefs.countP (fun raw => raw.toInt = 3) ≠ 1 ∧
      reached.boundRefs.Nodup ∧
      reached.boundRefs.card = 2 := by
  intro fresh reached
  have abides :
      Abides
        (fun store operation =>
          store.overwritten? operation = none ∧ store.sharesNothing operation)
        fresh nestedHistory := by
    decide +kernel
  have flags : reached.liveness.flags = #[true, false, false, false, true] := by
    decide +kernel
  have reported : reached.liveness.reachable = 2 := by
    decide +kernel
  have firstLive : reached.liveness.isLive 0 := by
    simp [Liveness.isLive, flags]
  have localDead : ¬ reached.liveness.isLive 3 := by
    simp [Liveness.isLive, flags]
  obtain ⟨isLive_iff, distinct, _, counted⟩ := live_count_is_exact _ _ _ nestedHistory abides
  subst reached fresh
  exact ⟨abides, flags, (isLive_iff 0).mp firstLive, mt (isLive_iff 3).mpr localDead, distinct,
    counted.symm.trans reported⟩

end Store

end RefScript
