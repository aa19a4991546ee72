import RefScript.Proofs.Store.Slots
import RefScript.Proofs.Store.TeardownOrder

namespace RefScript

/-!
# What the end of a scope or a frame does

The flags of the handles that bound references hold there are cleared, and each
of these references that designates no tracked handle is noted. Integers and
unbound references count for nothing, and a handle that is held more than once
counts once. Nothing else happens, in whatever order the cells are visited.
-/

/-- The note that a cell gives rise to where it ends, given the number of tracked handles. -/
def Cell.stray? (tracked : Nat) : Cell → Option StrayRef
  | ⟨.ref, some raw⟩ =>
      if raw.toInt < 0 ∨ (tracked : Int) ≤ raw.toInt then some ⟨raw, tracked⟩ else none
  | _ => none

namespace Store

variable {Body : Type} {store next : Store Body} {operation : Operation Body}
  {reply : Reply Body}

/-- The cells of the scopes that a request ends. -/
def cellsEndedBy (store : Store Body) (operation : Operation Body) : List Cell :=
  (store.endedBy operation).flatMap fun scope => scope.toList.map Prod.snd

/-- The frames without the scopes that a request ends. -/
def framesLeftBy (store : Store Body) : Operation Body → List Frame
  | .popScope =>
      store.stack.frames.modifyHead fun frame => { frame with scopes := frame.scopes.tail }
  | .popFrame => store.stack.frames.tail
  | _ => store.stack.frames

/-- What is left after the request, if it ends scopes. -/
structure Ended (store : Store Body) (operation : Operation Body) (next : Store Body) : Prop where
  /-- The handles that live on are those that no reference that ends designates. -/
  live : ∀ handle, next.liveness.isLive handle ↔
    store.liveness.isLive handle ∧
      ∀ cell ∈ store.cellsEndedBy operation, cell.handle? ≠ some handle
  /-- As many handles as before have a flag. -/
  tracked : next.liveness.size = store.liveness.size
  /-- Each stray reference that ends is noted once, and nothing else is. -/
  noted : ∃ notes,
    next.strays.toList = store.strays.toList ++ notes ∧
      notes.Perm ((store.cellsEndedBy operation).filterMap (Cell.stray? store.liveness.size))
  /-- Only the scopes that end are missing from the frames; all other storage is as before. -/
  storage : SameStorage (store.withFrames (store.framesLeftBy operation)) next

/-- The stray references among the cells are those among the bound references. -/
theorem straysAmong_filterMap (tracked : Nat) (cells : List Cell) :
    straysAmong tracked (cells.filterMap Cell.boundRef?) =
      cells.filterMap (Cell.stray? tracked) := by
  induction cells with
  | nil =>
      rfl
  | cons cell rest inductionHypothesis =>
      rcases cell with ⟨kind, value⟩
      rw [List.filterMap_cons, List.filterMap_cons, ← inductionHypothesis]
      match kind, value with
      | .int, _ | .ref, none =>
          rfl
      | .ref, some raw =>
          by_cases stray : raw.toInt < 0 ∨ (tracked : Int) ≤ raw.toInt <;>
            simp [straysAmong, Cell.boundRef?, Cell.stray?, stray]

theorem boundRefs_endedBy (store : Store Body) (operation : Operation Body) :
    (store.endedBy operation).flatMap Scope.boundRefs =
      (store.cellsEndedBy operation).filterMap Cell.boundRef? := by
  simp only [cellsEndedBy, List.filterMap_flatMap, List.filterMap_map]
  rfl

/-- The handles that references hold in the scopes are those that their cells designate. -/
theorem exists_holds_endedBy_iff {handle : Handle} :
    (∃ scope ∈ store.endedBy operation, scope.Holds handle) ↔
      ∃ cell ∈ store.cellsEndedBy operation, cell.handle? = some handle := by
  simp only [cellsEndedBy, List.mem_flatMap, List.mem_map, Prod.exists, Scope.mem_toList]
  constructor
  · rintro ⟨scope, ended, name, raw, found, holds⟩
    exact ⟨_, ⟨scope, ended, name, _, found, rfl⟩, Cell.handle?_eq_some_iff.mpr ⟨raw, rfl, holds⟩⟩
  · rintro ⟨_, ⟨scope, ended, name, cell, found, rfl⟩, designated⟩
    obtain ⟨raw, rfl, holds⟩ := Cell.handle?_eq_some_iff.mp designated
    exact ⟨scope, ended, name, raw, found, holds⟩

/-- A request that ends scopes removes them, and does nothing but what their end does. -/
theorem Granted.eq_endScopes
    (granted : Granted store operation reply next)
    (ends : operation = .popScope ∨ operation = .popFrame) :
    next = (store.withFrames (store.framesLeftBy operation)).endScopes (store.endedBy operation) := by
  rcases ends with rfl | rfl
  · cases granted with
    | popScope active popped =>
        obtain ⟨shape, _⟩ := Frame.popScope?_eq_some_iff.mp popped
        simp [framesLeftBy, endedBy, currentScopes_of_active active, active, shape]
  · cases granted with
    | popFrame active =>
        simp [framesLeftBy, endedBy, currentScopes_of_active active, active]

/-- A pop notes the stray references in the order in which it releases them. -/
theorem PopsInSomeOrder.exists_notes (popped : PopsInSomeOrder store operation next) :
    ∃ raws,
      raws.Perm ((store.endedBy operation).flatMap Scope.boundRefs) ∧
        next.strays.toList = store.strays.toList ++ straysAmong store.liveness.size raws := by
  cases popped with
  | @scope frame outer callers scope raws active popped reordered =>
      obtain ⟨shape, _⟩ := Frame.popScope?_eq_some_iff.mp popped
      refine ⟨raws, ?_, ?_⟩
      · simpa [endedBy, currentScopes_of_active active, shape] using reordered
      · rw [strays_recount, strays_foldl_retire]
        rfl
  | @frame frame callers raws active reordered =>
      refine ⟨raws, ?_, ?_⟩
      · simpa [endedBy, currentScopes_of_active active] using reordered
      · rw [strays_recount, strays_foldl_retire]
        rfl

/-- A pop does what ends the scopes and nothing else, whatever the order of its releases. -/
theorem PopsInSomeOrder.ended
    (popped : PopsInSomeOrder store operation next)
    (ends : operation = .popScope ∨ operation = .popFrame) :
    Ended store operation next := by
  obtain ⟨inOrder, granted, same⟩ := popped.granted
  have isEnd := granted.eq_endScopes ends
  have sameLiveness : next.liveness = inOrder.liveness := by rw [same.others]
  refine ⟨fun handle => ?_, ?_, ?_, ?_⟩
  · have noneHolds :
        (∀ scope ∈ store.endedBy operation, ¬ scope.Holds handle) ↔
          ∀ cell ∈ store.cellsEndedBy operation, cell.handle? ≠ some handle := by
      simpa using not_congr exists_holds_endedBy_iff
    rw [sameLiveness, isEnd, isLive_endScopes, noneHolds]
    rfl
  · rw [sameLiveness, isEnd]
    exact (liveness_endScopes _ _).1
  · obtain ⟨raws, reordered, noted⟩ := popped.exists_notes
    refine ⟨_, noted, ?_⟩
    rw [← straysAmong_filterMap, ← boundRefs_endedBy]
    exact (reordered.filter _).map _
  · have sameStorage := sameStorage_endScopes
      (store.withFrames (store.framesLeftBy operation)) (store.endedBy operation)
    rw [← isEnd] at sameStorage
    refine sameStorage.trans ?_
    rw [same.others]
    exact ⟨rfl, rfl, rfl, rfl, rfl, rfl⟩

/--
A frame or a scope that is left has an exact effect: the handles that a reference
held in a scope that ends are dead, and all others as live as before; each
reference that ends with a negative value, or with one that is not below the
number of flags, is noted once with both, and nothing else is noted; and neither
the number of flags nor the heap, the globals, the functions, the input or any
frame or scope that remains is changed.

All of this is so in whatever order the references are released. Two orders lead
to the same store, but for the order of the notes.
-/
theorem pops_have_exact_effect
    (ends : operation = .popScope ∨ operation = .popFrame)
    (done : perform operation store = .ok reply next) :
    Ended store operation next ∧
      PopsInSomeOrder store operation next ∧
        ∀ other, PopsInSomeOrder store operation other →
          Ended store operation other ∧ SameButStrayOrder next other := by
  have granted := granted_of_perform done
  have popped := granted.popsInSomeOrder ends
  refine ⟨popped.ended ends, popped, fun other poppedToo => ⟨poppedToo.ended ends, ?_⟩⟩
  obtain ⟨inOrder, grantedToo, same⟩ := poppedToo.granted
  have sameNext : inOrder = next := by
    have performed := perform_of_granted grantedToo
    rw [done] at performed
    cases performed
    rfl
  rwa [sameNext] at same

/-- A call that has bound a handle twice, a negative value and one that is no handle. -/
def strayingCall : Store Unit :=
  (initial Settings.standard).afterAll
    [.declare "shared" .ref, .allocate "shared", .declare "kept" .ref, .allocate "kept",
      .declare "low" .int, .write "low" (-3), .declare "high" .int, .write "high" 9,
      .pushCallFrame "use" ["first", "low", "high", "last"] ["shared", "low", "high", "shared"],
      .pushScope, .declare "unbound" .ref, .declare "kept" .int]

/-- The call's end kills the shared handle alone, and notes two values, in either order. -/
theorem end_of_straying_call :
    ∃ next other,
      perform .popFrame strayingCall = .ok .done next ∧
        PopsInSomeOrder strayingCall .popFrame other ∧
        ¬ next.liveness.isLive 0 ∧
        next.liveness.isLive 1 ∧
        next.strays.toList.Perm [⟨-3, 2⟩, ⟨9, 2⟩] ∧
        other.strays.toList.Perm [⟨-3, 2⟩, ⟨9, 2⟩] ∧
        next.stack.frames = [] := by
  obtain ⟨frame, active⟩ : ∃ frame, strayingCall.stack.frames = [frame] :=
    List.length_eq_one_iff.mp (by decide +kernel)
  have backwards : PopsInSomeOrder strayingCall .popFrame _ :=
    .frame active (List.reverse_perm _)
  have done := perform_of_granted (.popFrame active : Granted strayingCall .popFrame .done _)
  obtain ⟨ended, -, inAnyOrder⟩ := pops_have_exact_effect (Or.inr rfl) done
  have endedBackwards := (inAnyOrder _ backwards).1
  have cells : strayingCall.cellsEndedBy .popFrame =
      [⟨.int, some 0⟩, ⟨.ref, none⟩, ⟨.ref, some 0⟩, ⟨.ref, some 9⟩, ⟨.ref, some 0⟩,
        ⟨.ref, some (-3)⟩] := by
    decide +kernel
  have before : strayingCall.strays = #[] := by decide +kernel
  have noted (store : Store Unit) (ended : Ended strayingCall .popFrame store) :
      store.strays.toList.Perm [⟨-3, 2⟩, ⟨9, 2⟩] := by
    obtain ⟨notes, strays, perm⟩ := ended.noted
    rw [cells] at perm
    rw [strays, before]
    exact perm.trans (.swap _ _ _)
  refine ⟨_, _, done, backwards, ?_, ?_, noted _ ended, noted _ endedBackwards, ?_⟩
  · rw [ended.live, cells]
    rintro ⟨_, spared⟩
    exact spared ⟨.ref, some 0⟩ (by simp) (by decide)
  · rw [ended.live, cells]
    refine ⟨by decide +kernel, ?_⟩
    simp [Cell.handle?, Word.toHandle?]
  · rw [ended.storage.stack, frames_withFrames, framesLeftBy, active]
    rfl

end Store

end RefScript
