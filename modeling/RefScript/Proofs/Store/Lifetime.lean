import RefScript.Proofs.Store.Consistency
import RefScript.Proofs.Store.Histories

namespace RefScript

/-!
# The life of a handle

A handle is live from the request that allocates it up to the first request
after that which ends a scope where a reference holds it. Nothing else matters:
no alias, call, copy or later allocation raises a flag again, and no
overwriting of a reference clears one.
-/

namespace Scope

/-- A reference of the scope has the handle as its raw value. -/
def Holds (scope : Scope) (handle : Handle) : Prop :=
  ∃ name raw, scope.find? name = some ⟨.ref, some raw⟩ ∧ raw.toInt = handle

theorem mem_boundRefs {scope : Scope} {raw : Word} :
    raw ∈ scope.boundRefs ↔ ∃ name, scope.find? name = some ⟨.ref, some raw⟩ := by
  simp only [boundRefs, List.mem_filterMap, Prod.exists, mem_toList]
  constructor
  · rintro ⟨name, ⟨kind, value⟩, found, bound⟩
    cases kind with
    | int =>
        simp [Cell.boundRef?] at bound
    | ref =>
        simp only [Cell.boundRef?] at bound
        subst bound
        exact ⟨name, found⟩
  · rintro ⟨name, found⟩
    exact ⟨name, ⟨.ref, some raw⟩, found, rfl⟩

end Scope

/-- A word spells exactly the handle that is its value. -/
theorem Word.toHandle?_eq_some_iff {raw : Word} {handle : Handle} :
    toHandle? raw = some handle ↔ raw.toInt = handle := by
  unfold toHandle?
  by_cases negative : raw.toInt < 0
  · rw [if_pos negative]
    constructor
    · intro spelled
      contradiction
    · intro same
      omega
  · rw [if_neg negative, Option.some.injEq]
    change raw.toInt.toNat = (handle : Nat) ↔ _
    omega

namespace Liveness

variable {liveness cleared : Liveness}

theorem isLive_eq (liveness : Liveness) (handle : Handle) :
    liveness.isLive handle = (liveness.flags[handle]?).getD false := by
  simp [isLive, Array.getD_eq_getD_getElem?]

/-- Only a tracked handle is live. -/
theorem lt_size_of_isLive {handle : Handle} (live : liveness.isLive handle) :
    handle < liveness.size := by
  rcases Nat.lt_or_ge handle liveness.size with tracked | untracked
  · exact tracked
  · have absent : liveness.flags[handle]? = none := Array.getElem?_eq_none untracked
    simp [isLive_eq, absent] at live

/-- The flag that is appended belongs to the next handle. -/
theorem isLive_of_push
    {later : Liveness}
    (appended : later.flags = liveness.flags.push true)
    (handle : Handle) :
    later.isLive handle ↔ liveness.size = handle ∨ liveness.isLive handle := by
  simp only [isLive_eq, appended, Array.getElem?_push, size]
  by_cases isNext : handle = liveness.flags.size
  · simp [isNext]
  · simp [isNext, Ne.symm isNext]

/-- Retiring a raw value leaves alive exactly the live handles other than that value. -/
theorem isLive_of_markDead?
    {raw : Word}
    (tracked : liveness.markDead? raw = some cleared)
    (handle : Handle) :
    cleared.isLive handle ↔ liveness.isLive handle ∧ raw.toInt ≠ handle := by
  unfold markDead? at tracked
  cases spelled : Word.toHandle? raw with
  | none =>
      simp [spelled] at tracked
  | some retired =>
      simp only [spelled, Option.ite_none_right_eq_some, Option.some.injEq] at tracked
      obtain ⟨inRange, rfl⟩ := tracked
      have sameValue : raw.toInt = retired := Word.toHandle?_eq_some_iff.mp spelled
      rw [sameValue]
      simp only [isLive_eq, Array.getElem?_setIfInBounds]
      by_cases sameHandle : retired = handle
      · subst sameHandle
        simp only [size] at inRange
        simp [inRange]
      · have otherValue : (retired : Int) ≠ (handle : Int) := by exact_mod_cast sameHandle
        simp [sameHandle, otherValue]

/-- A raw value that cannot be retired is no live handle. -/
theorem not_isLive_of_markDead?
    {raw : Word}
    (stray : liveness.markDead? raw = none)
    {handle : Handle}
    (same : raw.toInt = handle) :
    ¬ liveness.isLive handle := by
  intro live
  have inRange := lt_size_of_isLive live
  simp [markDead?, Word.toHandle?_eq_some_iff.mpr same, inRange] at stray

/-- Of the live handles a raw value takes away its own, be it tracked or stray. -/
theorem isLive_getD_markDead? (liveness : Liveness) (raw : Word) (handle : Handle) :
    ((liveness.markDead? raw).getD liveness).isLive handle ↔
      liveness.isLive handle ∧ raw.toInt ≠ handle := by
  cases tracked : liveness.markDead? raw with
  | some cleared =>
      exact isLive_of_markDead? tracked handle
  | none =>
      constructor
      · intro live
        exact ⟨live, fun same => not_isLive_of_markDead? tracked same live⟩
      · exact And.left

end Liveness

namespace Store

variable {Body : Type}

/-- The scopes of the current frame, innermost first. -/
def currentScopes (store : Store Body) : List Scope :=
  (store.stack.current?.map Frame.scopes).getD []

/-- The scopes that a request ends when it is granted. -/
def endedBy (store : Store Body) : Operation Body → List Scope
  | .popScope => store.currentScopes.take 1
  | .popFrame => store.currentScopes
  | _ => []

/-- The request is granted and answered with the handle of a new slot. -/
def Allocates
    (store : Store Body)
    (operation : Operation Body)
    (handle : Handle) : Prop :=
  ∃ name next, operation = .allocate name ∧
    perform operation store = .ok (.handle handle) next

/-- The request is granted and ends a scope in which a reference holds the handle. -/
def Destroys
    (store : Store Body)
    (operation : Operation Body)
    (handle : Handle) : Prop :=
  (∃ reply next, perform operation store = .ok reply next) ∧
    ∃ scope ∈ store.endedBy operation, scope.Holds handle

/-- No request of the history destroys a reference that holds the handle. -/
def Spares
    (store : Store Body)
    (operations : List (Operation Body))
    (handle : Handle) : Prop :=
  ∀ earlier operation later, operations = earlier ++ operation :: later →
    ¬ (store.afterAll earlier).Destroys operation handle

theorem spares_iff_abides
    {store : Store Body}
    {operations : List (Operation Body)}
    {handle : Handle} :
    store.Spares operations handle ↔
      Abides (fun store operation => ¬ store.Destroys operation handle) store operations := by
  rw [Spares, abides_iff]

private theorem isLive_retire (store : Store Body) (raw : Word) (handle : Handle) :
    (store.retire raw).liveness.isLive handle ↔
      store.liveness.isLive handle ∧ raw.toInt ≠ handle := by
  have retired :
      (store.retire raw).liveness = (store.liveness.markDead? raw).getD store.liveness := by
    unfold retire
    cases store.liveness.markDead? raw <;> rfl
  rw [retired, Liveness.isLive_getD_markDead?]

private theorem isLive_foldl_retire
    (raws : List Word)
    (store : Store Body)
    (handle : Handle) :
    (raws.foldl retire store).liveness.isLive handle ↔
      store.liveness.isLive handle ∧ ∀ raw ∈ raws, raw.toInt ≠ handle := by
  induction raws generalizing store with
  | nil =>
      simp
  | cons raw rest inductionHypothesis =>
      rw [List.foldl_cons, inductionHypothesis, isLive_retire, List.forall_mem_cons,
        and_assoc]

private theorem isLive_release
    (store : Store Body)
    (scope : Scope)
    (handle : Handle) :
    (store.release scope).liveness.isLive handle ↔
      store.liveness.isLive handle ∧ ¬ scope.Holds handle := by
  rw [release, isLive_foldl_retire]
  refine and_congr_right fun _ => ?_
  constructor
  · rintro kept ⟨name, raw, found, same⟩
    exact kept raw (Scope.mem_boundRefs.mpr ⟨name, found⟩) same
  · intro free raw bound same
    obtain ⟨name, found⟩ := Scope.mem_boundRefs.mp bound
    exact free ⟨name, raw, found, same⟩

private theorem isLive_foldl_release
    (scopes : List Scope)
    (store : Store Body)
    (handle : Handle) :
    (scopes.foldl release store).liveness.isLive handle ↔
      store.liveness.isLive handle ∧ ∀ scope ∈ scopes, ¬ scope.Holds handle := by
  induction scopes generalizing store with
  | nil =>
      simp
  | cons scope rest inductionHypothesis =>
      rw [List.foldl_cons, inductionHypothesis, isLive_release, List.forall_mem_cons,
        and_assoc]

theorem isLive_recount (store : Store Body) (handle : Handle) :
    store.recount.liveness.isLive handle = store.liveness.isLive handle := by
  rw [liveness_recount]
  rfl

/-- The end of scopes kills the handles that references hold there, and no others. -/
theorem isLive_endScopes
    (store : Store Body)
    (scopes : List Scope)
    (handle : Handle) :
    (store.endScopes scopes).liveness.isLive handle ↔
      store.liveness.isLive handle ∧ ∀ scope ∈ scopes, ¬ scope.Holds handle := by
  rw [endScopes, isLive_recount, isLive_foldl_release]
  simp only [List.mem_reverse]

theorem currentScopes_of_active
    {store : Store Body}
    {frame : Frame}
    {callers : List Frame}
    (active : store.stack.frames = frame :: callers) :
    store.currentScopes = frame.scopes := by
  simp [currentScopes, CallStack.current?_of_frames active]

/-- Two stores with the same flags, reports and stray references. -/
structure SameRecords (before after : Store Body) : Prop where
  liveness : after.liveness = before.liveness
  reporter : after.reporter = before.reporter
  console : after.console = before.console
  strays : after.strays = before.strays

/--
What a granted request does to the flags, the reports and the stray references:
it leaves them, tracks a new slot, ends scopes or recounts, and whatever else it
does comes before that.
-/
inductive RecordChange
    (store : Store Body)
    (operation : Operation Body)
    (reply : Reply Body) : Store Body → Prop where
  | kept
      {next : Store Body}
      (same : SameRecords store next)
      (noHandle : ∀ handle, reply ≠ .handle handle)
      (endsNone : store.endedBy operation = []) :
      RecordChange store operation reply next
  | appended
      {bound : Store Body}
      (same : SameRecords store bound)
      (sameHeap : bound.heap = store.heap)
      (answered : reply = .handle store.heap.size)
      (endsNone : store.endedBy operation = []) :
      RecordChange store operation reply bound.appendSlot.2.recount
  | ended
      {left : Store Body}
      (same : SameRecords store left)
      (noHandle : ∀ handle, reply ≠ .handle handle)
      (pops : operation = .popScope ∨ operation = .popFrame) :
      RecordChange store operation reply (left.endScopes (store.endedBy operation))
  | recounted
      (noHandle : ∀ handle, reply ≠ .handle handle)
      (endsNone : store.endedBy operation = []) :
      RecordChange store operation reply store.recount

theorem Granted.recordChange
    {store next : Store Body}
    {operation : Operation Body}
    {reply : Reply Body}
    (granted : Granted store operation reply next) :
    RecordChange store operation reply next := by
  cases granted with
  | writeScalar found isInt assigned | copy found assigned =>
      obtain ⟨stack, globals, rfl⟩ := assign?_others assigned
      exact .kept ⟨rfl, rfl, rfl, rfl⟩ (by simp) rfl
  | allocate found isRef fits assigned =>
      obtain ⟨stack, globals, rfl⟩ := assign?_others assigned
      exact .appended ⟨rfl, rfl, rfl, rfl⟩ rfl rfl rfl
  | @popScope frame outer callers scope active popped =>
      obtain ⟨shape, _⟩ := Frame.popScope?_eq_some_iff.mp popped
      have ended : [scope] = store.endedBy .popScope := by
        simp [endedBy, currentScopes_of_active active, shape]
      rw [ended]
      exact .ended ⟨rfl, rfl, rfl, rfl⟩ (by simp) (Or.inl rfl)
  | @popFrame frame callers active =>
      have ended : frame.scopes = store.endedBy .popFrame :=
        (currentScopes_of_active active).symm
      rw [ended]
      exact .ended ⟨rfl, rfl, rfl, rfl⟩ (by simp) (Or.inr rfl)
  | recount =>
      exact .recounted (by simp) rfl
  | _ =>
      exact .kept ⟨rfl, rfl, rfl, rfl⟩ (by simp) rfl

/-- A new slot has the next flag in order, which is raised. -/
theorem Consistent.flags_of_appended
    {store bound : Store Body}
    (consistent : Consistent store)
    (same : SameRecords store bound)
    (sameHeap : bound.heap = store.heap) :
    bound.appendSlot.2.recount.liveness.flags = store.liveness.flags.push true := by
  have tracked :
      bound.appendSlot.2.liveness = store.liveness.trackLive store.heap.size := by
    rw [← same.liveness, ← sameHeap]
    rfl
  rw [liveness_recount, tracked, ← consistent.flagPerSlot, Liveness.trackLive_size]

/-- A granted request changes the flags by what it allocates and what it ends. -/
theorem Granted.isLive_iff
    {store next : Store Body}
    {operation : Operation Body}
    {reply : Reply Body}
    (granted : Granted store operation reply next)
    (consistent : Consistent store)
    (handle : Handle) :
    next.liveness.isLive handle ↔
      reply = .handle handle ∨
        store.liveness.isLive handle ∧
          ∀ scope ∈ store.endedBy operation, ¬ scope.Holds handle := by
  cases granted.recordChange with
  | kept same noHandle endsNone =>
      simp [same.liveness, noHandle, endsNone]
  | appended same sameHeap answered endsNone =>
      rw [Liveness.isLive_of_push (consistent.flags_of_appended same sameHeap),
        consistent.flagPerSlot]
      simp [answered, endsNone]
  | ended same noHandle pops =>
      rw [isLive_endScopes, same.liveness]
      simp [noHandle]
  | recounted noHandle endsNone =>
      rw [isLive_recount]
      simp [noHandle, endsNone]

/-- A granted request takes no handle out of the table of flags. -/
theorem Granted.size_le
    {store next : Store Body}
    {operation : Operation Body}
    {reply : Reply Body}
    (granted : Granted store operation reply next)
    (consistent : Consistent store) :
    store.liveness.size ≤ next.liveness.size := by
  cases granted.recordChange with
  | kept same noHandle endsNone =>
      exact Nat.le_of_eq (congrArg Liveness.size same.liveness.symm)
  | appended same sameHeap answered endsNone =>
      simp [Liveness.size, consistent.flags_of_appended same sameHeap]
  | ended same noHandle pops =>
      exact Nat.le_of_eq (by rw [(liveness_endScopes _ _).1, same.liveness])
  | recounted noHandle endsNone =>
      rw [liveness_recount]
      exact Nat.le_refl _

namespace Consistent

variable {store : Store Body}

/-- What a request does to the flags, granted or not. -/
theorem isLive_after_iff
    (consistent : Consistent store)
    (operation : Operation Body)
    (handle : Handle) :
    (store.after operation).liveness.isLive handle ↔
      store.Allocates operation handle ∨
        store.liveness.isLive handle ∧ ¬ store.Destroys operation handle := by
  cases outcome : perform operation store with
  | ok reply next =>
      have granted := granted_of_perform outcome
      have reached : store.after operation = next := by
        simp only [Store.after, outcome]
      rw [reached, granted.isLive_iff consistent handle]
      refine or_congr ?_ (and_congr_right fun _ => ?_)
      · constructor
        · rintro rfl
          cases granted with
          | allocate =>
              exact ⟨_, _, rfl, outcome⟩
        · rintro ⟨name, other, rfl, answered⟩
          rw [outcome] at answered
          cases answered
          rfl
      · simp [Destroys, outcome]
  | error fault next =>
      have reached : store.after operation = store := by
        simp only [Store.after, outcome, eq_of_perform_error outcome]
      rw [reached]
      simp [Allocates, Destroys, outcome]

/-- The handle of a new slot has had no flag before. -/
theorem eq_size_of_allocates
    (consistent : Consistent store)
    {operation : Operation Body}
    {handle : Handle}
    (allocates : store.Allocates operation handle) :
    handle = store.liveness.size := by
  obtain ⟨name, next, rfl, answered⟩ := allocates
  have allocated : allocate name store = .ok handle next :=
    (requests_allocate name).eq_ok_of_granted (granted_of_perform answered)
  exact (consistent.allocate_appends allocated).1

/-- A handle whose flag is down stays tracked, with its flag down. -/
theorem dead_afterAll
    (consistent : Consistent store)
    {handle : Handle}
    (tracked : handle < store.liveness.size)
    (dead : ¬ store.liveness.isLive handle)
    (operations : List (Operation Body)) :
    ¬ (store.afterAll operations).liveness.isLive handle := by
  induction operations generalizing store with
  | nil =>
      exact dead
  | cons operation rest inductionHypothesis =>
      apply inductionHypothesis (consistent.after operation)
      · unfold Store.after
        cases outcome : perform operation store with
        | ok reply next =>
            exact Nat.lt_of_lt_of_le tracked
              ((granted_of_perform outcome).size_le consistent)
        | error fault next =>
            rw [eq_of_perform_error outcome]
            exact tracked
      · rw [consistent.isLive_after_iff]
        rintro (allocates | ⟨live, _⟩)
        · exact Nat.ne_of_lt tracked (consistent.eq_size_of_allocates allocates)
        · exact dead live

/--
After a history, a handle is live if it was live before and the history spares
it, or if a request of the history allocates it and what follows spares it.
-/
theorem isLive_afterAll_iff_of_split
    (consistent : Consistent store)
    (operations : List (Operation Body))
    (handle : Handle) :
    (store.afterAll operations).liveness.isLive handle ↔
      (store.liveness.isLive handle ∧ store.Spares operations handle) ∨
        ∃ earlier request later,
          operations = earlier ++ request :: later ∧
            (store.afterAll earlier).Allocates request handle ∧
            ((store.afterAll earlier).after request).Spares later handle := by
  simp only [spares_iff_abides]
  exact holds_afterAll_iff_of_invariant Consistent
    (fun _ operation before => before.after operation)
    (fun store => store.liveness.isLive handle)
    (fun store operation => store.Allocates operation handle)
    (fun store operation => ¬ store.Destroys operation handle)
    (fun _ operation consistent => consistent.isLive_after_iff operation handle)
    consistent operations

end Consistent

/--
After every history of requests to a new store, a handle is live if and only if
a request of the history allocated it and no later one was granted that ended a
scope in which a reference held the handle.

In particular a flag that is down stays down whatever is requested, and only
the end of scopes takes a flag down: no alias, call, copy, rebinding or
declaration does.
-/
theorem isLive_afterAll_iff
    (settings : Settings)
    (reporter : Reporter)
    (input : InputTape)
    (operations : List (Operation Body))
    (handle : Handle) :
    let fresh := (withReporter settings reporter : Store Body).withInput input
    let reached := fresh.afterAll operations
    (reached.liveness.isLive handle ↔
      ∃ earlier request later,
        operations = earlier ++ request :: later ∧
          (fresh.afterAll earlier).Allocates request handle ∧
          ∀ between ending rest, later = between ++ ending :: rest →
            ¬ (fresh.afterAll (earlier ++ request :: between)).Destroys ending handle) ∧
      (∀ later, handle < reached.liveness.size → ¬ reached.liveness.isLive handle →
        ¬ (reached.afterAll later).liveness.isLive handle) ∧
      (∀ operation, operation ≠ .popScope → operation ≠ .popFrame →
        reached.liveness.isLive handle →
          (reached.after operation).liveness.isLive handle) := by
  intro fresh reached
  have consistentFresh : Consistent fresh :=
    consistent_fresh settings reporter input
  have consistent : Consistent reached :=
    consistentFresh.afterAll operations
  have noneLive : ¬ fresh.liveness.isLive handle := by
    simp [fresh, withInput, withReporter, Liveness.isLive_eq, Liveness.empty]
  refine ⟨?_, ?_, ?_⟩
  · rw [consistentFresh.isLive_afterAll_iff_of_split operations handle]
    simp [noneLive, Spares, afterAll, List.foldl_append]
  · intro later tracked dead
    exact consistent.dead_afterAll tracked dead later
  · intro operation notScope notFrame live
    refine (consistent.isLive_after_iff operation handle).mpr (Or.inr ⟨live, ?_⟩)
    rintro ⟨_, scope, ended, _⟩
    cases operation with
    | popScope => exact notScope rfl
    | popFrame => exact notFrame rfl
    | _ => simp [endedBy] at ended

end Store

end RefScript
