import RefScript.Proofs.Shape
import RefScript.Proofs.Store.Teardown

namespace RefScript

/-!
# Consistent stores

In every store that a history of requests can bring about, refused ones
included, there is one flag for each heap slot, the reported count is the
number of live handles, every frame has a scope, and no more frames are active
than the settings allow. Each request keeps these four together, and so a
recount between requests never has anything to report.
-/

namespace Store

variable {Body : Type}

/-- What every request to the store relies on and keeps. -/
structure Consistent (store : Store Body) : Prop where
  flagPerSlot : store.liveness.size = store.heap.size
  countCurrent : store.liveness.reachable = store.liveness.liveCount
  framesScoped : ∀ frame ∈ store.stack.frames, frame.scopes ≠ []
  depthAllowed : store.callDepth ≤ store.settings.maxCallDepth

/-- A store on which nothing has been requested yet is consistent. -/
theorem consistent_fresh
    (settings : Settings)
    (reporter : Reporter)
    (input : InputTape) :
    Consistent ((withReporter settings reporter : Store Body).withInput input) where
  flagPerSlot := rfl
  countCurrent := rfl
  framesScoped := by
    simp [withInput, withReporter, CallStack.empty, CallStack.ofFrames]
  depthAllowed := Nat.zero_le _

namespace Consistent

variable {store next : Store Body}

/-- Consistency depends on flags, heap, frames and settings alone. -/
private theorem of_agreement
    (consistent : Consistent store)
    (liveness : next.liveness = store.liveness)
    (heapSize : next.heap.size = store.heap.size)
    (stack : next.stack = store.stack)
    (settings : next.settings = store.settings) :
    Consistent next where
  flagPerSlot := by
    rw [liveness, heapSize]
    exact consistent.flagPerSlot
  countCurrent := by
    rw [liveness]
    exact consistent.countCurrent
  framesScoped := by
    rw [stack]
    exact consistent.framesScoped
  depthAllowed := by
    rw [callDepth, stack, settings]
    exact consistent.depthAllowed

/-- Other frames are as good if they have scopes and are not too many. -/
theorem withFrames
    (consistent : Consistent store)
    {frames : List Frame}
    (framesScoped : ∀ frame ∈ frames, frame.scopes ≠ [])
    (depthAllowed : frames.length ≤ store.settings.maxCallDepth) :
    Consistent (store.withFrames frames) where
  flagPerSlot := consistent.flagPerSlot
  countCurrent := consistent.countCurrent
  framesScoped := framesScoped
  depthAllowed := depthAllowed

/-- The current frame may be replaced by one that has a scope. -/
private theorem replaceCurrent
    (consistent : Consistent store)
    {current frame : Frame}
    {callers : List Frame}
    (active : store.stack.frames = current :: callers)
    (nonempty : frame.scopes ≠ []) :
    Consistent (store.withFrames (frame :: callers)) := by
  have framesScoped := consistent.framesScoped
  have depthAllowed := consistent.depthAllowed
  rw [active] at framesScoped
  rw [callDepth_eq, active, List.length_cons] at depthAllowed
  apply consistent.withFrames
  · intro other member
    rcases List.mem_cons.mp member with isFrame | isCaller
    · subst other
      exact nonempty
    · exact framesScoped other (List.mem_cons_of_mem current isCaller)
  · exact depthAllowed

/-- A further frame may be pushed if it has a scope and there is room for it. -/
private theorem pushFrame
    (consistent : Consistent store)
    {frame : Frame}
    (nonempty : frame.scopes ≠ [])
    (room : store.callDepth < store.settings.maxCallDepth) :
    Consistent (store.withFrames (frame :: store.stack.frames)) := by
  apply consistent.withFrames
  · intro other member
    rcases List.mem_cons.mp member with isFrame | isCaller
    · subst other
      exact nonempty
    · exact consistent.framesScoped other isCaller
  · rw [callDepth_eq] at room
    exact room

private theorem endScopes
    (consistent : Consistent store)
    (scopes : List Scope) :
    Consistent (store.endScopes scopes) := by
  have same := sameStorage_endScopes store scopes
  obtain ⟨sameSize, countCurrent⟩ := liveness_endScopes store scopes
  constructor
  · rw [sameSize, same.heap]
    exact consistent.flagPerSlot
  · exact countCurrent
  · rw [same.stack]
    exact consistent.framesScoped
  · rw [same.callDepth_eq, same.settings]
    exact consistent.depthAllowed

/-- Assigning to a variable changes neither flags nor heap nor scopes. -/
private theorem assign?
    (consistent : Consistent store)
    {name : String}
    {value : Option Word}
    (assigned : store.assign? name value = some next) :
    Consistent next := by
  rcases assign?_eq_some assigned with inFrame | inGlobals
  · obtain ⟨current, callers, frame, active, frameAssigned, rfl⟩ := inFrame
    exact consistent.replaceCurrent active
      (Frame.redeclared_of_assign? frameAssigned).scopes_ne_nil
  · obtain ⟨_, globals, _, rfl⟩ := inGlobals
    exact consistent.of_agreement rfl rfl rfl rfl

/-- A new slot comes with a flag of its own, at the end. -/
theorem liveness_appendSlot (consistent : Consistent store) :
    store.appendSlot.2.liveness =
      { store.liveness with flags := store.liveness.flags.push true } := by
  have nextHandle : store.heap.allocate.1 = store.liveness.size :=
    consistent.flagPerSlot.symm
  change store.liveness.trackLive store.heap.allocate.1 = _
  rw [nextHandle, Liveness.trackLive_size]

private theorem appendSlot (consistent : Consistent store) :
    Consistent store.appendSlot.2.recount := by
  have same := sameStorage_recount store.appendSlot.2
  have oneMoreFlag := consistent.liveness_appendSlot
  constructor
  · rw [liveness_recount, same.heap, oneMoreFlag]
    have flagPerSlot := consistent.flagPerSlot
    simp only [Liveness.size, Heap.size] at flagPerSlot
    simp [Liveness.size, Heap.size, Store.appendSlot, Heap.allocate, flagPerSlot]
  · rw [liveness_recount]
    rfl
  · rw [same.stack]
    exact consistent.framesScoped
  · rw [same.callDepth_eq, same.settings]
    exact consistent.depthAllowed

end Consistent

/-- A granted request keeps the store consistent. -/
theorem Granted.consistent
    {store next : Store Body}
    {operation : Operation Body}
    {reply : Reply Body}
    (granted : Granted store operation reply next)
    (consistent : Consistent store) :
    Consistent next := by
  cases granted with
  | declareLocal active =>
      have nonempty :=
        consistent.framesScoped _ (active ▸ List.mem_cons_self)
      exact consistent.replaceCurrent active
        (Frame.redeclared_declare nonempty _ _).scopes_ne_nil
  | writeScalar found isInt assigned =>
      exact consistent.assign? assigned
  | writeSlot found isRef designated written =>
      have sameSize := Heap.size_of_write? written
      exact consistent.of_agreement rfl sameSize rfl rfl
  | allocate found isRef fits assigned =>
      exact (consistent.assign? assigned).appendSlot
  | copy found assigned =>
      exact consistent.assign? assigned
  | pushScope active =>
      exact consistent.replaceCurrent active (by simp [Frame.pushScope])
  | popScope active popped =>
      have nonempty := (Frame.popScope?_eq_some_iff.mp popped).2
      exact (consistent.replaceCurrent active nonempty).endScopes _
  | pushFrame room =>
      exact consistent.pushFrame
        (by simp [Frame.withEmptyScope, Frame.withScope]) room
  | pushCallFrame sameLength room bound =>
      exact consistent.pushFrame (by simp [Frame.pushScope]) room
  | @popFrame frame callers active =>
      have framesScoped := consistent.framesScoped
      have depthAllowed := consistent.depthAllowed
      rw [active] at framesScoped
      rw [callDepth_eq, active, List.length_cons] at depthAllowed
      have popped : Consistent (store.withFrames callers) :=
        consistent.withFrames
          (fun caller isCaller =>
            framesScoped caller (List.mem_cons_of_mem frame isCaller))
          (Nat.le_of_succ_le depthAllowed)
      exact popped.endScopes _
  | recount =>
      rw [recount_of_current consistent.countCurrent]
      exact consistent
  | declareGlobal | nextData | register =>
      exact consistent.of_agreement rfl rfl rfl rfl
  | resolve | kindOf | readScalar | readSlot | formalsOf | bodyOf =>
      exact consistent

/-- Every request, refused or not, keeps the store consistent. -/
theorem Consistent.after
    {store : Store Body}
    (consistent : Consistent store)
    (operation : Operation Body) :
    Consistent (store.after operation) :=
  after_of_granted Granted.consistent store operation consistent

/-- Every store that a history of requests brings about is consistent. -/
theorem Consistent.afterAll
    {store : Store Body}
    (consistent : Consistent store)
    (operations : List (Operation Body)) :
    Consistent (store.afterAll operations) :=
  afterAll_of_after (fun _ operation before => before.after operation)
    operations store consistent

/-- No history of requests changes the settings. -/
theorem settings_afterAll (store : Store Body) (operations : List (Operation Body)) :
    (store.afterAll operations).settings = store.settings := by
  refine @afterAll_of_after Body (fun later => later.settings = store.settings)
    (after_of_granted ?_) operations store rfl
  intro before next operation reply granted sameSettings
  exact granted.settings_eq.trans sameSettings

/-- A declaration adds a scope to no frame. -/
private theorem Consistent.scopeDepth?_declare
    {store : Store Body}
    (consistent : Consistent store)
    (name : String)
    (kind : CellKind) :
    (store.after (.declare name kind)).scopeDepth? = store.scopeDepth? := by
  unfold Store.after
  cases outcome : perform (.declare name kind) store with
  | error fault next =>
      rw [eq_of_perform_error outcome]
  | ok reply next =>
      cases granted_of_perform outcome with
      | @declareLocal _ _ frame callers active =>
          have nonempty :=
            consistent.framesScoped frame (active ▸ List.mem_cons_self)
          have sameDepth :=
            (Frame.redeclared_declare nonempty name kind).scopeDepth_eq
          simp [scopeDepth?, CallStack.scopeDepth?, CallStack.current?, active,
            sameDepth]
      | declareGlobal outside =>
          rfl

/-- A slot is allocated by appending a raised flag to the flags. -/
theorem Consistent.allocate_appends
    {store next : Store Body}
    (consistent : Consistent store)
    {name : String}
    {handle : Handle}
    (allocated : allocate name store = .ok handle next) :
    handle = store.liveness.size ∧
      next.liveness.flags = store.liveness.flags.push true := by
  cases (requests_allocate name).granted allocated with
  | allocate found isRef fits assigned =>
      have bound := consistent.assign? assigned
      obtain ⟨stack, globals, rfl⟩ := assign?_others assigned
      constructor
      · exact consistent.flagPerSlot.symm
      · rw [liveness_recount, bound.liveness_appendSlot]

/--
After every history of requests, granted or refused, a store has as many flags
as heap slots, its count is the number of live handles, every frame has at
least one scope, and no more frames are active than the settings allow.

So a further recount has nothing to report and changes nothing, a new handle is
always the next one in order, so that its flag is appended, and a declaration
finds a scope to go to and adds none.
-/
theorem afterAll_invariants
    (settings : Settings)
    (reporter : Reporter)
    (input : InputTape)
    (operations : List (Operation Body)) :
    let reached :=
      ((withReporter settings reporter : Store Body).withInput input).afterAll operations
    reached.liveness.size = reached.heap.size ∧
      reached.liveness.reachable =
        (List.range reached.liveness.size).countP reached.liveness.isLive ∧
      (∀ frame ∈ reached.stack.frames, 1 ≤ frame.scopeDepth) ∧
      reached.callDepth ≤ settings.maxCallDepth ∧
      reached.liveness.recount = (none, reached.liveness) ∧
      reached.after .recount = reached ∧
      (∀ name handle next,
        allocate name reached = .ok handle next →
          handle = reached.liveness.size ∧
            next.liveness.flags = reached.liveness.flags.push true) ∧
      (∀ name kind,
        (reached.after (.declare name kind)).scopeDepth? = reached.scopeDepth?) := by
  intro reached
  have consistent : Consistent reached :=
    (consistent_fresh settings reporter input).afterAll operations
  have sameSettings : reached.settings = settings :=
    settings_afterAll _ operations
  refine ⟨consistent.flagPerSlot, ?_, ?_, ?_, ?_, ?_, ?_, ?_⟩
  · rw [Liveness.countP_isLive]
    exact consistent.countCurrent
  · intro frame active
    exact List.length_pos_iff.mpr (consistent.framesScoped frame active)
  · rw [← sameSettings]
    exact consistent.depthAllowed
  · exact Liveness.recount_of_current consistent.countCurrent
  · exact recount_of_current consistent.countCurrent
  · intro name handle next allocated
    exact consistent.allocate_appends allocated
  · exact consistent.scopeDepth?_declare

end Store

end RefScript
