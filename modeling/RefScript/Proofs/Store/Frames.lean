import RefScript.Proofs.Store.Teardown

namespace RefScript

/-!
# Requests and the frames

Only the pushes and pops of frames change the number of active frames, by one.
All other requests see and change the current frame alone: with other frames
below it they do the same, and leave those frames in their place. A push needs
the number of frames too, and the call of a function the raw values of the
arguments.
-/

namespace Operation

variable {Body : Type}

/-- By how much a granted request deepens the call stack. -/
def depthChange : Operation Body → Int
  | .pushFrame | .pushCallFrame .. => 1
  | .popFrame => -1
  | _ => 0

/-- The function name of the frame that a request pushes. -/
def frameName? : Operation Body → Option String
  | .pushFrame => some Store.blockFrameName
  | .pushCallFrame function _ _ => some function
  | _ => none

/-- Whether a request opens or closes a scope or a frame. -/
def movesScopes : Operation Body → Bool
  | .pushScope | .popScope | .pushFrame | .pushCallFrame .. | .popFrame => true
  | _ => false

/-- The name that a request declares, with its kind. -/
def declaredKind? : Operation Body → String → Option CellKind
  | .declare name kind, other => if name = other then some kind else none
  | _, _ => none

/-- A request that pushes no frame does not deepen the call stack. -/
theorem depthChange_nonpos
    {operation : Operation Body}
    (notPush : operation.depthChange ≠ 1) :
    operation.depthChange ≤ 0 := by
  cases operation with
  | pushFrame | pushCallFrame => contradiction
  | _ => simp [depthChange]

/-- What moves no scope moves no frame. -/
theorem depthChange_of_movesScopes
    {operation : Operation Body}
    (stays : operation.movesScopes = false) :
    operation.depthChange = 0 := by
  cases operation with
  | pushFrame | pushCallFrame | popFrame => contradiction
  | _ => rfl

end Operation

namespace Store

variable {Body : Type} {store next : Store Body} {operation : Operation Body}
  {reply : Reply Body}

/-- An assignment leaves the number of frames. -/
theorem callDepth_of_assign?
    {name : String} {value : Option Word}
    (assigned : store.assign? name value = some next) :
    next.callDepth = store.callDepth := by
  rcases assign?_eq_some assigned with inFrame | inGlobals
  · obtain ⟨current, callers, frame, active, _, rfl⟩ := inFrame
    simp [callDepth_eq, active]
  · obtain ⟨_, globals, _, rfl⟩ := inGlobals
    rfl

/-- Only the pushes and pops of frames change the depth of the call stack. -/
theorem Granted.callDepth_eq (granted : Granted store operation reply next) :
    (next.callDepth : Int) = store.callDepth + operation.depthChange := by
  cases granted with
  | declareLocal active | pushScope active =>
      simp [Store.callDepth_eq, active, Operation.depthChange]
  | writeScalar found isInt assigned | copy found assigned =>
      simp [callDepth_of_assign? assigned, Operation.depthChange]
  | @allocate _ _ _ bound found isRef fits assigned =>
      have recounted := (sameStorage_recount bound.appendSlot.2).callDepth_eq
      have appended : bound.appendSlot.2.callDepth = bound.callDepth := rfl
      rw [recounted, appended, callDepth_of_assign? assigned]
      simp [Operation.depthChange]
  | popScope active popped =>
      rw [(sameStorage_endScopes _ _).callDepth_eq]
      simp [Store.callDepth_eq, active, Operation.depthChange]
  | pushFrame room | pushCallFrame sameLength room bound =>
      simp [Store.callDepth_eq, Operation.depthChange]
  | popFrame active =>
      rw [(sameStorage_endScopes _ _).callDepth_eq]
      simp only [Store.callDepth_eq, frames_withFrames, active, List.length_cons,
        Operation.depthChange]
      omega
  | recount =>
      simp [(sameStorage_recount store).callDepth_eq, Operation.depthChange]
  | _ =>
      simp [Operation.depthChange, callDepth]

/-- A push of a frame is granted only if there is room for it. -/
theorem Granted.room_of_push
    (granted : Granted store operation reply next)
    (pushes : operation.depthChange = 1) :
    store.callDepth < store.settings.maxCallDepth := by
  cases granted with
  | pushFrame room => exact room
  | pushCallFrame sameLength room bound => exact room
  | _ => simp [Operation.depthChange] at pushes

/-- No request takes the call stack beyond the limit. -/
theorem Granted.depthAllowed
    (granted : Granted store operation reply next)
    (allowed : store.callDepth ≤ store.settings.maxCallDepth) :
    next.callDepth ≤ store.settings.maxCallDepth := by
  have depth := granted.callDepth_eq
  by_cases pushes : operation.depthChange = 1
  · have room := granted.room_of_push pushes
    omega
  · have notDeeper := Operation.depthChange_nonpos pushes
    omega

/-- The push of a frame puts a frame with a scope on top of the others. -/
theorem Granted.frame_of_push
    (granted : Granted store operation reply next)
    {function : String}
    (named : operation.frameName? = some function) :
    ∃ frame : Frame,
      frame.function = function ∧ frame.scopes ≠ [] ∧
        next = store.withFrames (frame :: store.stack.frames) := by
  cases granted with
  | pushFrame room =>
      cases named
      exact ⟨Frame.withEmptyScope blockFrameName, rfl, List.cons_ne_nil _ _, rfl⟩
  | @pushCallFrame _ _ _ scope sameLength room bound =>
      cases named
      exact ⟨_, rfl, (Frame.withScope function scope).scopes_pushScope_ne_nil, rfl⟩
  | _ =>
      contradiction

end Store

section Callers

variable {Body : Type}

/-- The same stack with other frames below the current one. -/
def CallStack.withCallers (stack : CallStack) (callers : List Frame) : CallStack :=
  match stack.frames with
  | [] => stack
  | current :: _ => ofFrames (current :: callers)

namespace CallStack

variable (stack : CallStack) (callers : List Frame)

theorem withCallers_of_frames
    {current : Frame} {others : List Frame}
    (active : stack.frames = current :: others) :
    stack.withCallers callers = ofFrames (current :: callers) := by
  simp only [withCallers, active]

@[simp] theorem current?_withCallers :
    (stack.withCallers callers).current? = stack.current? := by
  unfold withCallers current?
  split <;> simp_all [ofFrames]

@[simp] theorem find?_withCallers (name : String) :
    (stack.withCallers callers).find? name = stack.find? name := by
  simp only [find?, current?_withCallers]

@[simp] theorem withCurrent_withCallers (frame : Frame) :
    (stack.withCallers callers).withCurrent frame =
      (stack.withCurrent frame).withCallers callers := by
  apply ext
  cases active : stack.frames <;>
    simp [withCallers, withCurrent, active, replaceFirst, ofFrames]

@[simp] theorem assign?_withCallers (name : String) (value : Option Word) :
    (stack.withCallers callers).assign? name value =
      (stack.assign? name value).map fun assigned => assigned.withCallers callers := by
  simp only [assign?, current?_withCallers]
  cases stack.current? with
  | none => rfl
  | some frame =>
      simp only [Option.bind_some, Option.map_map]
      congr 1
      funext assigned
      exact withCurrent_withCallers stack callers assigned

end CallStack

namespace Store

/-- The same store with another call stack. -/
def withStack (store : Store Body) (stack : CallStack) : Store Body :=
  { store with stack }

/-- The same store with other frames below the current one. -/
def withCallers (store : Store Body) (callers : List Frame) : Store Body :=
  store.withStack (store.stack.withCallers callers)

variable (store : Store Body) (callers : List Frame)

theorem withCallers_of_frames
    {current : Frame} {others : List Frame}
    (active : store.stack.frames = current :: others) :
    store.withCallers callers = store.withFrames (current :: callers) := by
  rw [withCallers, CallStack.withCallers_of_frames store.stack callers active]
  rfl

theorem withFrames_self
    {frames : List Frame}
    (active : store.stack.frames = frames) :
    store.withFrames frames = store := by
  have sameStack : CallStack.ofFrames frames = store.stack := CallStack.ext active.symm
  rw [withFrames, sameStack]

@[simp] theorem stack_withCallers :
    (store.withCallers callers).stack = store.stack.withCallers callers :=
  rfl

@[simp] theorem heap_withCallers : (store.withCallers callers).heap = store.heap :=
  rfl

@[simp] theorem input_withCallers : (store.withCallers callers).input = store.input :=
  rfl

@[simp] theorem functions_withCallers :
    (store.withCallers callers).functions = store.functions :=
  rfl

@[simp] theorem find?_withCallers (name : String) :
    (store.withCallers callers).find? name = store.find? name := by
  simp only [find?, withCallers, withStack, CallStack.find?_withCallers]

@[simp] theorem assign?_withCallers (name : String) (value : Option Word) :
    (store.withCallers callers).assign? name value =
      (store.assign? name value).map fun assigned => assigned.withCallers callers := by
  simp only [assign?, withCallers, withStack, CallStack.assign?_withCallers]
  cases store.stack.assign? name value with
  | some stack =>
      rfl
  | none =>
      simp only [Option.map_none, Option.map_map, Function.comp_def]

private theorem detached_withStack (stack : CallStack) :
    Detached fun store : Store Body => store.withStack stack :=
  fun _ _ _ _ _ => rfl

theorem recount_withStack (stack : CallStack) :
    (store.withStack stack).recount = store.recount.withStack stack :=
  (detached_withStack stack).recount store

/-- The end of scopes does not see the frames. -/
theorem endScopes_withStack (stack : CallStack) (scopes : List Scope) :
    (store.withStack stack).endScopes scopes =
      (store.endScopes scopes).withStack stack :=
  (detached_withStack stack).endScopes store scopes

theorem endScopes_withFrames (frames : List Frame) (scopes : List Scope) :
    (store.withFrames frames).endScopes scopes =
      (store.endScopes scopes).withFrames frames :=
  endScopes_withStack store (CallStack.ofFrames frames) scopes

theorem recount_withCallers :
    (store.withCallers callers).recount = store.recount.withCallers callers := by
  rw [withCallers, recount_withStack, withCallers, (sameStorage_recount store).stack]

theorem endScopes_withCallers (scopes : List Scope) :
    (store.withCallers callers).endScopes scopes =
      (store.endScopes scopes).withCallers callers := by
  rw [withCallers, endScopes_withStack, withCallers,
    (sameStorage_endScopes store scopes).stack]

/-- The same outcome, with a change of the store that is left. -/
def mapStore
    {α : Type}
    (change : Store Body → Store Body) :
    EStateM.Result Fault (Store Body) α → EStateM.Result Fault (Store Body) α
  | .ok value next => .ok value (change next)
  | .error fault next => .error fault (change next)

/-- An action that neither sees nor changes the frames below the current one. -/
def SeesCurrentFrame {α : Type} (action : Action Body α) : Prop :=
  ∀ store callers,
    action (store.withCallers callers) =
      mapStore (fun next => next.withCallers callers) (action store)

private theorem sees_declare (name : String) (kind : CellKind) :
    SeesCurrentFrame (declare name kind : Action Body Unit) := by
  intro store callers
  simp only [declare, stack_withCallers, CallStack.current?_withCallers,
    CallStack.withCurrent_withCallers]
  cases store.stack.current? <;> rfl

private theorem sees_resolve (name : String) :
    SeesCurrentFrame (resolve name : Action Body Cell) := by
  intro store callers
  simp only [resolve, find?_withCallers]
  cases store.find? name <;> rfl

private theorem sees_read (name : String) : SeesCurrentFrame (read name : Action Body Word) := by
  intro store callers
  simp only [read, find?_withCallers, heap_withCallers]
  cases store.find? name with
  | none =>
      rfl
  | some cell =>
      cases kind : cell.kind with
      | int =>
          simp only [kind]
          rfl
      | ref =>
          simp only [kind]
          cases cell.handle?.bind store.heap.read? <;> rfl

private theorem sees_assign (name : String) (value : Option Word) :
    SeesCurrentFrame (assign name value : Action Body Unit) := by
  intro store callers
  simp only [assign, assign?_withCallers]
  cases store.assign? name value <;> rfl

private theorem sees_write (name : String) (value : Word) :
    SeesCurrentFrame (write name value : Action Body Unit) := by
  intro store callers
  simp only [write, find?_withCallers, heap_withCallers]
  cases store.find? name with
  | none =>
      rfl
  | some cell =>
      cases kind : cell.kind with
      | int =>
          simp only [kind]
          exact sees_assign name (some value) store callers
      | ref =>
          simp only [kind]
          cases cell.handle?.bind fun handle => store.heap.write? handle value <;> rfl

private theorem sees_allocate (name : String) :
    SeesCurrentFrame (allocate name : Action Body Handle) := by
  intro store callers
  simp only [allocate, find?_withCallers, heap_withCallers, assign?_withCallers]
  cases store.find? name with
  | none =>
      rfl
  | some cell =>
      simp only
      split
      case isFalse =>
        rfl
      case isTrue =>
        cases Word.ofHandle? store.heap.size with
        | none =>
            rfl
        | some word =>
            simp only
            cases store.assign? name (some word) with
            | none =>
                rfl
            | some bound =>
                have recounted := recount_withCallers bound.appendSlot.2 callers
                simp only [Option.map_some, mapStore, ← recounted]
                rfl

private theorem sees_copy (target source : String) :
    SeesCurrentFrame (copy target source : Action Body Unit) := by
  intro store callers
  simp only [copy, find?_withCallers]
  cases store.find? source with
  | none =>
      rfl
  | some cell =>
      exact sees_assign target cell.value store callers

private theorem sees_nextData : SeesCurrentFrame (nextData : Action Body Word) := by
  intro store callers
  by_cases atEnd : store.input.atEnd = true
  · simp only [nextData, input_withCallers, atEnd, ↓reduceIte]
    rfl
  · simp only [nextData, input_withCallers, atEnd, Bool.false_eq_true, ↓reduceIte]
    rfl

private theorem sees_pushScope : SeesCurrentFrame (pushScope : Action Body Unit) := by
  intro store callers
  simp only [pushScope, stack_withCallers, CallStack.current?_withCallers,
    CallStack.withCurrent_withCallers]
  cases store.stack.current? <;> rfl

private theorem sees_popScope : SeesCurrentFrame (popScope : Action Body Unit) := by
  intro store callers
  simp only [popScope, stack_withCallers, CallStack.current?_withCallers,
    CallStack.withCurrent_withCallers]
  cases store.stack.current? with
  | none =>
      rfl
  | some frame =>
      simp only
      cases frame.popScope? with
      | none =>
          rfl
      | some scopeAndOuter =>
          obtain ⟨scope, outer⟩ := scopeAndOuter
          have ended :=
            endScopes_withCallers (store.withStack (store.stack.withCurrent outer))
              callers [scope]
          exact congrArg (EStateM.Result.ok ()) ended

private theorem sees_functionNamed (name : String) :
    SeesCurrentFrame (functionNamed name : Action Body (FunctionDef Body)) := by
  intro store callers
  simp only [functionNamed, functions_withCallers]
  cases store.functions.find? name <;> rfl

private theorem sees_recount :
    SeesCurrentFrame fun store : Store Body => .ok (Reply.done : Reply Body) store.recount := by
  intro store callers
  simp only [recount_withCallers]
  rfl

private theorem SeesCurrentFrame.map
    {α β : Type} {action : Action Body α}
    (sees : SeesCurrentFrame action)
    (change : α → β) :
    SeesCurrentFrame (change <$> action) := by
  intro store callers
  simp only [Functor.map, EStateM.map, sees store callers]
  cases action store <;> rfl

/-- All requests that push and pop no frame see and change the current frame alone. -/
theorem sees_perform
    {operation : Operation Body}
    (stays : operation.depthChange = 0) :
    SeesCurrentFrame (perform operation) := by
  cases operation with
  | declare name kind => exact (sees_declare name kind).map _
  | resolve name => exact (sees_resolve name).map _
  | kindOf name => exact ((sees_resolve name).map _).map _
  | read name => exact (sees_read name).map _
  | write name value => exact (sees_write name value).map _
  | allocate name => exact (sees_allocate name).map _
  | copy target source => exact (sees_copy target source).map _
  | nextData => exact sees_nextData.map _
  | pushScope => exact sees_pushScope.map _
  | popScope => exact sees_popScope.map _
  | register name formals body => exact fun _ _ => rfl
  | formalsOf name => exact ((sees_functionNamed name).map _).map _
  | bodyOf name => exact ((sees_functionNamed name).map _).map _
  | recount => exact sees_recount
  | pushFrame | pushCallFrame | popFrame => simp [Operation.depthChange] at stays

/-- So do the actions that such requests perform. -/
theorem Requests.sees
    {α : Type} {action : Action Body α} {operation : Operation Body}
    {reply : α → Reply Body}
    (requests : Requests action operation reply)
    (stays : operation.depthChange = 0) :
    SeesCurrentFrame action := by
  intro store callers
  have same := sees_perform stays store callers
  simp only [requests.performs, Functor.map, EStateM.map] at same
  cases left : action (store.withCallers callers) with
  | ok value next =>
      cases right : action store with
      | ok value' next' =>
          simp only [left, right, mapStore, EStateM.Result.ok.injEq] at same
          rw [requests.faithful same.1, same.2]
          rfl
      | error fault' next' =>
          simp [left, right, mapStore] at same
  | error fault next =>
      cases right : action store with
      | ok value' next' =>
          simp [left, right, mapStore] at same
      | error fault' next' =>
          simpa [left, right, mapStore] using same

/-- They leave the frames below the current one in place. -/
theorem Requests.callers_kept
    {α : Type} {action : Action Body α} {operation : Operation Body}
    {reply : α → Reply Body}
    (requests : Requests action operation reply)
    (stays : operation.depthChange = 0)
    {store next : Store Body} {current : Frame} {callers : List Frame} {value : α}
    (active : store.stack.frames = current :: callers)
    (done : action store = .ok value next) :
    ∃ current', next.stack.frames = current' :: callers := by
  have sameDepth := (requests.granted done).callDepth_eq
  have unchanged : store.withCallers callers = store := by
    rw [withCallers_of_frames store callers active, withFrames_self store active]
  have sees := requests.sees stays store callers
  rw [unchanged, done, mapStore, EStateM.Result.ok.injEq] at sees
  cases activeAfter : next.stack.frames with
  | nil =>
      simp [callDepth_eq, active, activeAfter, stays] at sameDepth
      omega
  | cons current' others =>
      have framesKept := congrArg (fun later => later.stack.frames) sees.2
      simp only [withCallers_of_frames next callers activeAfter, frames_withFrames,
        activeAfter] at framesKept
      exact ⟨current', framesKept⟩

variable {first second : Store Body}

/-- Of the arguments of a call, only the raw values are bound. -/
theorem bindActuals_congr
    {actuals : List String}
    (sameActuals :
      ∀ actual ∈ actuals,
        (first.find? actual).map Cell.value = (second.find? actual).map Cell.value)
    (formals : List String)
    (parameters : Scope) :
    first.bindActuals formals actuals parameters =
      second.bindActuals formals actuals parameters := by
  induction actuals generalizing formals parameters with
  | nil =>
      cases formals <;> rfl
  | cons actual rest inductionHypothesis =>
      cases formals with
      | nil =>
          rfl
      | cons formal formals =>
          have sameHere := sameActuals actual List.mem_cons_self
          have sameLater :=
            inductionHypothesis fun other isMember =>
              sameActuals other (List.mem_cons_of_mem actual isMember)
          unfold bindActuals
          cases inFirst : first.find? actual with
          | none =>
              cases inSecond : second.find? actual with
              | none => rfl
              | some cell => simp [inFirst, inSecond] at sameHere
          | some cell =>
              cases inSecond : second.find? actual with
              | none => simp [inFirst, inSecond] at sameHere
              | some cell' =>
                  simp only [inFirst, inSecond, Option.map_some, Option.some.injEq]
                    at sameHere
                  simp only [sameHere]
                  exact sameLater formals _

/-- A push that does the same on two stores, be it granted or refused. -/
inductive SamePush (push : Action Body Unit) (first second : Store Body) : Prop where
  | pushed
      (frame : Frame)
      (onFirst : push first = .ok () (first.withFrames (frame :: first.stack.frames)))
      (onSecond : push second = .ok () (second.withFrames (frame :: second.stack.frames)))
  | refused
      (fault : Fault)
      (onFirst : push first = .error fault first)
      (onSecond : push second = .error fault second)

/-- Whether a frame can be pushed depends on the number of frames. -/
theorem samePush_pushFrame
    (sameDepth : second.callDepth = first.callDepth)
    (sameSettings : second.settings = first.settings) :
    SamePush pushFrame first second := by
  by_cases full : first.settings.maxCallDepth ≤ first.callDepth
  · apply SamePush.refused (.callDepth first.settings.maxCallDepth)
    · simp [pushFrame, bind, EStateM.bind, checkCallDepth, full]
    · simp [pushFrame, bind, EStateM.bind, checkCallDepth, sameSettings, sameDepth, full]
  · have room := Nat.lt_of_not_le full
    apply SamePush.pushed
    · exact requests_pushFrame.eq_ok_of_granted (.pushFrame room)
    · rw [← sameSettings, ← sameDepth] at room
      exact requests_pushFrame.eq_ok_of_granted (.pushFrame room)

/-- Whether a function can be called depends on the raw values of the arguments too. -/
theorem samePush_pushCallFrame
    (sameDepth : second.callDepth = first.callDepth)
    (sameSettings : second.settings = first.settings)
    {actuals : List String}
    (sameActuals :
      ∀ actual ∈ actuals,
        (first.find? actual).map Cell.value = (second.find? actual).map Cell.value)
    (function : String)
    (formals : List String) :
    SamePush (pushCallFrame function formals actuals) first second := by
  have sameBound := bindActuals_congr sameActuals formals Scope.empty
  by_cases sameLength : formals.length = actuals.length
  · by_cases full : first.settings.maxCallDepth ≤ first.callDepth
    · apply SamePush.refused (.callDepth first.settings.maxCallDepth)
      · simp [pushCallFrame, bind, EStateM.bind, checkArguments, sameLength,
          checkCallDepth, full]
      · simp [pushCallFrame, bind, EStateM.bind, checkArguments, sameLength,
          checkCallDepth, sameSettings, sameDepth, full]
    · have room := Nat.lt_of_not_le full
      have roomToo := room
      rw [← sameSettings, ← sameDepth] at roomToo
      cases bound : first.bindActuals formals actuals Scope.empty with
      | error fault =>
          have boundToo := sameBound.symm.trans bound
          apply SamePush.refused fault
          · simp [pushCallFrame, bind, EStateM.bind, checkArguments, sameLength,
              checkCallDepth, Nat.not_le_of_lt room, parameters, bound]
          · simp [pushCallFrame, bind, EStateM.bind, checkArguments, sameLength,
              checkCallDepth, Nat.not_le_of_lt roomToo, parameters, boundToo]
      | ok scope =>
          have boundToo := sameBound.symm.trans bound
          apply SamePush.pushed
          · exact (requests_pushCallFrame function formals actuals).eq_ok_of_granted
              (.pushCallFrame sameLength room bound)
          · exact (requests_pushCallFrame function formals actuals).eq_ok_of_granted
              (.pushCallFrame sameLength roomToo boundToo)
  · apply SamePush.refused (.argumentCount function formals.length actuals.length)
    · simp [pushCallFrame, bind, EStateM.bind, checkArguments, sameLength]
    · simp [pushCallFrame, bind, EStateM.bind, checkArguments, sameLength]

end Store

end Callers

end RefScript
