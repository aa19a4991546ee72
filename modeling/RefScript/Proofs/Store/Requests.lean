import RefScript.Store.Operation

namespace RefScript

/-!
# What a request does

A request to the store is either granted or refused. For a granted one,
`Store.Granted` says under which conditions it was granted, what it answers and
which store it leaves; whatever holds of every granted request is a case
analysis of this relation. `Store.Refused` says why a request is refused, and a
refused one leaves the store as it was. The frames before and after are given
as lists, the current frame first.
-/

namespace Operation

variable {Body : Type}

/-- The variable that a request looks up before it does anything else. -/
def lookedUp? : Operation Body → Option String
  | .resolve name | .kindOf name | .read name | .write name _ | .allocate name => some name
  | .copy _ source => some source
  | _ => none

/-- The function that a request looks up. -/
def function? : Operation Body → Option String
  | .formalsOf name | .bodyOf name => some name
  | _ => none

/-- What a request does to the current frame, if it needs one. -/
def frameAction? : Operation Body → Option FrameAction
  | .pushScope => some .pushScope
  | .popScope => some .popScope
  | .popFrame => some .popFrame
  | _ => none

/--
Whether a request pushes a frame, its arguments being in order: their number is
checked before the depth of the call stack.
-/
def pushesFrame : Operation Body → Bool
  | .pushFrame => true
  | .pushCallFrame _ formals actuals => formals.length = actuals.length
  | _ => false

end Operation

namespace Store

variable {Body : Type}

/-- The same store with other active frames, the current one first. -/
def withFrames (store : Store Body) (frames : List Frame) : Store Body :=
  { store with stack := CallStack.ofFrames frames }

@[simp] theorem frames_withFrames (store : Store Body) (frames : List Frame) :
    (store.withFrames frames).stack.frames = frames :=
  rfl

/--
The end of scopes, given from the innermost outward: their references are
released, those of the outermost scope first, then the live handles recounted.
-/
def endScopes (store : Store Body) (scopes : List Scope) : Store Body :=
  (scopes.reverse.foldl release store).recount

/-- The depth of the call stack is the number of its frames. -/
theorem callDepth_eq (store : Store Body) :
    store.callDepth = store.stack.frames.length :=
  store.stack.depth_eq

/--
An assignment reaches the current frame if that frame binds the name, and the
globals otherwise.
-/
theorem assign?_eq_some
    {store next : Store Body}
    {name : String}
    {value : Option Word}
    (assigned : store.assign? name value = some next) :
    (∃ current callers frame,
        store.stack.frames = current :: callers ∧
          current.assign? name value = some frame ∧
          next = store.withFrames (frame :: callers)) ∨
      (store.stack.assign? name value = none ∧
        ∃ globals,
          store.globals.assign? name value = some globals ∧
            next = { store with globals }) := by
  unfold assign? at assigned
  cases inFrame : store.stack.assign? name value with
  | none =>
      simp only [inFrame, Option.map_eq_some_iff] at assigned
      obtain ⟨globals, globalsAssigned, rfl⟩ := assigned
      exact Or.inr ⟨rfl, globals, globalsAssigned, rfl⟩
  | some stack =>
      simp only [inFrame, Option.some.injEq] at assigned
      subst assigned
      unfold CallStack.assign? at inFrame
      simp only [Option.bind_eq_some_iff, Option.map_eq_some_iff] at inFrame
      obtain ⟨current, isCurrent, frame, frameAssigned, rfl⟩ := inFrame
      obtain ⟨callers, active⟩ := CallStack.current?_eq_some_iff.mp isCurrent
      refine Or.inl ⟨current, callers, frame, active, frameAssigned, ?_⟩
      rw [CallStack.withCurrent_eq active, withFrames]

/-- An assignment leaves everything but the frames and the globals. -/
theorem assign?_others
    {store next : Store Body}
    {name : String}
    {value : Option Word}
    (assigned : store.assign? name value = some next) :
    ∃ stack globals, next = { store with stack, globals } := by
  rcases assign?_eq_some assigned with inFrame | inGlobals
  · obtain ⟨_, callers, frame, _, _, rfl⟩ := inFrame
    exact ⟨CallStack.ofFrames (frame :: callers), store.globals, rfl⟩
  · obtain ⟨_, globals, _, rfl⟩ := inGlobals
    exact ⟨store.stack, globals, rfl⟩

/-- The effect of a granted request, with its answer. -/
inductive Granted (store : Store Body) :
    Operation Body → Reply Body → Store Body → Prop where
  | declareLocal
      {name : String} {kind : CellKind} {frame : Frame} {callers : List Frame}
      (active : store.stack.frames = frame :: callers) :
      Granted store (.declare name kind) .done
        (store.withFrames (frame.declare name kind :: callers))
  | declareGlobal
      {name : String} {kind : CellKind}
      (outside : store.stack.frames = []) :
      Granted store (.declare name kind) .done
        { store with globals := store.globals.declare name kind }
  | resolve
      {name : String} {cell : Cell}
      (found : store.find? name = some cell) :
      Granted store (.resolve name) (.cell cell) store
  | kindOf
      {name : String} {cell : Cell}
      (found : store.find? name = some cell) :
      Granted store (.kindOf name) (.kind cell.kind) store
  | readScalar
      {name : String} {cell : Cell}
      (found : store.find? name = some cell)
      (isInt : cell.kind = .int) :
      Granted store (.read name) (.word (cell.value.getD 0)) store
  | readSlot
      {name : String} {cell : Cell} {value : Word}
      (found : store.find? name = some cell)
      (isRef : cell.kind = .ref)
      (filled : cell.handle?.bind store.heap.read? = some value) :
      Granted store (.read name) (.word value) store
  | writeScalar
      {name : String} {value : Word} {cell : Cell} {next : Store Body}
      (found : store.find? name = some cell)
      (isInt : cell.kind = .int)
      (assigned : store.assign? name (some value) = some next) :
      Granted store (.write name value) .done next
  | writeSlot
      {name : String} {value : Word} {cell : Cell} {handle : Handle} {heap : Heap}
      (found : store.find? name = some cell)
      (isRef : cell.kind = .ref)
      (designated : cell.handle? = some handle)
      (written : store.heap.write? handle value = some heap) :
      Granted store (.write name value) .done { store with heap }
  | allocate
      {name : String} {cell : Cell} {word : Word} {bound : Store Body}
      (found : store.find? name = some cell)
      (isRef : cell.isRef = true)
      (fits : Word.ofHandle? store.heap.size = some word)
      (assigned : store.assign? name (some word) = some bound) :
      Granted store (.allocate name) (.handle bound.heap.size)
        bound.appendSlot.2.recount
  | copy
      {target source : String} {cell : Cell} {next : Store Body}
      (found : store.find? source = some cell)
      (assigned : store.assign? target cell.value = some next) :
      Granted store (.copy target source) .done next
  | nextData
      (available : store.input.atEnd = false) :
      Granted store .nextData (.word store.input.current)
        { store with input := store.input.advance }
  | pushScope
      {frame : Frame} {callers : List Frame}
      (active : store.stack.frames = frame :: callers) :
      Granted store .pushScope .done (store.withFrames (frame.pushScope :: callers))
  | popScope
      {frame outer : Frame} {callers : List Frame} {scope : Scope}
      (active : store.stack.frames = frame :: callers)
      (popped : frame.popScope? = some (scope, outer)) :
      Granted store .popScope .done
        ((store.withFrames (outer :: callers)).endScopes [scope])
  | pushFrame
      (room : store.callDepth < store.settings.maxCallDepth) :
      Granted store .pushFrame .done
        (store.withFrames
          (Frame.withEmptyScope blockFrameName :: store.stack.frames))
  | pushCallFrame
      {function : String} {formals actuals : List String} {scope : Scope}
      (sameLength : formals.length = actuals.length)
      (room : store.callDepth < store.settings.maxCallDepth)
      (bound : store.bindActuals formals actuals Scope.empty = .ok scope) :
      Granted store (.pushCallFrame function formals actuals) .done
        (store.withFrames
          ((Frame.withScope function scope).pushScope :: store.stack.frames))
  | popFrame
      {frame : Frame} {callers : List Frame}
      (active : store.stack.frames = frame :: callers) :
      Granted store .popFrame .done
        ((store.withFrames callers).endScopes frame.scopes)
  | register
      {name : String} {formals : List String} {body : Body} :
      Granted store (.register name formals body) .done
        { store with functions := store.functions.register name formals body }
  | formalsOf
      {name : String} {definition : FunctionDef Body}
      (found : store.functions.find? name = some definition) :
      Granted store (.formalsOf name) (.names definition.formals) store
  | bodyOf
      {name : String} {definition : FunctionDef Body}
      (found : store.functions.find? name = some definition) :
      Granted store (.bodyOf name) (.body definition.body) store
  | recount :
      Granted store .recount .done store.recount

/-- Why a request is refused. -/
inductive Refused (store : Store Body) : Operation Body → Fault → Prop where
  | undefinedName
      {operation : Operation Body} {name : String}
      (needs : operation.lookedUp? = some name)
      (missing : store.find? name = none) :
      Refused store operation (.undefinedName name)
  | undefinedTarget
      {target source : String} {cell : Cell}
      (found : store.find? source = some cell)
      (missing : store.find? target = none) :
      Refused store (.copy target source) (.undefinedName target)
  | invalidRead
      {name : String} {cell : Cell}
      (found : store.find? name = some cell)
      (isRef : cell.kind = .ref)
      (unfilled : cell.handle?.bind store.heap.read? = none) :
      Refused store (.read name) (.invalidRead name)
  | invalidWrite
      {name : String} {value : Word} {cell : Cell}
      (found : store.find? name = some cell)
      (isRef : cell.kind = .ref)
      (noSlot : ∀ handle ∈ cell.handle?, store.heap.write? handle value = none) :
      Refused store (.write name value) (.invalidWrite name)
  | notARef
      {name : String} {cell : Cell}
      (found : store.find? name = some cell)
      (notRef : cell.isRef = false) :
      Refused store (.allocate name) (.notARef name)
  | heapExhausted
      {name : String} {cell : Cell}
      (found : store.find? name = some cell)
      (isRef : cell.isRef = true)
      (tooLarge : Word.ofHandle? store.heap.size = none) :
      Refused store (.allocate name) .heapExhausted
  | dataExhausted
      (atEnd : store.input.atEnd = true) :
      Refused store .nextData .dataExhausted
  | noFrame
      {operation : Operation Body} {action : FrameAction}
      (needs : operation.frameAction? = some action)
      (outside : store.stack.frames = []) :
      Refused store operation (.noFrame action)
  | scopeUnderflow
      {frame : Frame} {callers : List Frame}
      (active : store.stack.frames = frame :: callers)
      (atBase : frame.popScope? = none) :
      Refused store .popScope (.scopeUnderflow frame.function)
  | argumentCount
      {function : String} {formals actuals : List String}
      (lengthsDiffer : formals.length ≠ actuals.length) :
      Refused store (.pushCallFrame function formals actuals)
        (.argumentCount function formals.length actuals.length)
  | callDepth
      {operation : Operation Body}
      (pushes : operation.pushesFrame = true)
      (full : store.settings.maxCallDepth ≤ store.callDepth) :
      Refused store operation (.callDepth store.settings.maxCallDepth)
  | unboundActual
      {function : String} {formals actuals : List String} {actual : String}
      (sameLength : formals.length = actuals.length)
      (room : store.callDepth < store.settings.maxCallDepth)
      (unbound :
        actuals.find? (fun actual => (store.find? actual).isNone) = some actual) :
      Refused store (.pushCallFrame function formals actuals) (.undefinedName actual)
  | undefinedFunction
      {operation : Operation Body} {name : String}
      (needs : operation.function? = some name)
      (missing : store.functions.find? name = none) :
      Refused store operation (.undefinedFunction name)

/-- A request's two outcomes: it is granted, or it is refused and changes nothing. -/
inductive Performed (store : Store Body) (operation : Operation Body) :
    EStateM.Result Fault (Store Body) (Reply Body) → Prop where
  | granted
      {reply : Reply Body} {next : Store Body}
      (effect : Granted store operation reply next) :
      Performed store operation (.ok reply next)
  | refused
      {fault : Fault}
      (reason : Refused store operation fault) :
      Performed store operation (.error fault store)

private theorem performed_declare
    (store : Store Body)
    (name : String)
    (kind : CellKind) :
    Performed store (.declare name kind)
      (((fun _ => .done) <$> declare name kind : Action Body (Reply Body)) store) := by
  simp only [Functor.map, EStateM.map, declare]
  cases isCurrent : store.stack.current? with
  | none =>
      exact .granted (.declareGlobal (CallStack.current?_eq_none_iff.mp isCurrent))
  | some frame =>
      obtain ⟨callers, active⟩ := CallStack.current?_eq_some_iff.mp isCurrent
      simp only [CallStack.withCurrent_eq active]
      exact .granted (.declareLocal active)

private theorem performed_read (store : Store Body) (name : String) :
    Performed store (.read name)
      ((.word <$> read name : Action Body (Reply Body)) store) := by
  simp only [Functor.map, EStateM.map, read]
  cases found : store.find? name with
  | none =>
      exact .refused (.undefinedName rfl found)
  | some cell =>
      cases kind : cell.kind with
      | int =>
          simp only [kind]
          exact .granted (.readScalar found kind)
      | ref =>
          simp only [kind]
          cases filled : cell.handle?.bind store.heap.read? with
          | none =>
              exact .refused (.invalidRead found kind filled)
          | some value =>
              exact .granted (.readSlot found kind filled)

private theorem performed_write
    (store : Store Body)
    (name : String)
    (value : Word) :
    Performed store (.write name value)
      (((fun _ => .done) <$> write name value : Action Body (Reply Body)) store) := by
  simp only [Functor.map, EStateM.map, write, assign]
  cases found : store.find? name with
  | none =>
      exact .refused (.undefinedName rfl found)
  | some cell =>
      cases kind : cell.kind with
      | int =>
          simp only [kind]
          cases assigned : store.assign? name (some value) with
          | none =>
              exact .refused (.undefinedName rfl (assign?_eq_none_iff.mp assigned))
          | some next =>
              exact .granted (.writeScalar found kind assigned)
      | ref =>
          simp only [kind]
          cases designated : cell.handle? with
          | none =>
              exact .refused (.invalidWrite found kind (by simp [designated]))
          | some handle =>
              simp only [Option.bind_some]
              cases written : store.heap.write? handle value with
              | none =>
                  exact .refused (.invalidWrite found kind (by simp [designated, written]))
              | some heap =>
                  exact .granted (.writeSlot found kind designated written)

private theorem performed_allocate (store : Store Body) (name : String) :
    Performed store (.allocate name)
      ((.handle <$> allocate name : Action Body (Reply Body)) store) := by
  simp only [Functor.map, EStateM.map, allocate]
  cases found : store.find? name with
  | none =>
      exact .refused (.undefinedName rfl found)
  | some cell =>
      cases isRef : cell.isRef with
      | false =>
          simp only [isRef, Bool.false_eq_true, ↓reduceIte]
          exact .refused (.notARef found isRef)
      | true =>
          simp only [isRef, ↓reduceIte]
          cases fits : Word.ofHandle? store.heap.size with
          | none =>
              exact .refused (.heapExhausted found isRef fits)
          | some word =>
              simp only
              cases assigned : store.assign? name (some word) with
              | none =>
                  exact .refused (.undefinedName rfl (assign?_eq_none_iff.mp assigned))
              | some bound =>
                  exact .granted (.allocate found isRef fits assigned)

private theorem performed_copy (store : Store Body) (target source : String) :
    Performed store (.copy target source)
      (((fun _ => .done) <$> copy target source : Action Body (Reply Body)) store) := by
  simp only [Functor.map, EStateM.map, copy, assign]
  cases found : store.find? source with
  | none =>
      exact .refused (.undefinedName rfl found)
  | some cell =>
      simp only
      cases assigned : store.assign? target cell.value with
      | none =>
          exact .refused (.undefinedTarget found (assign?_eq_none_iff.mp assigned))
      | some next =>
          exact .granted (.copy found assigned)

private theorem performed_nextData (store : Store Body) :
    Performed store .nextData
      ((.word <$> nextData : Action Body (Reply Body)) store) := by
  simp only [Functor.map, EStateM.map, nextData]
  cases atEnd : store.input.atEnd with
  | true =>
      exact .refused (.dataExhausted atEnd)
  | false =>
      exact .granted (.nextData atEnd)

private theorem performed_pushScope (store : Store Body) :
    Performed store .pushScope
      (((fun _ => .done) <$> pushScope : Action Body (Reply Body)) store) := by
  simp only [Functor.map, EStateM.map, pushScope]
  cases isCurrent : store.stack.current? with
  | none =>
      exact .refused (.noFrame rfl (CallStack.current?_eq_none_iff.mp isCurrent))
  | some frame =>
      obtain ⟨callers, active⟩ := CallStack.current?_eq_some_iff.mp isCurrent
      simp only [CallStack.withCurrent_eq active]
      exact .granted (.pushScope active)

private theorem performed_popScope (store : Store Body) :
    Performed store .popScope
      (((fun _ => .done) <$> popScope : Action Body (Reply Body)) store) := by
  simp only [Functor.map, EStateM.map, popScope]
  cases isCurrent : store.stack.current? with
  | none =>
      exact .refused (.noFrame rfl (CallStack.current?_eq_none_iff.mp isCurrent))
  | some frame =>
      obtain ⟨callers, active⟩ := CallStack.current?_eq_some_iff.mp isCurrent
      simp only [CallStack.withCurrent_eq active]
      cases popped : frame.popScope? with
      | none =>
          exact .refused (.scopeUnderflow active popped)
      | some scopeAndOuter =>
          exact .granted (.popScope active popped)

private theorem performed_pushFrame (store : Store Body) :
    Performed store .pushFrame
      (((fun _ => .done) <$> pushFrame : Action Body (Reply Body)) store) := by
  simp only [Functor.map, EStateM.map, pushFrame, bind, EStateM.bind,
    checkCallDepth, activate]
  by_cases full : store.settings.maxCallDepth ≤ store.callDepth
  · simp only [full, ↓reduceIte]
    exact .refused (.callDepth rfl full)
  · simp only [full, ↓reduceIte, CallStack.push_eq]
    exact .granted (.pushFrame (Nat.lt_of_not_le full))

private theorem performed_pushCallFrame
    (store : Store Body)
    (function : String)
    (formals actuals : List String) :
    Performed store (.pushCallFrame function formals actuals)
      (((fun _ => .done) <$> pushCallFrame function formals actuals : Action Body (Reply Body)) store) := by
  simp only [Functor.map, EStateM.map, pushCallFrame, bind, EStateM.bind,
    checkArguments, checkCallDepth, parameters, activate]
  by_cases sameLength : formals.length = actuals.length
  · simp only [sameLength, ↓reduceIte]
    by_cases full : store.settings.maxCallDepth ≤ store.callDepth
    · simp only [full, ↓reduceIte]
      exact .refused (.callDepth (decide_eq_true sameLength) full)
    · simp only [full, ↓reduceIte]
      cases bound : store.bindActuals formals actuals Scope.empty with
      | error fault =>
          obtain ⟨actual, unbound, rfl⟩ := (bindActuals_eq_error_iff sameLength).mp bound
          exact .refused (.unboundActual sameLength (Nat.lt_of_not_le full) unbound)
      | ok scope =>
          simp only [CallStack.push_eq]
          exact .granted
            (.pushCallFrame sameLength (Nat.lt_of_not_le full) bound)
  · simp only [sameLength, ↓reduceIte]
    exact .refused (.argumentCount sameLength)

private theorem performed_popFrame (store : Store Body) :
    Performed store .popFrame
      (((fun _ => .done) <$> popFrame : Action Body (Reply Body)) store) := by
  simp only [Functor.map, EStateM.map, popFrame]
  cases popped : store.stack.pop? with
  | none =>
      exact .refused (.noFrame rfl (congrArg CallStack.frames (CallStack.pop?_eq_none_iff.mp popped)))
  | some frameAndCallers =>
      obtain ⟨frame, stack⟩ := frameAndCallers
      have pushed : store.stack = stack.push frame :=
        CallStack.pop?_eq_some_iff.mp popped
      have active : store.stack.frames = frame :: stack.frames := by
        rw [pushed, CallStack.frames_push]
      have sameStack : stack = CallStack.ofFrames stack.frames :=
        CallStack.ext rfl
      simp only
      rw [sameStack]
      exact .granted (.popFrame active)

/-- Every request is granted with the effect described, or refused without any. -/
theorem performed (store : Store Body) (operation : Operation Body) :
    Performed store operation (perform operation store) := by
  cases operation with
  | declare name kind =>
      exact performed_declare store name kind
  | resolve name =>
      simp only [perform, Functor.map, EStateM.map, resolve]
      cases found : store.find? name with
      | none => exact .refused (.undefinedName rfl found)
      | some cell => exact .granted (.resolve found)
  | kindOf name =>
      simp only [perform, kindOf, Functor.map, EStateM.map, resolve]
      cases found : store.find? name with
      | none => exact .refused (.undefinedName rfl found)
      | some cell => exact .granted (.kindOf found)
  | read name =>
      exact performed_read store name
  | write name value =>
      exact performed_write store name value
  | allocate name =>
      exact performed_allocate store name
  | copy target source =>
      exact performed_copy store target source
  | nextData =>
      exact performed_nextData store
  | pushScope =>
      exact performed_pushScope store
  | popScope =>
      exact performed_popScope store
  | pushFrame =>
      exact performed_pushFrame store
  | pushCallFrame function formals actuals =>
      exact performed_pushCallFrame store function formals actuals
  | popFrame =>
      exact performed_popFrame store
  | register name formals body =>
      exact .granted .register
  | formalsOf name =>
      simp only [perform, formalsOf, Functor.map, EStateM.map, functionNamed]
      cases found : store.functions.find? name with
      | none => exact .refused (.undefinedFunction rfl found)
      | some definition => exact .granted (.formalsOf found)
  | bodyOf name =>
      simp only [perform, bodyOf, Functor.map, EStateM.map, functionNamed]
      cases found : store.functions.find? name with
      | none => exact .refused (.undefinedFunction rfl found)
      | some definition => exact .granted (.bodyOf found)
  | recount =>
      exact .granted .recount

/-- A request that gets an answer has the effect described. -/
theorem granted_of_perform
    {store next : Store Body}
    {operation : Operation Body}
    {reply : Reply Body}
    (answered : perform operation store = .ok reply next) :
    Granted store operation reply next := by
  have outcome := performed store operation
  rw [answered] at outcome
  cases outcome with
  | granted effect => exact effect

/-- A request that meets a fault changes nothing. -/
theorem eq_of_perform_error
    {store next : Store Body}
    {operation : Operation Body}
    {fault : Fault}
    (refused : perform operation store = .error fault next) :
    next = store := by
  have outcome := performed store operation
  rw [refused] at outcome
  cases outcome with
  | refused reason => rfl

/-- A request that meets a fault has a reason to be refused. -/
theorem refused_of_perform
    {store next : Store Body}
    {operation : Operation Body}
    {fault : Fault}
    (failed : perform operation store = .error fault next) :
    Refused store operation fault := by
  have outcome := performed store operation
  rw [failed] at outcome
  cases outcome with
  | refused reason => exact reason

/-- The effect described is the one that the request has. -/
theorem perform_of_granted
    {store next : Store Body} {operation : Operation Body} {reply : Reply Body}
    (granted : Granted store operation reply next) :
    perform operation store = .ok reply next := by
  cases granted with
  | declareLocal active =>
      simp [perform, Functor.map, EStateM.map, declare,
        CallStack.current?_of_frames active, CallStack.withCurrent_eq active, withFrames]
  | declareGlobal outside =>
      simp [perform, Functor.map, EStateM.map, declare,
        CallStack.current?_eq_none_iff.mpr outside]
  | resolve found =>
      simp [perform, Functor.map, EStateM.map, resolve, found]
  | kindOf found =>
      simp [perform, Functor.map, EStateM.map, kindOf, resolve, found]
  | readScalar found isInt =>
      simp [perform, Functor.map, EStateM.map, read, found, isInt]
  | readSlot found isRef filled =>
      simp only [perform, Functor.map, EStateM.map, read, found, isRef, filled]
  | writeScalar found isInt assigned =>
      simp [perform, Functor.map, EStateM.map, write, assign, found, isInt, assigned]
  | writeSlot found isRef designated written =>
      simp [perform, Functor.map, EStateM.map, write, found, isRef, designated, written]
  | allocate found isRef fits assigned =>
      simp [perform, Functor.map, EStateM.map, allocate, found, isRef, fits, assigned]
      rfl
  | copy found assigned =>
      simp [perform, Functor.map, EStateM.map, copy, assign, found, assigned]
  | nextData available =>
      simp [perform, Functor.map, EStateM.map, nextData, available]
  | pushScope active =>
      simp [perform, Functor.map, EStateM.map, pushScope,
        CallStack.current?_of_frames active, CallStack.withCurrent_eq active, withFrames]
  | popScope active popped =>
      simp [perform, Functor.map, EStateM.map, popScope, popped,
        CallStack.current?_of_frames active, CallStack.withCurrent_eq active, withFrames]
      rfl
  | pushFrame room =>
      simp [perform, Functor.map, EStateM.map, pushFrame, bind, EStateM.bind,
        checkCallDepth, activate, Nat.not_le_of_lt room, CallStack.push_eq, withFrames]
  | pushCallFrame sameLength room bound =>
      simp [perform, Functor.map, EStateM.map, pushCallFrame, bind, EStateM.bind,
        checkArguments, checkCallDepth, parameters, activate, sameLength,
        Nat.not_le_of_lt room, bound, CallStack.push_eq, withFrames]
  | popFrame active =>
      simp [perform, Functor.map, EStateM.map, popFrame, CallStack.pop?_of_frames active, endScopes,
        withFrames]
  | register =>
      rfl
  | formalsOf found =>
      simp [perform, Functor.map, EStateM.map, formalsOf, functionNamed, found]
  | bodyOf found =>
      simp [perform, Functor.map, EStateM.map, bodyOf, functionNamed, found]
  | recount =>
      rfl

/-- A request that there is a reason to refuse is refused for it, and changes nothing. -/
theorem perform_of_refused
    {store : Store Body} {operation : Operation Body} {fault : Fault}
    (refused : Refused store operation fault) :
    perform operation store = .error fault store := by
  cases refused with
  | undefinedName needs missing =>
      cases operation with
      | resolve | kindOf | read | write | allocate | copy =>
          cases needs
          simp [perform, Functor.map, EStateM.map, kindOf, resolve, read, write, allocate,
            copy, missing]
      | _ => contradiction
  | undefinedTarget found missing =>
      simp [perform, Functor.map, EStateM.map, copy, assign, found,
        assign?_eq_none_iff.mpr missing]
  | invalidRead found isRef unfilled =>
      simp only [perform, Functor.map, EStateM.map, read, found, isRef, unfilled]
  | invalidWrite found isRef noSlot =>
      have notWritten := Option.bind_eq_none_iff.mpr noSlot
      simp only [perform, Functor.map, EStateM.map, write, found, isRef, notWritten]
  | notARef found notRef =>
      simp [perform, Functor.map, EStateM.map, allocate, found, notRef]
  | heapExhausted found isRef tooLarge =>
      simp [perform, Functor.map, EStateM.map, allocate, found, isRef, tooLarge]
  | dataExhausted atEnd =>
      simp [perform, Functor.map, EStateM.map, nextData, atEnd]
  | noFrame needs outside =>
      have noCurrent := CallStack.current?_eq_none_iff.mpr outside
      have nothingToPop : store.stack.pop? = none :=
        CallStack.pop?_eq_none_iff.mpr (CallStack.ext outside)
      cases operation with
      | pushScope | popScope | popFrame =>
          cases needs
          simp [perform, Functor.map, EStateM.map, pushScope, popScope, popFrame,
            noCurrent, nothingToPop]
      | _ => contradiction
  | scopeUnderflow active atBase =>
      simp [perform, Functor.map, EStateM.map, popScope,
        CallStack.current?_of_frames active, atBase]
  | argumentCount lengthsDiffer =>
      simp [perform, Functor.map, EStateM.map, pushCallFrame, bind, EStateM.bind,
        checkArguments, lengthsDiffer]
  | callDepth pushes full =>
      cases operation with
      | pushFrame =>
          simp [perform, Functor.map, EStateM.map, pushFrame, bind, EStateM.bind,
            checkCallDepth, full]
      | pushCallFrame function formals actuals =>
          have sameLength : formals.length = actuals.length := of_decide_eq_true pushes
          simp [perform, Functor.map, EStateM.map, pushCallFrame, bind, EStateM.bind,
            checkArguments, checkCallDepth, sameLength, full]
      | _ => contradiction
  | unboundActual sameLength room unbound =>
      have notBound :=
        (@bindActuals_eq_error_iff Body store _ _ Scope.empty _ sameLength).mpr
          ⟨_, unbound, rfl⟩
      simp [perform, Functor.map, EStateM.map, pushCallFrame, bind, EStateM.bind,
        checkArguments, checkCallDepth, parameters, sameLength, Nat.not_le_of_lt room, notBound]
  | undefinedFunction needs missing =>
      cases operation with
      | formalsOf | bodyOf =>
          cases needs
          simp [perform, Functor.map, EStateM.map, formalsOf, bodyOf, functionNamed, missing]
      | _ => contradiction

/-- What a store has, and has if the request is granted, it has after the request. -/
theorem holds_after
    {holds : Store Body → Prop}
    {store : Store Body}
    {operation : Operation Body}
    (granted :
      ∀ {next : Store Body} {reply : Reply Body},
        Granted store operation reply next → holds next)
    (before : holds store) :
    holds (store.after operation) := by
  unfold after
  cases outcome : perform operation store with
  | ok reply next =>
      exact granted (granted_of_perform outcome)
  | error fault next =>
      rw [eq_of_perform_error outcome]
      exact before

/-- What every granted request preserves, every request preserves. -/
theorem after_of_granted
    {holds : Store Body → Prop}
    (granted :
      ∀ {store next : Store Body} {operation : Operation Body} {reply : Reply Body},
        Granted store operation reply next → holds store → holds next)
    (store : Store Body)
    (operation : Operation Body)
    (before : holds store) :
    holds (store.after operation) :=
  holds_after (fun allowed => granted allowed before) before

/-- What every request preserves holds after every history. -/
theorem afterAll_of_after
    {holds : Store Body → Prop}
    (kept : ∀ store operation, holds store → holds (store.after operation))
    (operations : List (Operation Body))
    (store : Store Body)
    (before : holds store) :
    holds (store.afterAll operations) := by
  induction operations generalizing store with
  | nil =>
      exact before
  | cons operation rest inductionHypothesis =>
      exact inductionHypothesis (store.after operation) (kept store operation before)

/--
An action is what a request performs: its value determines the answer, and is
determined by it.
-/
structure Requests
    {α : Type}
    (action : Action Body α)
    (operation : Operation Body)
    (reply : α → Reply Body) : Prop where
  performs : perform operation = reply <$> action
  faithful : Function.Injective reply

namespace Requests

variable {α : Type} {action : Action Body α} {operation : Operation Body}
  {reply : α → Reply Body} {store next : Store Body}

theorem perform_eq_ok
    (requests : Requests action operation reply)
    {value : α}
    (done : action store = .ok value next) :
    perform operation store = .ok (reply value) next := by
  simp only [requests.performs, Functor.map, EStateM.map, done]

theorem perform_eq_error
    (requests : Requests action operation reply)
    {fault : Fault}
    (failed : action store = .error fault next) :
    perform operation store = .error fault next := by
  simp only [requests.performs, Functor.map, EStateM.map, failed]

/-- An action that gives a value has the effect of the request. -/
theorem granted
    (requests : Requests action operation reply)
    {value : α}
    (done : action store = .ok value next) :
    Granted store operation (reply value) next :=
  granted_of_perform (requests.perform_eq_ok done)

/-- An action has the effect of the request whenever that is granted. -/
theorem eq_ok_of_granted
    (requests : Requests action operation reply)
    {value : α}
    (granted : Granted store operation (reply value) next) :
    action store = .ok value next := by
  have answered := perform_of_granted granted
  simp only [requests.performs, Functor.map, EStateM.map] at answered
  cases outcome : action store with
  | ok given reached =>
      simp only [outcome, EStateM.Result.ok.injEq] at answered
      obtain ⟨sameReply, rfl⟩ := answered
      rw [requests.faithful sameReply]
  | error fault reached =>
      simp [outcome] at answered

/-- An action that meets a fault changes nothing. -/
theorem refused
    (requests : Requests action operation reply)
    {fault : Fault}
    (failed : action store = .error fault next) :
    next = store :=
  eq_of_perform_error (requests.perform_eq_error failed)

/-- An action that meets a fault does so for the reason that the request is refused. -/
theorem reason
    (requests : Requests action operation reply)
    {fault : Fault}
    (failed : action store = .error fault next) :
    Refused store operation fault :=
  refused_of_perform (requests.perform_eq_error failed)

/-- An action meets a fault whenever there is a reason to refuse the request. -/
theorem eq_error_of_refused
    (requests : Requests action operation reply)
    {fault : Fault}
    (refused : Refused store operation fault) :
    action store = .error fault store := by
  have failed := perform_of_refused refused
  simp only [requests.performs, Functor.map, EStateM.map] at failed
  cases outcome : action store with
  | ok value reached =>
      simp [outcome] at failed
  | error fault' reached =>
      simpa [outcome] using failed

end Requests

private theorem faithful_done : Function.Injective fun _ : Unit => (Reply.done : Reply Body) :=
  fun _ _ _ => rfl

theorem requests_declare (name : String) (kind : CellKind) :
    Requests (declare name kind : Action Body Unit) (.declare name kind) fun _ => .done :=
  ⟨rfl, faithful_done⟩

theorem requests_read (name : String) :
    Requests (read name : Action Body Word) (.read name) .word :=
  ⟨rfl, fun _ _ same => Reply.word.inj same⟩

theorem requests_write (name : String) (value : Word) :
    Requests (write name value : Action Body Unit) (.write name value) fun _ => .done :=
  ⟨rfl, faithful_done⟩

theorem requests_allocate (name : String) :
    Requests (allocate name : Action Body Handle) (.allocate name) .handle :=
  ⟨rfl, fun _ _ same => Reply.handle.inj same⟩

theorem requests_copy (target source : String) :
    Requests (copy target source : Action Body Unit) (.copy target source) fun _ => .done :=
  ⟨rfl, faithful_done⟩

theorem requests_nextData : Requests (nextData : Action Body Word) .nextData .word :=
  ⟨rfl, fun _ _ same => Reply.word.inj same⟩

theorem requests_pushScope :
    Requests (pushScope : Action Body Unit) .pushScope fun _ => .done :=
  ⟨rfl, faithful_done⟩

theorem requests_popScope :
    Requests (popScope : Action Body Unit) .popScope fun _ => .done :=
  ⟨rfl, faithful_done⟩

theorem requests_pushFrame :
    Requests (pushFrame : Action Body Unit) .pushFrame fun _ => .done :=
  ⟨rfl, faithful_done⟩

theorem requests_pushCallFrame (function : String) (formals actuals : List String) :
    Requests (pushCallFrame function formals actuals : Action Body Unit)
      (.pushCallFrame function formals actuals) fun _ => .done :=
  ⟨rfl, faithful_done⟩

theorem requests_popFrame :
    Requests (popFrame : Action Body Unit) .popFrame fun _ => .done :=
  ⟨rfl, faithful_done⟩

theorem requests_register (name : String) (formals : List String) (body : Body) :
    Requests (register name formals body) (.register name formals body) fun _ => .done :=
  ⟨rfl, faithful_done⟩

theorem requests_formalsOf (name : String) :
    Requests (formalsOf name : Action Body (List String)) (.formalsOf name) .names :=
  ⟨rfl, fun _ _ same => Reply.names.inj same⟩

theorem requests_bodyOf (name : String) :
    Requests (bodyOf name : Action Body Body) (.bodyOf name) .body :=
  ⟨rfl, fun _ _ same => Reply.body.inj same⟩

end Store

end RefScript
