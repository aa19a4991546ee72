import RefScript.Proofs.Shape
import RefScript.Proofs.Store.Frames

namespace RefScript

/-!
# An empty scope more

A frame may have an empty scope among its scopes that another frame lacks. No
name is found there, and so the requests that look a name up do not see it. It
matters only to those that work on the innermost scope, whatever is bound there:
declarations and the end of a scope. Inside a further scope, these do not see it
either.
-/

namespace Frame

/--
The later frame is the first one with an empty scope more. Both have come from the
base frame: its scopes, with other raw values, are the outer ones, and the empty
scope is between these and the inner ones.
-/
inductive Padded (base : Frame) : Frame → Frame → Prop where
  | intro
      (innerScopes outerScopes : List Scope)
      (sameShape : outerScopes.map Scope.kinds = base.scopes.map Scope.kinds) :
      Padded base
        ⟨base.function, innerScopes ++ outerScopes⟩
        ⟨base.function, innerScopes ++ Scope.empty :: outerScopes⟩

/-- An assignment passes an empty scope by. -/
private theorem assignIn?_padded
    (name : String) (value : Option Word) (innerScopes outerScopes : List Scope) :
    (assignIn? name value (innerScopes ++ outerScopes) = none ∧
        assignIn? name value (innerScopes ++ Scope.empty :: outerScopes) = none) ∨
      ∃ innerScopes' outerScopes',
        outerScopes'.map Scope.kinds = outerScopes.map Scope.kinds ∧
          assignIn? name value (innerScopes ++ outerScopes) =
            some (innerScopes' ++ outerScopes') ∧
          assignIn? name value (innerScopes ++ Scope.empty :: outerScopes) =
            some (innerScopes' ++ Scope.empty :: outerScopes') := by
  induction innerScopes with
  | nil =>
      have notHere : Scope.empty.assign? name value = none :=
        Scope.assign?_eq_none_iff.mpr (Scope.find?_empty name)
      simp only [List.nil_append, assignIn?, notHere]
      cases assigned : assignIn? name value outerScopes with
      | none =>
          exact Or.inl ⟨rfl, rfl⟩
      | some outerScopes' =>
          exact Or.inr ⟨[], outerScopes', kinds_of_assignIn? assigned, rfl, rfl⟩
  | cons scope rest inductionHypothesis =>
      simp only [List.cons_append, assignIn?]
      cases scope.assign? name value with
      | some assigned =>
          exact Or.inr ⟨assigned :: rest, outerScopes, rfl, rfl, rfl⟩
      | none =>
          rcases inductionHypothesis with ⟨unbound, unboundToo⟩ | found
          · exact Or.inl ⟨by rw [unbound]; rfl, by rw [unboundToo]; rfl⟩
          · obtain ⟨innerScopes', outerScopes', sameShape, assigned, assignedToo⟩ := found
            refine Or.inr ⟨scope :: innerScopes', outerScopes', sameShape, ?_, ?_⟩
            · rw [assigned]
              rfl
            · rw [assignedToo]
              rfl

namespace Padded

variable {base frame padded : Frame}

/-- Scopes beyond the number of the base frame's are inner ones. -/
private theorem scopeDepth_append
    {innerScopes outerScopes : List Scope}
    (sameShape : outerScopes.map Scope.kinds = base.scopes.map Scope.kinds) :
    (⟨base.function, innerScopes ++ outerScopes⟩ : Frame).scopeDepth =
      base.scopeDepth + innerScopes.length := by
  have sameLength := congrArg List.length sameShape
  rw [List.length_map, List.length_map] at sameLength
  simp only [scopeDepth, List.length_append, sameLength]
  exact Nat.add_comm _ _

theorem scopeDepth_le (isPadded : Padded base frame padded) :
    base.scopeDepth ≤ frame.scopeDepth := by
  cases isPadded with
  | intro innerScopes outerScopes sameShape =>
      rw [scopeDepth_append sameShape]
      exact Nat.le_add_right _ _

theorem scopes_ne_nil
    (isPadded : Padded base frame padded)
    (nonempty : base.scopes ≠ []) :
    frame.scopes ≠ [] := by
  cases isPadded with
  | intro innerScopes outerScopes sameShape =>
      intro noScopes
      rw [(List.append_eq_nil_iff.mp noScopes).2] at sameShape
      exact nonempty (List.map_eq_nil_iff.mp sameShape.symm)

theorem find?_eq (isPadded : Padded base frame padded) (name : String) :
    padded.find? name = frame.find? name := by
  cases isPadded with
  | intro innerScopes outerScopes sameShape =>
      simp [find?, List.findSome?_append]

theorem assign?
    (isPadded : Padded base frame padded) (name : String) (value : Option Word) :
    (frame.assign? name value = none ∧ padded.assign? name value = none) ∨
      ∃ assigned assigned',
        frame.assign? name value = some assigned ∧
          padded.assign? name value = some assigned' ∧ Padded base assigned assigned' := by
  cases isPadded with
  | intro innerScopes outerScopes sameShape =>
      simp only [Frame.assign?]
      rcases assignIn?_padded name value innerScopes outerScopes with
        ⟨unbound, unboundToo⟩ | found
      · exact Or.inl ⟨by rw [unbound]; rfl, by rw [unboundToo]; rfl⟩
      · obtain ⟨innerScopes', outerScopes', shapeKept, assigned, assignedToo⟩ := found
        rw [assigned, assignedToo]
        exact Or.inr ⟨_, _, rfl, rfl, .intro innerScopes' outerScopes' (shapeKept.trans sameShape)⟩

/-- A scope that is opened is one of the inner ones. -/
theorem pushScope (isPadded : Padded base frame padded) :
    Padded base frame.pushScope padded.pushScope := by
  cases isPadded with
  | intro innerScopes outerScopes sameShape =>
      exact .intro (Scope.empty :: innerScopes) outerScopes sameShape

/-- Inside a further scope, a declaration goes to that. -/
theorem declare
    (isPadded : Padded base frame padded)
    (inside : base.scopeDepth < frame.scopeDepth)
    (name : String)
    (kind : CellKind) :
    Padded base (frame.declare name kind) (padded.declare name kind) := by
  cases isPadded with
  | intro innerScopes outerScopes sameShape =>
      rw [scopeDepth_append sameShape] at inside
      cases innerScopes with
      | nil => exact absurd inside (Nat.lt_irrefl _)
      | cons innermost rest =>
          exact .intro (innermost.declare name kind :: rest) outerScopes sameShape

/-- A further scope can be closed, and the empty one is still there. -/
theorem popScope?
    (isPadded : Padded base frame padded)
    (nonempty : base.scopes ≠ [])
    (inside : base.scopeDepth < frame.scopeDepth) :
    ∃ scope rest rest',
      frame.popScope? = some (scope, rest) ∧
        padded.popScope? = some (scope, rest') ∧ Padded base rest rest' := by
  cases isPadded with
  | intro innerScopes outerScopes sameShape =>
      rw [scopeDepth_append sameShape] at inside
      cases innerScopes with
      | nil => exact absurd inside (Nat.lt_irrefl _)
      | cons innermost rest =>
          have outerScoped : rest ++ outerScopes ≠ [] := by
            intro noScopes
            rw [(List.append_eq_nil_iff.mp noScopes).2] at sameShape
            exact nonempty (List.map_eq_nil_iff.mp sameShape.symm)
          refine ⟨innermost, ⟨base.function, rest ++ outerScopes⟩,
            ⟨base.function, rest ++ Scope.empty :: outerScopes⟩, ?_, ?_,
            .intro rest outerScopes sameShape⟩
          · exact popScope?_eq_some_iff.mpr ⟨rfl, outerScoped⟩
          · exact popScope?_eq_some_iff.mpr ⟨rfl, by simp⟩

/-- Where there are no inner scopes, the empty scope is the one that is closed next. -/
theorem popScope?_of_innermost
    (isPadded : Padded base frame padded)
    (nonempty : base.scopes ≠ [])
    (innermost : frame.scopeDepth = base.scopeDepth) :
    padded.popScope? = some (Scope.empty, frame) := by
  cases isPadded with
  | intro innerScopes outerScopes sameShape =>
      rw [scopeDepth_append sameShape] at innermost
      have noInner : innerScopes = [] :=
        List.eq_nil_of_length_eq_zero (Nat.add_eq_left.mp innermost)
      subst noInner
      refine popScope?_eq_some_iff.mpr ⟨rfl, fun noScopes => ?_⟩
      have noOuter : outerScopes = [] := noScopes
      rw [noOuter] at sameShape
      exact nonempty (List.map_eq_nil_iff.mp sameShape.symm)

end Padded

end Frame

namespace Store

variable {Body : Type}

/-- An assignment in terms of the current frame and the globals. -/
theorem assign?_of_active
    {store : Store Body} {current : Frame} {callers : List Frame}
    (active : store.stack.frames = current :: callers)
    (name : String) (value : Option Word) :
    store.assign? name value =
      match current.assign? name value with
      | some frame => some (store.withFrames (frame :: callers))
      | none => (store.globals.assign? name value).map fun globals => { store with globals } := by
  unfold assign? CallStack.assign?
  rw [CallStack.current?_of_frames active, Option.bind_some]
  cases current.assign? name value with
  | none => rfl
  | some frame =>
      simp only [Option.map_some, CallStack.withCurrent_eq active]
      rfl

/-- The other store has an empty scope more in its current frame, the callers of which are given. -/
inductive Padded (base : Frame) (callers : List Frame) (store : Store Body) : Store Body → Prop where
  | intro
      {current current' : Frame}
      (active : store.stack.frames = current :: callers)
      (frame : Frame.Padded base current current') :
      Padded base callers store (store.withFrames (current' :: callers))

variable {base : Frame} {callers : List Frame} {store next other : Store Body}
  {operation : Operation Body}

/--
A request to which the empty scope is nothing, given the number of scopes in the
current frame: there is a scope inside of it, or the request leaves the innermost
scope alone.
-/
def Spared (base : Frame) (depth : Nat) (operation : Operation Body) : Prop :=
  base.scopeDepth < depth ∨ operation ≠ .popScope ∧ ∀ name, operation.declaredKind? name = none

namespace Padded

theorem find?_eq (padded : Padded base callers store other) (name : String) :
    other.find? name = store.find? name := by
  cases padded with
  | intro active frame =>
      unfold Store.find? CallStack.find?
      rw [CallStack.current?_of_frames active, CallStack.current?_of_frames rfl,
        Option.bind_some, Option.bind_some, frame.find?_eq]
      rfl

theorem assign?
    (padded : Padded base callers store other)
    {name : String} {value : Option Word}
    (assigned : store.assign? name value = some next) :
    ∃ next', other.assign? name value = some next' ∧ Padded base callers next next' := by
  cases padded with
  | @intro current current' active frame =>
      have activeToo : (store.withFrames (current' :: callers)).stack.frames =
          current' :: callers :=
        rfl
      rw [assign?_of_active active] at assigned
      rw [assign?_of_active activeToo]
      rcases frame.assign? name value with ⟨unbound, unboundToo⟩ | found
      · rw [unbound] at assigned
        obtain ⟨globals, inGlobals, rfl⟩ := Option.map_eq_some_iff.mp assigned
        rw [unboundToo]
        refine ⟨{ store.withFrames (current' :: callers) with globals }, ?_, .intro active frame⟩
        exact Option.map_eq_some_iff.mpr ⟨globals, inGlobals, rfl⟩
      · obtain ⟨frameAssigned, frameAssigned', inFrame, inFrameToo, framePadded⟩ := found
        rw [inFrame] at assigned
        cases assigned
        rw [inFrameToo]
        exact ⟨_, rfl, .intro rfl framePadded⟩

theorem recount (padded : Padded base callers store other) :
    Padded base callers store.recount other.recount := by
  cases padded with
  | @intro current current' active frame =>
      have recounted :
          (store.withFrames (current' :: callers)).recount =
            store.recount.withFrames (current' :: callers) :=
        recount_withStack store (CallStack.ofFrames (current' :: callers))
      rw [recounted]
      rw [← (sameStorage_recount store).stack] at active
      exact .intro active frame

theorem endScopes (padded : Padded base callers store other) (scopes : List Scope) :
    Padded base callers (store.endScopes scopes) (other.endScopes scopes) := by
  cases padded with
  | intro active frame =>
      rw [endScopes_withFrames]
      rw [← (sameStorage_endScopes store scopes).stack] at active
      exact .intro active frame

end Padded

/--
A request that pushes and pops no frame, and to which the empty scope is nothing,
is granted with it as without it, and leaves it in its place.
-/
theorem Granted.padded
    {reply : Reply Body} {current : Frame}
    (granted : Granted store operation reply next)
    (padded : Padded base callers store other)
    (active : store.stack.frames = current :: callers)
    (nonempty : base.scopes ≠ [])
    (stays : operation.depthChange = 0)
    (spared : Spared base current.scopeDepth operation) :
    ∃ next', Granted other operation reply next' ∧ Padded base callers next next' := by
  have found {name : String} {cell : Cell} (isFound : store.find? name = some cell) :
      other.find? name = some cell :=
    (padded.find?_eq name).trans isFound
  cases padded with
  | @intro _ current' active' frame =>
  rw [active] at active'
  cases active'
  have unchanged : Padded base callers store (store.withFrames (current' :: callers)) :=
    .intro active frame
  cases granted with
  | @declareLocal name kind _ _ activeToo =>
      rw [active] at activeToo
      cases activeToo
      rcases spared with inside | ⟨_, declaresNothing⟩
      · exact ⟨_, .declareLocal rfl, .intro rfl (frame.declare inside _ _)⟩
      · have declared := declaresNothing name
        simp [Operation.declaredKind?] at declared
  | declareGlobal outside =>
      rw [active] at outside
      contradiction
  | resolve isFound => exact ⟨_, .resolve (found isFound), unchanged⟩
  | kindOf isFound => exact ⟨_, .kindOf (found isFound), unchanged⟩
  | readScalar isFound isInt => exact ⟨_, .readScalar (found isFound) isInt, unchanged⟩
  | readSlot isFound isRef filled => exact ⟨_, .readSlot (found isFound) isRef filled, unchanged⟩
  | writeScalar isFound isInt assigned =>
      obtain ⟨next', assignedToo, after⟩ := unchanged.assign? assigned
      exact ⟨next', .writeScalar (found isFound) isInt assignedToo, after⟩
  | writeSlot isFound isRef designated written =>
      exact ⟨_, .writeSlot (found isFound) isRef designated written, .intro active frame⟩
  | @allocate _ _ _ bound isFound isRef fits assigned =>
      obtain ⟨bound', assignedToo, after⟩ := unchanged.assign? assigned
      have allocated := Granted.allocate (found isFound) isRef fits assignedToo
      cases after with
      | @intro _ frame' activeAfter frameAfter =>
          have appended :
              Padded base callers bound.appendSlot.2
                (bound.withFrames (frame' :: callers)).appendSlot.2 :=
            .intro activeAfter frameAfter
          exact ⟨_, allocated, appended.recount⟩
  | copy isFound assigned =>
      obtain ⟨next', assignedToo, after⟩ := unchanged.assign? assigned
      exact ⟨next', .copy (found isFound) assignedToo, after⟩
  | nextData available => exact ⟨_, .nextData available, .intro active frame⟩
  | pushScope activeToo =>
      rw [active] at activeToo
      cases activeToo
      exact ⟨_, .pushScope rfl, .intro rfl frame.pushScope⟩
  | @popScope _ _ _ scope activeToo popped =>
      rw [active] at activeToo
      cases activeToo
      rcases spared with inside | ⟨notPop, _⟩
      · obtain ⟨_, rest, rest', isPopped, poppedToo, after⟩ := frame.popScope? nonempty inside
        rw [popped] at isPopped
        cases isPopped
        exact ⟨_, .popScope rfl poppedToo, Padded.endScopes (.intro rfl after) [scope]⟩
      · exact absurd rfl notPop
  | pushFrame | pushCallFrame | popFrame => simp [Operation.depthChange] at stays
  | register => exact ⟨_, .register, .intro active frame⟩
  | formalsOf defined => exact ⟨_, .formalsOf defined, unchanged⟩
  | bodyOf defined => exact ⟨_, .bodyOf defined, unchanged⟩
  | recount =>
      exact ⟨_, .recount, unchanged.recount⟩

/-- Such a request is refused with the empty scope for the reason for which it is without it. -/
theorem Refused.padded
    {fault : Fault} {current : Frame}
    (refused : Refused store operation fault)
    (padded : Padded base callers store other)
    (active : store.stack.frames = current :: callers)
    (nonempty : base.scopes ≠ [])
    (stays : operation.depthChange = 0)
    (spared : Spared base current.scopeDepth operation) :
    Refused other operation fault := by
  have missingToo {name : String} (missing : store.find? name = none) : other.find? name = none :=
    (padded.find?_eq name).trans missing
  have foundToo {name : String} {cell : Cell} (found : store.find? name = some cell) :
      other.find? name = some cell :=
    (padded.find?_eq name).trans found
  cases padded with
  | @intro _ current' active' frame =>
  rw [active] at active'
  cases active'
  cases refused with
  | undefinedName needs missing => exact .undefinedName needs (missingToo missing)
  | undefinedTarget found missing => exact .undefinedTarget (foundToo found) (missingToo missing)
  | invalidRead found isRef unfilled => exact .invalidRead (foundToo found) isRef unfilled
  | invalidWrite found isRef noSlot => exact .invalidWrite (foundToo found) isRef noSlot
  | notARef found notRef => exact .notARef (foundToo found) notRef
  | heapExhausted found isRef tooLarge => exact .heapExhausted (foundToo found) isRef tooLarge
  | dataExhausted atEnd => exact .dataExhausted atEnd
  | noFrame needs outside =>
      rw [active] at outside
      contradiction
  | scopeUnderflow activeToo atBase =>
      rw [active] at activeToo
      cases activeToo
      rcases spared with inside | ⟨notPop, _⟩
      · obtain ⟨_, _, _, popped, _⟩ := frame.popScope? nonempty inside
        rw [popped] at atBase
        contradiction
      · exact absurd rfl notPop
  | callDepth pushes full =>
      cases operation with
      | pushFrame | pushCallFrame => simp [Operation.depthChange] at stays
      | _ => contradiction
  | argumentCount | unboundActual => simp [Operation.depthChange] at stays
  | undefinedFunction needs missing => exact .undefinedFunction needs missing

end Store

end RefScript
