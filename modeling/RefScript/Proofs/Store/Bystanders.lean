import RefScript.Machine
import RefScript.Proofs.Script.Renaming
import RefScript.Proofs.Store.Frames
import RefScript.Proofs.Store.Lifetime

namespace RefScript

/-!
# Variables that a request does not use

A request leaves the cells of every name that it does not use, in the globals and
in all frames: it can at most open a scope or push a frame in which the name is
not bound, or remove the innermost scope or the current frame with its cells.
-/

/-- The names of the variables in a function: its parameters and those in its body. -/
def FunctionDef.variables (definition : FunctionDef (List Command)) : List String :=
  definition.formals ++ variablesIn definition.body

/-- The names of the variables that a request uses. -/
def Operation.variables : Operation (List Command) → List String
  | .declare name _ | .resolve name | .kindOf name | .read name | .write name _
  | .allocate name => [name]
  | .copy target source => [target, source]
  | .pushCallFrame _ formals actuals => formals ++ actuals
  | .register _ formals body => formals ++ variablesIn body
  | _ => []

/-! ## The cells of a name -/

/-- The cells of a name in the scopes of a frame, innermost first. -/
def Frame.cellsOf (name : String) (frame : Frame) : List (Option Cell) :=
  frame.scopes.map fun scope => scope.find? name

namespace Frame

variable {name other : String}

/-- A declaration leaves the cells of other names, if the frame has a scope. -/
theorem cellsOf_declare
    {frame : Frame}
    (distinct : other ≠ name)
    (nonempty : frame.scopes ≠ [])
    (kind : CellKind) :
    (frame.declare other kind).cellsOf name = frame.cellsOf name := by
  obtain ⟨function, scopes⟩ := frame
  cases scopes with
  | nil =>
      exact (nonempty rfl).elim
  | cons innermost outer =>
      simp [cellsOf, declare, Scope.declare, Scope.find?_bind, distinct]

/-- An assignment leaves the cells of other names. -/
theorem cellsOf_assign?
    {frame assigned : Frame} {value : Option Word}
    (distinct : other ≠ name)
    (done : frame.assign? other value = some assigned) :
    assigned.cellsOf name = frame.cellsOf name := by
  obtain ⟨scopes, inScopes, rfl⟩ := Option.map_eq_some_iff.mp done
  obtain ⟨inner, scope, outer, cell, shape, _, _, rfl⟩ := assignIn?_eq_some inScopes
  simp [cellsOf, shape, Scope.find?_bind, distinct]

end Frame

namespace Store

section Cells

variable {Body : Type} {store next : Store Body} {name other : String}

/-- The cells of a name in the active frames, the current one first. -/
def cellsOf (name : String) (store : Store Body) : List (List (Option Cell)) :=
  store.stack.frames.map (Frame.cellsOf name)

theorem cellsOf_eq_of_stack
    (sameStack : next.stack = store.stack) :
    next.cellsOf name = store.cellsOf name := by
  rw [cellsOf, sameStack, cellsOf]

theorem cellsOf_of_active
    {frame : Frame} {callers : List Frame}
    (active : store.stack.frames = frame :: callers) :
    store.cellsOf name = frame.cellsOf name :: callers.map (Frame.cellsOf name) := by
  rw [cellsOf, active, List.map_cons]

/-- Two stores with the same cells of a name. -/
structure SameCells (name : String) (before after : Store Body) : Prop where
  globals : after.globals.find? name = before.globals.find? name
  frames : after.cellsOf name = before.cellsOf name

theorem SameCells.trans
    {before between after : Store Body}
    (first : SameCells name before between)
    (second : SameCells name between after) :
    SameCells name before after where
  globals := second.globals.trans first.globals
  frames := second.frames.trans first.frames

/-- An assignment leaves the cells of other names. -/
theorem sameCells_of_assign?
    {value : Option Word}
    (distinct : other ≠ name)
    (assigned : store.assign? other value = some next) :
    SameCells name store next := by
  rcases assign?_eq_some assigned with inFrame | inGlobals
  · obtain ⟨current, callers, frame, active, frameAssigned, rfl⟩ := inFrame
    refine ⟨rfl, ?_⟩
    rw [cellsOf_of_active active, cellsOf_of_active rfl,
      Frame.cellsOf_assign? distinct frameAssigned]
  · obtain ⟨_, globals, globalsAssigned, rfl⟩ := inGlobals
    refine ⟨?_, rfl⟩
    unfold Scope.assign? at globalsAssigned
    cases found : store.globals.find? other with
    | none =>
        simp [found] at globalsAssigned
    | some cell =>
        simp only [found, Option.some.injEq] at globalsAssigned
        subst globalsAssigned
        simp [Scope.find?_bind, distinct]

/-- The parameters of a call bind no names but the formal ones. -/
theorem find?_of_bindActuals
    {formals actuals : List String} {parameters bound : Scope}
    (done : store.bindActuals formals actuals parameters = .ok bound)
    (notFormal : name ∉ formals) :
    bound.find? name = parameters.find? name := by
  induction formals generalizing actuals parameters with
  | nil =>
      cases done
      rfl
  | cons formal formals inductionHypothesis =>
      have distinct := List.ne_of_not_mem_cons notFormal
      have notLater := List.not_mem_of_not_mem_cons notFormal
      cases actuals with
      | nil =>
          cases done
          rfl
      | cons actual actuals =>
          unfold bindActuals at done
          cases found : store.find? actual with
          | none =>
              simp [found] at done
          | some cell =>
              simp only [found] at done
              rw [inductionHypothesis done notLater, Scope.find?_bind, if_neg distinct.symm]

end Cells

/-! ## Requests that do not use a name -/

/--
The cells of a name after a request that does not use it, given those before. The
list of a frame is longer by a scope that does not bind the name where the request
opens one, and shorter by the innermost where it closes one.
-/
def cellsAfter :
    Operation (List Command) → List (List (Option Cell)) → List (List (Option Cell))
  | .pushScope, current :: callers => (none :: current) :: callers
  | .popScope, current :: callers => current.tail :: callers
  | .pushFrame, callers => [none] :: callers
  | .pushCallFrame .., callers => [none, none] :: callers
  | .popFrame, _ :: callers => callers
  | _, cells => cells

/-- A request that moves no scope leaves the cells. -/
theorem cellsAfter_of_stays
    {operation : Operation (List Command)}
    (stays : operation.movesScopes = false)
    (cells : List (List (Option Cell))) :
    cellsAfter operation cells = cells := by
  cases operation with
  | pushScope | popScope | pushFrame | pushCallFrame | popFrame => contradiction
  | _ => cases cells <;> rfl

/-- The cells of a name in the scopes that a request ends, given those before. -/
def cellsEnded :
    Operation (List Command) → List (List (Option Cell)) → List (Option Cell)
  | .popScope, current :: _ => current.take 1
  | .popFrame, current :: _ => current
  | _, _ => []

theorem map_find?_endedBy
    (store : Store (List Command)) (operation : Operation (List Command)) (name : String) :
    (store.endedBy operation).map (fun scope => scope.find? name) =
      cellsEnded operation (store.cellsOf name) := by
  cases operation with
  | popScope | popFrame =>
      unfold endedBy currentScopes cellsOf CallStack.current? cellsEnded
      cases store.stack.frames <;> simp [Frame.cellsOf]
  | _ =>
      rfl

variable {store next : Store (List Command)} {operation : Operation (List Command)}
  {reply : Reply (List Command)} {name : String}

/-- A request that does not use a name leaves its global. -/
theorem Granted.global_unused
    (granted : Granted store operation reply next)
    (unused : name ∉ operation.variables) :
    next.globals.find? name = store.globals.find? name := by
  cases granted with
  | declareGlobal outside =>
      have distinct := (List.ne_of_not_mem_cons unused).symm
      rw [Scope.declare, Scope.find?_bind, if_neg distinct]
  | writeScalar found isInt assigned =>
      have distinct := (List.ne_of_not_mem_cons unused).symm
      exact (sameCells_of_assign? distinct assigned).globals
  | copy found assigned =>
      have distinct := (List.ne_of_not_mem_cons unused).symm
      exact (sameCells_of_assign? distinct assigned).globals
  | @allocate _ _ _ bound found isRef fits assigned =>
      have distinct := (List.ne_of_not_mem_cons unused).symm
      rw [(sameStorage_recount bound.appendSlot.2).globals]
      exact (sameCells_of_assign? distinct assigned).globals
  | popScope | popFrame =>
      rw [(sameStorage_endScopes _ _).globals]
      rfl
  | recount =>
      rw [(sameStorage_recount store).globals]
  | _ =>
      rfl

/-- A request that does not use a name leaves its cells where no scope is closed. -/
theorem Granted.cellsOf_unused
    (granted : Granted store operation reply next)
    (unused : name ∉ operation.variables)
    (framesScoped : ∀ frame ∈ store.stack.frames, frame.scopes ≠ []) :
    next.cellsOf name = cellsAfter operation (store.cellsOf name) := by
  cases granted with
  | declareLocal active =>
      have distinct := (List.ne_of_not_mem_cons unused).symm
      have nonempty := framesScoped _ (active ▸ List.mem_cons_self)
      rw [cellsOf_of_active rfl, Frame.cellsOf_declare distinct nonempty,
        ← cellsOf_of_active active, cellsAfter_of_stays rfl]
  | writeScalar found isInt assigned =>
      have distinct := (List.ne_of_not_mem_cons unused).symm
      rw [cellsAfter_of_stays rfl]
      exact (sameCells_of_assign? distinct assigned).frames
  | copy found assigned =>
      have distinct := (List.ne_of_not_mem_cons unused).symm
      rw [cellsAfter_of_stays rfl]
      exact (sameCells_of_assign? distinct assigned).frames
  | @allocate _ _ _ bound found isRef fits assigned =>
      have distinct := (List.ne_of_not_mem_cons unused).symm
      rw [cellsAfter_of_stays rfl,
        cellsOf_eq_of_stack (sameStorage_recount bound.appendSlot.2).stack]
      exact (sameCells_of_assign? distinct assigned).frames
  | pushScope active =>
      rw [cellsOf_of_active active, cellsOf_of_active rfl]
      simp [cellsAfter, Frame.cellsOf, Frame.pushScope]
  | popScope active popped =>
      obtain ⟨rfl, -⟩ := Frame.popScope?_eq_some_iff.mp popped
      rw [cellsOf_eq_of_stack (sameStorage_endScopes _ _).stack, cellsOf_of_active active]
      rfl
  | pushFrame room =>
      rw [cellsOf_of_active rfl]
      simp [cellsAfter, cellsOf, Frame.cellsOf, Frame.withEmptyScope, Frame.withScope]
  | pushCallFrame sameLength room bound =>
      have notFormal := fun member => unused (List.mem_append_left _ member)
      have unbound := find?_of_bindActuals bound notFormal
      rw [cellsOf_of_active rfl]
      simp [cellsAfter, cellsOf, Frame.cellsOf, Frame.withScope, Frame.pushScope, unbound]
  | popFrame active =>
      rw [cellsOf_eq_of_stack (sameStorage_endScopes _ _).stack, cellsOf_of_active active]
      rfl
  | recount =>
      rw [cellsAfter_of_stays rfl, cellsOf_eq_of_stack (sameStorage_recount store).stack]
  | _ =>
      exact (cellsAfter_of_stays rfl (store.cellsOf name)).symm

/-! ## Names apart from a store -/

/-- No function of the store mentions the name, and every frame has a scope. -/
structure Apart (name : String) (store : Store (List Command)) : Prop where
  unmentioned :
    ∀ function definition,
      store.functions.find? function = some definition → name ∉ definition.variables
  framesScoped : ∀ frame ∈ store.stack.frames, frame.scopes ≠ []

/-- A function that a request registers mentions only names that the request uses. -/
private theorem Granted.unmentioned
    (granted : Granted store operation reply next)
    (unused : name ∉ operation.variables)
    (unmentioned :
      ∀ function definition,
        store.functions.find? function = some definition → name ∉ definition.variables)
    (function : String)
    (definition : FunctionDef (List Command))
    (found : next.functions.find? function = some definition) :
    name ∉ definition.variables := by
  cases granted with
  | writeScalar _ _ assigned | copy _ assigned =>
      obtain ⟨stack, globals, rfl⟩ := assign?_others assigned
      exact unmentioned function definition found
  | @allocate _ _ _ bound _ _ _ assigned =>
      rw [(sameStorage_recount bound.appendSlot.2).functions] at found
      obtain ⟨stack, globals, rfl⟩ := assign?_others assigned
      exact unmentioned function definition found
  | popScope | popFrame =>
      rw [(sameStorage_endScopes _ _).functions] at found
      exact unmentioned function definition found
  | recount =>
      rw [(sameStorage_recount store).functions] at found
      exact unmentioned function definition found
  | @register registered formals body =>
      rw [FunctionTable.find?_register] at found
      by_cases sameName : registered = function
      · rw [if_pos sameName] at found
        cases found
        exact unused
      · rw [if_neg sameName] at found
        exact unmentioned function definition found
  | _ =>
      exact unmentioned function definition found

/-- No request leaves a frame without a scope. -/
theorem Granted.framesScoped
    (granted : Granted store operation reply next)
    (framesScoped : ∀ frame ∈ store.stack.frames, frame.scopes ≠ []) :
    ∀ frame ∈ next.stack.frames, frame.scopes ≠ [] := by
  have replaced {current frame : Frame} {callers : List Frame}
      (active : store.stack.frames = current :: callers) (nonempty : frame.scopes ≠ []) :
      ∀ other ∈ (store.withFrames (frame :: callers)).stack.frames, other.scopes ≠ [] := by
    rw [active] at framesScoped
    exact List.forall_mem_cons.mpr ⟨nonempty, (List.forall_mem_cons.mp framesScoped).2⟩
  have assignedTo {name : String} {value : Option Word} {assigned : Store (List Command)}
      (isAssigned : store.assign? name value = some assigned) :
      ∀ frame ∈ assigned.stack.frames, frame.scopes ≠ [] := by
    rcases assign?_eq_some isAssigned with inFrame | inGlobals
    · obtain ⟨_, _, _, active, frameAssigned, rfl⟩ := inFrame
      exact replaced active (Frame.redeclared_of_assign? frameAssigned).scopes_ne_nil
    · obtain ⟨_, _, _, rfl⟩ := inGlobals
      exact framesScoped
  cases granted with
  | declareLocal active =>
      have nonempty := framesScoped _ (active ▸ List.mem_cons_self)
      exact replaced active (Frame.redeclared_declare nonempty _ _).scopes_ne_nil
  | writeScalar _ _ assigned | copy _ assigned =>
      exact assignedTo assigned
  | @allocate _ _ _ bound _ _ _ assigned =>
      have kept := assignedTo assigned
      rw [(sameStorage_recount bound.appendSlot.2).stack]
      exact kept
  | pushScope active =>
      exact replaced active (Frame.scopes_pushScope_ne_nil _)
  | popScope active popped =>
      rw [(sameStorage_endScopes _ _).stack]
      exact replaced active (Frame.popScope?_eq_some_iff.mp popped).2
  | pushFrame =>
      exact List.forall_mem_cons.mpr ⟨List.cons_ne_nil _ _, framesScoped⟩
  | pushCallFrame =>
      exact List.forall_mem_cons.mpr ⟨List.cons_ne_nil _ _, framesScoped⟩
  | popFrame active =>
      rw [(sameStorage_endScopes _ _).stack]
      rw [active] at framesScoped
      exact (List.forall_mem_cons.mp framesScoped).2
  | recount =>
      rw [(sameStorage_recount store).stack]
      exact framesScoped
  | _ =>
      exact framesScoped

/-- A request that does not use the name keeps it apart from the store. -/
theorem Granted.apart
    (granted : Granted store operation reply next)
    (unused : name ∉ operation.variables)
    (apart : Apart name store) :
    Apart name next where
  unmentioned := granted.unmentioned unused apart.unmentioned
  framesScoped := granted.framesScoped apart.framesScoped

end Store

end RefScript
