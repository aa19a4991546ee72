import RefScript.Store.Variables

namespace RefScript

/-!
# Scopes and frames of the store

Leaving a scope or a frame clears the flags of the references bound there, and
then recounts once. A call is checked before anything changes: first the number
of arguments, then the depth of the stack, then every argument from the left.
-/

namespace Store

variable {Body : Type}

/-- The name of a frame that belongs to no function. -/
def blockFrameName : String :=
  "<block>"

/-- Open a scope in the current frame. -/
def pushScope : Action Body Unit := fun store =>
  match store.stack.current? with
  | none => .error (.noFrame .pushScope) store
  | some frame => .ok () { store with stack := store.stack.withCurrent frame.pushScope }

/-- Close the innermost scope of the current frame. -/
def popScope : Action Body Unit := fun store =>
  match store.stack.current? with
  | none => .error (.noFrame .popScope) store
  | some frame =>
      match frame.popScope? with
      | none => .error (.scopeUnderflow frame.function) store
      | some (scope, outer) =>
          let popped := { store with stack := store.stack.withCurrent outer }
          .ok () (popped.release scope).recount

/-- Refuse when no further frame may become active. -/
def checkCallDepth : Action Body Unit := fun store =>
  if store.settings.maxCallDepth ≤ store.callDepth then
    .error (.callDepth store.settings.maxCallDepth) store
  else
    .ok () store

/-- Activate a frame. -/
def activate (frame : Frame) : Action Body Unit := fun store =>
  .ok () { store with stack := store.stack.push frame }

/-- Push a frame that belongs to no function, with one empty scope. -/
def pushFrame : Action Body Unit := do
  checkCallDepth
  activate (Frame.withEmptyScope blockFrameName)

/--
Bind formal parameters to references that carry the raw values of the actual
ones; of two formals of one name, the later counts.
-/
def bindActuals (store : Store Body) :
    List String → List String → Scope → Except Fault Scope
  | formal :: formals, actual :: actuals, parameters =>
      match store.find? actual with
      | none => .error (.undefinedName actual)
      | some cell =>
          bindActuals store formals actuals
            (parameters.bind formal (Cell.rawRef cell.value))
  | _, _, parameters => .ok parameters

/-- The scope of the parameters of a call. -/
def parameters (formals actuals : List String) : Action Body Scope := fun store =>
  match store.bindActuals formals actuals Scope.empty with
  | .ok scope => .ok scope store
  | .error fault => .error fault store

/-- Refuse a call with a wrong number of arguments. -/
def checkArguments (function : String) (formals actuals : List String) :
    Action Body Unit := fun store =>
  if formals.length = actuals.length then
    .ok () store
  else
    .error (.argumentCount function formals.length actuals.length) store

/--
Push the frame of a call. Its base scope holds the parameters; the body gets a
scope of its own above it, so that a local never replaces a parameter.
-/
def pushCallFrame (function : String) (formals actuals : List String) :
    Action Body Unit := do
  checkArguments function formals actuals
  checkCallDepth
  let scope ← parameters formals actuals
  activate (Frame.withScope function scope).pushScope

/-- Remove the current frame with all its scopes; the base scope is released first. -/
def popFrame : Action Body Unit := fun store =>
  match store.stack.pop? with
  | none => .error (.noFrame .popFrame) store
  | some (frame, stack) =>
      .ok () (frame.scopes.reverse.foldl release { store with stack }).recount

/-- The arguments of a call are bound unless one designates no variable; the first counts. -/
theorem bindActuals_eq_error_iff
    {store : Store Body} {formals actuals : List String} {parameters : Scope} {fault : Fault}
    (sameLength : formals.length = actuals.length) :
    store.bindActuals formals actuals parameters = .error fault ↔
      ∃ actual,
        actuals.find? (fun actual => (store.find? actual).isNone) = some actual ∧
          fault = .undefinedName actual := by
  induction actuals generalizing formals parameters with
  | nil =>
      cases List.eq_nil_of_length_eq_zero sameLength
      simp [bindActuals]
  | cons actual later inductionHypothesis =>
      obtain ⟨formal, formals, rfl⟩ := List.exists_cons_of_length_eq_add_one sameLength
      unfold bindActuals
      cases found : store.find? actual with
      | none =>
          simp [found, eq_comm]
      | some cell =>
          dsimp only
          rw [inductionHypothesis (Nat.succ.inj sameLength)]
          simp [found]

end Store

end RefScript
