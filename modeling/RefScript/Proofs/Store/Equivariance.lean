import Mathlib.Data.List.Find
import RefScript.Proofs.Store.Bystanders
import RefScript.Proofs.Store.Renaming
import RefScript.Proofs.Store.TeardownOrder

namespace RefScript

/-!
# Requests under other names

A request under the new names is granted by the store under the new names exactly
as the request is by the store, to the same effect and with the same answer, and
it is refused for the same fault. All variables that the request uses have to be
shown for that, and so have all those that go out of scope: if a hidden variable
did, the references that it holds would be released on one side only.
-/

/-! ## Requests, answers and faults -/

/-- The fault under the new names. -/
def Fault.rename (naming : Naming) : Fault → Fault
  | .undefinedName name => .undefinedName (naming.name name)
  | .invalidRead name => .invalidRead (naming.name name)
  | .invalidWrite name => .invalidWrite (naming.name name)
  | .notARef name => .notARef (naming.name name)
  | .undefinedFunction name => .undefinedFunction (naming.function name)
  | .scopeUnderflow function => .scopeUnderflow (naming.function function)
  | .argumentCount function expected got =>
      .argumentCount (naming.function function) expected got
  | .dataExhausted => .dataExhausted
  | .noFrame action => .noFrame action
  | .heapExhausted => .heapExhausted
  | .callDepth limit => .callDepth limit

/-- The request under the new names. -/
def Operation.rename (naming : Naming) : Operation (List Command) → Operation (List Command)
  | .declare name kind => .declare (naming.name name) kind
  | .resolve name => .resolve (naming.name name)
  | .kindOf name => .kindOf (naming.name name)
  | .read name => .read (naming.name name)
  | .write name value => .write (naming.name name) value
  | .allocate name => .allocate (naming.name name)
  | .copy target source => .copy (naming.name target) (naming.name source)
  | .nextData => .nextData
  | .pushScope => .pushScope
  | .popScope => .popScope
  | .pushFrame => .pushFrame
  | .pushCallFrame function formals actuals =>
      .pushCallFrame (naming.function function) (formals.map naming.name)
        (actuals.map naming.name)
  | .popFrame => .popFrame
  | .register name formals body =>
      .register (naming.function name) (formals.map naming.name) (naming.commands body)
  | .formalsOf name => .formalsOf (naming.function name)
  | .bodyOf name => .bodyOf (naming.function name)
  | .recount => .recount

theorem Fault.rename_eq_self
    {naming : Naming} (keepsNames : naming.name = id) (keepsFunctions : naming.function = id)
    (fault : Fault) :
    fault.rename naming = fault := by
  cases fault <;> simp [Fault.rename, keepsNames, keepsFunctions]

theorem Operation.rename_showing
    {shown : String → Bool} (operation : Operation (List Command)) :
    operation.rename (.showing shown) = operation := by
  cases operation <;> simp [Operation.rename]

/-- The answer under the new names. -/
def Reply.rename (naming : Naming) : Reply (List Command) → Reply (List Command)
  | .names formals => .names (formals.map naming.name)
  | .body commands => .body (naming.commands commands)
  | reply => reply

namespace Store

variable {naming : Naming} {store next other : Store (List Command)} {strays : Array StrayRef}
  {name : String} {ordered : Prop}

/-- The store under the new names. -/
def rename (naming : Naming) (store : Store (List Command)) : Store (List Command) :=
  { store with
    globals := store.globals.rename naming
    stack := store.stack.rename naming
    functions := store.functions.rename naming }

/-- The store under the new names, with its stray references in another order. -/
def renameWith (naming : Naming) (strays : Array StrayRef) (store : Store (List Command)) :
    Store (List Command) :=
  { store.rename naming with strays }

@[simp] theorem frames_renameWith (store : Store (List Command)) :
    (store.renameWith naming strays).stack.frames = store.stack.frames.map (.rename naming) :=
  rfl

theorem withFrames_renameWith (store : Store (List Command)) (frames : List Frame) :
    (store.renameWith naming strays).withFrames (frames.map (.rename naming)) =
      (store.withFrames frames).renameWith naming strays := by
  unfold withFrames renameWith rename
  rw [CallStack.rename_ofFrames]

theorem find?_renameWith (shows : naming.Shows name) :
    (store.renameWith naming strays).find? (naming.name name) = store.find? name := by
  unfold find?
  exact congrArg₂ Option.or (store.stack.find?_rename shows) (store.globals.find?_rename shows)

theorem assign?_renameWith (shows : naming.Shows name) (value : Option Word) :
    (store.renameWith naming strays).assign? (naming.name name) value =
      (store.assign? name value).map (renameWith naming strays) := by
  unfold assign? renameWith rename
  simp only [store.stack.assign?_rename shows, store.globals.assign?_rename shows]
  cases store.stack.assign? name value with
  | some stack => rfl
  | none => cases store.globals.assign? name value <;> rfl

/-- The arguments of a call are bound to the parameters of the new names. -/
theorem bindActuals_renameWith
    {formals actuals : List String}
    (formalsShown : ∀ formal ∈ formals, naming.Shows formal)
    (actualsShown : ∀ actual ∈ actuals, naming.Shows actual)
    {parameters scope : Scope}
    (bound : store.bindActuals formals actuals parameters = .ok scope) :
    (store.renameWith naming strays).bindActuals (formals.map naming.name)
        (actuals.map naming.name) (parameters.rename naming) =
      .ok (scope.rename naming) := by
  induction formals generalizing actuals parameters with
  | nil =>
      cases bound
      rfl
  | cons formal formals inductionHypothesis =>
      cases actuals with
      | nil =>
          cases bound
          rfl
      | cons actual actuals =>
          obtain ⟨formalShown, formalsShown⟩ := List.forall_mem_cons.mp formalsShown
          obtain ⟨actualShown, actualsShown⟩ := List.forall_mem_cons.mp actualsShown
          rw [List.map_cons, List.map_cons, bindActuals, find?_renameWith actualShown]
          rw [bindActuals] at bound
          cases found : store.find? actual with
          | none =>
              rw [found] at bound
              cases bound
          | some cell =>
              rw [found] at bound
              dsimp only
              rw [← Scope.rename_bind _ formalShown]
              exact inductionHypothesis formalsShown actualsShown bound

/-! ## The end of scopes -/

private theorem detached_rename (naming : Naming) :
    Detached fun store : Store (List Command) => store.rename naming :=
  fun _ _ _ _ _ => rfl

theorem recount_renameWith (store : Store (List Command)) :
    (store.renameWith naming strays).recount = store.recount.renameWith naming strays := by
  rw [renameWith, recount_withStrays, (detached_rename naming).recount store]
  rfl

/--
The other store is the store under the new names. The stray references are the
same ones, in the same order where that is asked for.
-/
inductive Renamed (naming : Naming) (ordered : Prop) (store : Store (List Command)) :
    Store (List Command) → Prop where
  | intro
      {strays : Array StrayRef}
      (reordered : strays.toList.Perm store.strays.toList)
      (inOrder : ordered → strays = store.strays) :
      Renamed naming ordered store (store.renameWith naming strays)

theorem flatMap_boundRefs_rename
    {scopes : List Scope} (onlyShow : ∀ scope ∈ scopes, scope.OnlyShows naming) :
    ((scopes.map (.rename naming)).flatMap Scope.boundRefs).Perm
      (scopes.flatMap Scope.boundRefs) := by
  induction scopes with
  | nil =>
      exact .refl _
  | cons scope outer inductionHypothesis =>
      obtain ⟨here, others⟩ := List.forall_mem_cons.mp onlyShow
      exact (Scope.boundRefs_rename here).append (inductionHypothesis others)

/--
Scopes that bind variables that are shown end alike under the new names. Their
references are released in the same order if variables keep their names.
-/
theorem renamed_endScopes
    (keeps : ordered → naming.KeepsNames)
    {scopes : List Scope} (onlyShow : ∀ scope ∈ scopes, scope.OnlyShows naming)
    (reordered : strays.toList.Perm store.strays.toList)
    (inOrder : ordered → strays = store.strays) :
    Renamed naming ordered (store.endScopes scopes)
      ((store.renameWith naming strays).endScopes (scopes.map (.rename naming))) := by
  have ended := (detached_rename naming).endScopes store scopes
  have same : SameButStrayOrder (store.rename naming) (store.renameWith naming strays) :=
    ⟨reordered, rfl⟩
  have sameRefs :
      ((scopes.map (.rename naming)).reverse.flatMap Scope.boundRefs).Perm
        (scopes.reverse.flatMap Scope.boundRefs) := by
    rw [← List.map_reverse]
    exact flatMap_boundRefs_rename fun scope member => onlyShow scope (List.mem_reverse.mp member)
  have endedToo := same.released sameRefs
  rw [← endScopes_eq_foldl_retire, ← endScopes_eq_foldl_retire, ended] at endedToo
  rw [endedToo.others]
  refine .intro endedToo.strays fun isOrdered => ?_
  -- Where names are kept, the scopes that end are the same ones.
  have sameScopes : scopes.map (.rename naming) = scopes := by
    refine (List.map_congr_left fun scope member => ?_).trans (List.map_id scopes)
    exact Scope.rename_eq_self (keeps isOrdered) (onlyShow scope member)
  have sameStore : store.renameWith naming strays = store.rename naming := by
    rw [inOrder isOrdered]
    rfl
  rw [sameScopes, sameStore, ended]
  rfl

theorem renamed_recount
    (reordered : strays.toList.Perm store.strays.toList)
    (inOrder : ordered → strays = store.strays) :
    Renamed naming ordered store.recount (store.renameWith naming strays).recount := by
  rw [recount_renameWith]
  rw [← strays_recount store] at reordered inOrder
  exact .intro reordered inOrder

/-! ## Requests -/

variable {operation : Operation (List Command)} {reply : Reply (List Command)}

/-- A request that is granted is granted under the new names, to the same effect. -/
theorem Granted.rename
    (granted : Granted store operation reply next)
    (keeps : ordered → naming.KeepsNames)
    (shows : ∀ name ∈ operation.variables, naming.Shows name)
    (ends : ∀ scope ∈ store.endedBy operation, scope.OnlyShows naming)
    (renamed : Renamed naming ordered store other) :
    ∃ next', Granted other (operation.rename naming) (reply.rename naming) next' ∧
      Renamed naming ordered next next' := by
  cases renamed with
  | @intro strays reordered inOrder =>
  have frames {frames : List Frame} (active : store.stack.frames = frames) :
      (store.renameWith naming strays).stack.frames = frames.map (.rename naming) := by
    rw [frames_renameWith, active]
  have found {name : String} {cell : Cell}
      (shows : naming.Shows name) (found : store.find? name = some cell) :
      (store.renameWith naming strays).find? (naming.name name) = some cell := by
    rw [find?_renameWith shows, found]
  have assigned {name : String} {value : Option Word} {assigned : Store (List Command)}
      (shows : naming.Shows name) (isAssigned : store.assign? name value = some assigned) :
      (store.renameWith naming strays).assign? (naming.name name) value =
        some (assigned.renameWith naming strays) := by
    rw [assign?_renameWith shows, isAssigned, Option.map_some]
  have function {name : String} {definition : FunctionDef (List Command)}
      (isFound : store.functions.find? name = some definition) :
      (store.renameWith naming strays).functions.find? (naming.function name) =
        some (definition.rename naming) :=
    (store.functions.find?_rename name).trans (congrArg _ isFound)
  have unchanged : Renamed naming ordered store (store.renameWith naming strays) :=
    .intro reordered inOrder
  have assignedUnchanged {name : String} {value : Option Word} {assigned : Store (List Command)}
      (isAssigned : store.assign? name value = some assigned) :
      Renamed naming ordered assigned (assigned.renameWith naming strays) := by
    obtain ⟨stack, globals, rfl⟩ := assign?_others isAssigned
    exact .intro reordered inOrder
  cases granted with
  | @declareLocal name kind frame callers active =>
      have declared := frame.rename_declare (shows name List.mem_cons_self) kind
      refine ⟨_, .declareLocal (frames active), ?_⟩
      rw [← declared, ← List.map_cons, withFrames_renameWith]
      exact .intro reordered inOrder
  | @declareGlobal name kind outside =>
      have declared := store.globals.rename_declare (shows name List.mem_cons_self) kind
      refine ⟨_, .declareGlobal (frames outside), ?_⟩
      change Renamed naming ordered _ { store.renameWith naming strays with
        globals := (store.globals.rename naming).declare (naming.name name) kind }
      rw [← declared]
      exact .intro reordered inOrder
  | @resolve name cell isFound =>
      exact ⟨_, .resolve (found (shows name List.mem_cons_self) isFound), unchanged⟩
  | @kindOf name cell isFound =>
      exact ⟨_, .kindOf (found (shows name List.mem_cons_self) isFound), unchanged⟩
  | @readScalar name cell isFound isInt =>
      exact ⟨_, .readScalar (found (shows name List.mem_cons_self) isFound) isInt, unchanged⟩
  | @readSlot name cell value isFound isRef filled =>
      exact ⟨_, .readSlot (found (shows name List.mem_cons_self) isFound) isRef filled,
        unchanged⟩
  | @writeScalar name value cell _ isFound isInt isAssigned =>
      have shown := shows name List.mem_cons_self
      exact ⟨_, .writeScalar (found shown isFound) isInt (assigned shown isAssigned),
        assignedUnchanged isAssigned⟩
  | @writeSlot name value cell handle heap isFound isRef designated written =>
      exact ⟨_, .writeSlot (found (shows name List.mem_cons_self) isFound) isRef designated
        written, .intro reordered inOrder⟩
  | @allocate name cell word bound isFound isRef fits isAssigned =>
      have shown := shows name List.mem_cons_self
      have allocated := Granted.allocate (found shown isFound) isRef fits (assigned shown isAssigned)
      refine ⟨_, allocated, ?_⟩
      obtain ⟨stack, globals, rfl⟩ := assign?_others isAssigned
      exact renamed_recount reordered inOrder
  | @copy target source cell _ isFound isAssigned =>
      have targetShown := shows target List.mem_cons_self
      have sourceShown := shows source (List.mem_cons_of_mem _ List.mem_cons_self)
      exact ⟨_, .copy (found sourceShown isFound) (assigned targetShown isAssigned),
        assignedUnchanged isAssigned⟩
  | nextData available =>
      exact ⟨_, .nextData available, .intro reordered inOrder⟩
  | @pushScope frame callers active =>
      refine ⟨_, .pushScope (frames active), ?_⟩
      rw [← frame.rename_pushScope, ← List.map_cons, withFrames_renameWith]
      exact .intro reordered inOrder
  | @popScope frame outer callers scope active popped =>
      have poppedToo :
          (frame.rename naming).popScope? = some (scope.rename naming, outer.rename naming) := by
        rw [frame.popScope?_rename, popped, Option.map_some]
      refine ⟨_, .popScope (frames active) poppedToo, ?_⟩
      obtain ⟨rfl, -⟩ := Frame.popScope?_eq_some_iff.mp popped
      have shown : scope.OnlyShows naming := ends scope (by
        simp [endedBy, currentScopes_of_active active])
      rw [← List.map_cons, withFrames_renameWith]
      exact @renamed_endScopes naming (store.withFrames (outer :: callers)) strays ordered keeps
        [scope] (by simpa using shown) reordered inOrder
  | pushFrame room =>
      have pushed := @withFrames_renameWith naming strays store
        (Frame.withEmptyScope blockFrameName :: store.stack.frames)
      rw [List.map_cons, Frame.rename_withEmptyScope] at pushed
      refine ⟨_, .pushFrame room, ?_⟩
      rw [frames_renameWith, pushed]
      exact .intro reordered inOrder
  | @pushCallFrame function formals actuals scope sameLength room bound =>
      obtain ⟨formalsShown, actualsShown⟩ := List.forall_mem_append.mp shows
      have boundToo :=
        @bindActuals_renameWith naming store strays formals actuals formalsShown actualsShown
          Scope.empty scope bound
      rw [Scope.rename_empty] at boundToo
      refine ⟨_, .pushCallFrame (by simpa using sameLength) room boundToo, ?_⟩
      have pushed :
          (Frame.withScope (naming.function function) (scope.rename naming)).pushScope =
            (Frame.withScope function scope).pushScope.rename naming :=
        ((Frame.withScope function scope).rename_pushScope).symm
      rw [frames_renameWith, pushed, ← List.map_cons, withFrames_renameWith]
      exact .intro reordered inOrder
  | @popFrame frame callers active =>
      refine ⟨_, .popFrame (frames active), ?_⟩
      rw [withFrames_renameWith]
      rw [endedBy, currentScopes_of_active active] at ends
      exact @renamed_endScopes naming (store.withFrames callers) strays ordered keeps frame.scopes
        ends reordered inOrder
  | @register name formals body =>
      refine ⟨_, .register, ?_⟩
      change Renamed naming ordered _ { store.renameWith naming strays with
        functions := (store.functions.rename naming).register (naming.function name)
          (formals.map naming.name) (naming.commands body) }
      rw [← store.functions.rename_register name formals body]
      exact .intro reordered inOrder
  | @formalsOf name definition isFound =>
      have answered := Granted.formalsOf (function isFound)
      exact ⟨_, answered, unchanged⟩
  | @bodyOf name definition isFound =>
      have answered := Granted.bodyOf (function isFound)
      exact ⟨_, answered, unchanged⟩
  | recount =>
      exact ⟨_, .recount, renamed_recount reordered inOrder⟩

/-- A request that is refused is refused under the new names, for the same fault. -/
theorem Refused.rename
    {fault : Fault}
    (refused : Refused store operation fault)
    (shows : ∀ name ∈ operation.variables, naming.Shows name)
    (renamed : Renamed naming ordered store other) :
    Refused other (operation.rename naming) (fault.rename naming) := by
  cases renamed with
  | @intro strays reordered inOrder =>
  have lookup {name : String} {cell? : Option Cell}
      (shows : naming.Shows name) (found : store.find? name = cell?) :
      (store.renameWith naming strays).find? (naming.name name) = cell? := by
    rw [find?_renameWith shows, found]
  have outsideToo (outside : store.stack.frames = []) :
      (store.renameWith naming strays).stack.frames = [] := by
    rw [frames_renameWith, outside, List.map_nil]
  cases refused with
  | @undefinedName _ name needs missing =>
      have missingToo (shown : naming.Shows name) := lookup shown missing
      cases operation with
      | resolve | kindOf | read | write | allocate =>
          cases needs
          exact .undefinedName rfl (missingToo (shows name List.mem_cons_self))
      | copy target source =>
          cases needs
          exact .undefinedName rfl (missingToo (shows name (by simp [Operation.variables])))
      | _ => contradiction
  | @undefinedTarget target source cell found missing =>
      exact .undefinedTarget (lookup (shows source (by simp [Operation.variables])) found)
        (lookup (shows target List.mem_cons_self) missing)
  | @invalidRead name cell found isRef unfilled =>
      exact .invalidRead (lookup (shows name List.mem_cons_self) found) isRef unfilled
  | @invalidWrite name value cell found isRef noSlot =>
      exact .invalidWrite (lookup (shows name List.mem_cons_self) found) isRef noSlot
  | @notARef name cell found notRef =>
      exact .notARef (lookup (shows name List.mem_cons_self) found) notRef
  | @heapExhausted name cell found isRef tooLarge =>
      exact .heapExhausted (lookup (shows name List.mem_cons_self) found) isRef tooLarge
  | dataExhausted atEnd =>
      exact .dataExhausted atEnd
  | @noFrame _ action needs outside =>
      cases operation with
      | pushScope | popScope | popFrame => exact .noFrame needs (outsideToo outside)
      | _ => contradiction
  | @scopeUnderflow frame callers active atBase =>
      have activeToo :
          (store.renameWith naming strays).stack.frames =
            frame.rename naming :: callers.map (.rename naming) := by
        rw [frames_renameWith, active, List.map_cons]
      have atBaseToo : (frame.rename naming).popScope? = none := by
        rw [frame.popScope?_rename, atBase, Option.map_none]
      exact .scopeUnderflow activeToo atBaseToo
  | @argumentCount function formals actuals lengthsDiffer =>
      have refusedToo := @Refused.argumentCount _ (store.renameWith naming strays)
        (naming.function function) (formals.map naming.name) (actuals.map naming.name)
        (by simpa using lengthsDiffer)
      rw [List.length_map, List.length_map] at refusedToo
      exact refusedToo
  | callDepth pushes full =>
      cases operation with
      | pushFrame => exact .callDepth rfl full
      | pushCallFrame function formals actuals =>
          exact .callDepth (by simpa [Operation.rename, Operation.pushesFrame] using pushes) full
      | _ => contradiction
  | @unboundActual function formals actuals actual sameLength room unbound =>
      obtain ⟨-, actualsShown⟩ := List.forall_mem_append.mp shows
      have sameSearch :
          actuals.find? ((fun actual =>
              ((store.renameWith naming strays).find? actual).isNone) ∘ naming.name) =
            actuals.find? fun actual => (store.find? actual).isNone := by
        refine List.find?_congr fun other member => ?_
        rw [Function.comp_apply, find?_renameWith (actualsShown other member)]
      refine .unboundActual (by simpa using sameLength) room ?_
      rw [List.find?_map, sameSearch, unbound, Option.map_some]
  | @undefinedFunction _ name needs missing =>
      have missingToo :
          (store.renameWith naming strays).functions.find? (naming.function name) = none :=
        (store.functions.find?_rename name).trans (congrArg _ missing)
      cases operation with
      | formalsOf | bodyOf =>
          cases needs
          exact .undefinedFunction rfl missingToo
      | _ => contradiction

end Store

end RefScript
