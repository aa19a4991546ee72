import RefScript.Proofs.Store.Frames

namespace RefScript

/-!
# The surroundings of a store

What a store computes is in its variables, its heap, its frames, its functions
and its flags. Around these are the input, the settings, and what has become of
the reports. A request sees of its surroundings only the limit on the frames, and
the next literal if it asks for that; and all that it does to them is to report a
count, at most one, which does not depend on where reports go.
-/

/-- What surrounds the variables, heap, frames, functions and flags of a store. -/
structure Surroundings where
  reporter : Reporter
  console : Array ConsoleLine
  input : InputTape
  settings : Settings

/-- The surroundings after a report, or as they are if there is none. -/
def Surroundings.report (surroundings : Surroundings) : Option Nat → Surroundings
  | none => surroundings
  | some count =>
      { surroundings with
        reporter := surroundings.reporter.notify count
        console := surroundings.console ++ surroundings.reporter.consoleLines count }

namespace Surroundings

@[simp] theorem input_report (surroundings : Surroundings) (report : Option Nat) :
    (surroundings.report report).input = surroundings.input := by
  cases report <;> rfl

@[simp] theorem settings_report (surroundings : Surroundings) (report : Option Nat) :
    (surroundings.report report).settings = surroundings.settings := by
  cases report <;> rfl

end Surroundings

namespace Store

variable {Body : Type}

/-- The surroundings of a store. -/
def surroundings (store : Store Body) : Surroundings :=
  ⟨store.reporter, store.console, store.input, store.settings⟩

/-- The same store in other surroundings. -/
def within (store : Store Body) (surroundings : Surroundings) : Store Body :=
  { store with
    reporter := surroundings.reporter
    console := surroundings.console
    input := surroundings.input
    settings := surroundings.settings }

@[simp] theorem within_surroundings (store : Store Body) : store.within store.surroundings = store :=
  rfl

variable {store next : Store Body} {operation : Operation Body}

/-- Where no more than a report has changed around a store, the input has not. -/
theorem input_eq_of_report
    {report : Option Nat}
    (reported : next.surroundings = store.surroundings.report report) :
    next.input = store.input := by
  have inputs := congrArg Surroundings.input reported
  rw [Surroundings.input_report] at inputs
  exact inputs

/-- A recount reports the same in all surroundings. -/
theorem recount_within (store : Store Body) (surroundings : Surroundings) :
    (store.within surroundings).recount =
      store.recount.within (surroundings.report store.liveness.recount.1) := by
  unfold recount
  have sameLiveness : (store.within surroundings).liveness = store.liveness := rfl
  rw [sameLiveness]
  cases store.liveness.recount with
  | mk report liveness =>
      cases report <;> rfl

theorem surroundings_recount (store : Store Body) :
    store.recount.surroundings = store.surroundings.report store.liveness.recount.1 := by
  have recounted := recount_within store store.surroundings
  rw [within_surroundings] at recounted
  exact congrArg Store.surroundings recounted

private theorem retire_within (store : Store Body) (surroundings : Surroundings) (raw : Word) :
    (store.within surroundings).retire raw = (store.retire raw).within surroundings := by
  unfold retire
  have sameLiveness : (store.within surroundings).liveness = store.liveness := rfl
  rw [sameLiveness]
  cases store.liveness.markDead? raw <;> rfl

private theorem foldl_release_within
    (store : Store Body) (surroundings : Surroundings) (scopes : List Scope) :
    scopes.foldl release (store.within surroundings) =
      (scopes.foldl release store).within surroundings := by
  have released (before : Store Body) (scope : Scope) :
      (before.within surroundings).release scope = (before.release scope).within surroundings :=
    List.foldl_hom (fun store : Store Body => store.within surroundings)
      fun current raw => retire_within current surroundings raw
  exact List.foldl_hom (fun store : Store Body => store.within surroundings) released

/-- So does the end of scopes. -/
theorem exists_report_endScopes (store : Store Body) (scopes : List Scope) :
    ∃ report : Option Nat,
      (store.endScopes scopes).surroundings = store.surroundings.report report ∧
        ∀ surroundings,
          (store.within surroundings).endScopes scopes =
            (store.endScopes scopes).within (surroundings.report report) := by
  refine ⟨(scopes.reverse.foldl release store).liveness.recount.1, ?_, ?_⟩
  · obtain ⟨liveness, strays, released, _⟩ := foldl_release_eq scopes.reverse store
    rw [endScopes, surroundings_recount, released]
    rfl
  · intro surroundings
    rw [endScopes, foldl_release_within, recount_within, endScopes]

theorem assign?_within
    {name : String} {value : Option Word}
    (assigned : store.assign? name value = some next)
    (surroundings : Surroundings) :
    (store.within surroundings).assign? name value = some (next.within surroundings) := by
  unfold assign? at assigned ⊢
  have sameStack : (store.within surroundings).stack = store.stack := rfl
  have sameGlobals : (store.within surroundings).globals = store.globals := rfl
  rw [sameStack, sameGlobals]
  cases inFrame : store.stack.assign? name value with
  | some stack =>
      rw [inFrame] at assigned
      cases assigned
      rfl
  | none =>
      rw [inFrame] at assigned
      obtain ⟨globals, globalsAssigned, rfl⟩ := Option.map_eq_some_iff.mp assigned
      rw [globalsAssigned]
      rfl

theorem surroundings_of_assign?
    {name : String} {value : Option Word}
    (assigned : store.assign? name value = some next) :
    next.surroundings = store.surroundings := by
  obtain ⟨stack, globals, rfl⟩ := assign?_others assigned
  rfl

theorem bindActuals_within
    (surroundings : Surroundings) (formals actuals : List String) (parameters : Scope) :
    (store.within surroundings).bindActuals formals actuals parameters =
      store.bindActuals formals actuals parameters := by
  apply bindActuals_congr
  intro actual _
  rfl

/--
A granted request that asks for no literal has the same effect in all surroundings
with its limit on the frames, and what it does to them is to report the same.
-/
theorem Granted.within
    {reply : Reply Body}
    (granted : Granted store operation reply next)
    (noInput : operation ≠ .nextData) :
    ∃ report : Option Nat,
      next.surroundings = store.surroundings.report report ∧
        ∀ surroundings : Surroundings,
          surroundings.settings.maxCallDepth = store.settings.maxCallDepth →
            Granted (store.within surroundings) operation reply
              (next.within (surroundings.report report)) := by
  cases granted with
  | declareLocal active => exact ⟨none, rfl, fun _ _ => .declareLocal active⟩
  | declareGlobal outside => exact ⟨none, rfl, fun _ _ => .declareGlobal outside⟩
  | resolve found => exact ⟨none, rfl, fun _ _ => .resolve found⟩
  | kindOf found => exact ⟨none, rfl, fun _ _ => .kindOf found⟩
  | readScalar found isInt => exact ⟨none, rfl, fun _ _ => .readScalar found isInt⟩
  | readSlot found isRef filled => exact ⟨none, rfl, fun _ _ => .readSlot found isRef filled⟩
  | writeScalar found isInt assigned =>
      exact ⟨none, surroundings_of_assign? assigned, fun surroundings _ =>
        .writeScalar found isInt (assign?_within assigned surroundings)⟩
  | writeSlot found isRef designated written =>
      exact ⟨none, rfl, fun _ _ => .writeSlot found isRef designated written⟩
  | @allocate _ _ _ bound found isRef fits assigned =>
      refine ⟨bound.appendSlot.2.liveness.recount.1, ?_, fun surroundings _ => ?_⟩
      · rw [surroundings_recount, ← surroundings_of_assign? assigned]
        rfl
      · rw [← recount_within]
        show Granted (store.within surroundings) _ (.handle (bound.within surroundings).heap.size)
          (bound.within surroundings).appendSlot.2.recount
        exact .allocate found isRef fits (assign?_within assigned surroundings)
  | copy found assigned =>
      exact ⟨none, surroundings_of_assign? assigned, fun surroundings _ =>
        .copy found (assign?_within assigned surroundings)⟩
  | nextData => exact absurd rfl noInput
  | pushScope active => exact ⟨none, rfl, fun _ _ => .pushScope active⟩
  | @popScope frame outer callers scope active popped =>
      obtain ⟨report, reported, ends⟩ :=
        exists_report_endScopes (store.withFrames (outer :: callers)) [scope]
      refine ⟨report, reported, fun surroundings _ => ?_⟩
      rw [← ends]
      exact .popScope active popped
  | pushFrame room =>
      refine ⟨none, rfl, fun surroundings sameLimit => ?_⟩
      rw [← sameLimit] at room
      exact .pushFrame room
  | pushCallFrame sameLength room bound =>
      refine ⟨none, rfl, fun surroundings sameLimit => ?_⟩
      rw [← sameLimit] at room
      rw [← bindActuals_within surroundings] at bound
      exact .pushCallFrame sameLength room bound
  | @popFrame frame callers active =>
      obtain ⟨report, reported, ends⟩ :=
        exists_report_endScopes (store.withFrames callers) frame.scopes
      refine ⟨report, reported, fun surroundings _ => ?_⟩
      rw [← ends]
      exact .popFrame active
  | register => exact ⟨none, rfl, fun _ _ => .register⟩
  | formalsOf found => exact ⟨none, rfl, fun _ _ => .formalsOf found⟩
  | bodyOf found => exact ⟨none, rfl, fun _ _ => .bodyOf found⟩
  | recount =>
      refine ⟨store.liveness.recount.1, surroundings_recount store, fun surroundings _ => ?_⟩
      rw [← recount_within]
      exact .recount

/-- What is refused is refused in all surroundings with that limit, if it asks for no literal. -/
theorem Refused.within
    {fault : Fault}
    (refused : Refused store operation fault)
    (noInput : operation ≠ .nextData)
    {surroundings : Surroundings}
    (sameLimit : surroundings.settings.maxCallDepth = store.settings.maxCallDepth) :
    Refused (store.within surroundings) operation fault := by
  cases refused with
  | undefinedName needs missing => exact .undefinedName needs missing
  | undefinedTarget found missing => exact .undefinedTarget found missing
  | invalidRead found isRef unfilled => exact .invalidRead found isRef unfilled
  | invalidWrite found isRef noSlot => exact .invalidWrite found isRef noSlot
  | notARef found notRef => exact .notARef found notRef
  | heapExhausted found isRef tooLarge => exact .heapExhausted found isRef tooLarge
  | dataExhausted => exact absurd rfl noInput
  | noFrame needs outside => exact .noFrame needs outside
  | scopeUnderflow active atBase => exact .scopeUnderflow active atBase
  | argumentCount lengthsDiffer => exact .argumentCount lengthsDiffer
  | callDepth pushes full =>
      rw [← sameLimit] at full ⊢
      exact .callDepth pushes full
  | unboundActual sameLength room unbound =>
      rw [← sameLimit] at room
      exact .unboundActual sameLength room unbound
  | undefinedFunction needs missing => exact .undefinedFunction needs missing

end Store

end RefScript
