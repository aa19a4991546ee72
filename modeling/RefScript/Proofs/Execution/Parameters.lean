import RefScript.Proofs.Execution.StackDiscipline
import RefScript.Proofs.Store.Bystanders
import RefScript.Proofs.Store.Places
import RefScript.Proofs.Store.Slots

namespace RefScript

/-!
# What a call has been passed

The parameters of a call are in the base scope of its frame, and the scope of its
body stays above that one until the frame is popped. No declaration in the body
can replace a parameter, whatever its name and in however deep a block; only an
allocation or a copy to the name can change it, where nothing between hides it.
A handle that has been passed is therefore still held there when the call
returns, and dead ever after.
-/

/-- The name of the variable that a request gives another raw value as a reference. -/
def Operation.rebound? {Body : Type} : Operation Body → Option String
  | .allocate name | .copy name _ => some name
  | _ => none

namespace Store

variable {Body : Type}

/-- The place of the outermost scope of the current frame; a call has its parameters there. -/
def basePlace (store : Store Body) : Place :=
  .scope 0 (store.currentScopes.length - 1)

/-- Whether a name designates a variable of the base scope. -/
def designatesBase (store : Store Body) (name : String) : Bool :=
  store.place? name = some store.basePlace

/--
In a call with these formal and actual parameters, the formal one gets the handle:
the actual one at the last of its positions has it as its raw value.
-/
def Passes
    (store : Store Body) (formals actuals : List String)
    (formal : String) (handle : Handle) : Prop :=
  ∃ index actual kind raw,
    formals[index]? = some formal ∧
      formal ∉ formals.drop (index + 1) ∧
      actuals[index]? = some actual ∧
      store.find? actual = some ⟨kind, some raw⟩ ∧
      raw.toInt = handle

/--
The base scope of the current frame binds the parameter to a reference with the
raw value. Above it there is a scope for the body, and one for each open block.
-/
structure HoldsParameter
    (store : Store Body) (formal : String) (raw : Word) (blocks : Nat) : Prop where
  inBody : store.currentScopes.length = blocks + 2
  bound : store.cellAt? (.scope 0 (blocks + 1)) formal = some ⟨.ref, some raw⟩

variable {store next : Store Body} {operation : Operation Body} {reply : Reply Body}
  {formals actuals : List String} {formal : String} {handle : Handle} {raw : Word} {blocks : Nat}

/-- Of the actual parameters of a formal one, the last is bound. -/
theorem find?_of_passed
    {parameters scope : Scope} {index : Nat} {actual : String} {cell : Cell}
    (done : store.bindActuals formals actuals parameters = .ok scope)
    (isFormal : formals[index]? = some formal)
    (isLast : formal ∉ formals.drop (index + 1))
    (isActual : actuals[index]? = some actual)
    (found : store.find? actual = some cell) :
    scope.find? formal = some (Cell.rawRef cell.value) := by
  induction index generalizing formals actuals parameters with
  | zero =>
      rw [← List.head?_eq_getElem?] at isFormal isActual
      obtain ⟨formals, rfl⟩ := List.head?_eq_some_iff.mp isFormal
      obtain ⟨actuals, rfl⟩ := List.head?_eq_some_iff.mp isActual
      rw [bindActuals, found] at done
      rw [find?_of_bindActuals done isLast, Scope.find?_bind, if_pos rfl]
  | succ index inductionHypothesis =>
      cases formals with
      | nil => contradiction
      | cons first formals =>
          cases actuals with
          | nil => contradiction
          | cons firstActual actuals =>
              rw [bindActuals] at done
              cases foundFirst : store.find? firstActual with
              | none => simp [foundFirst] at done
              | some firstCell =>
                  rw [foundFirst] at done
                  exact inductionHypothesis done isFormal isLast isActual

/-- What it is to hold a parameter, in terms of the scopes of the current frame. -/
theorem holdsParameter_iff
    {frame : Frame} {callers : List Frame}
    (active : store.stack.frames = frame :: callers) :
    store.HoldsParameter formal raw blocks ↔
      frame.scopes.length = blocks + 2 ∧
        (frame.scopes[blocks + 1]?.bind fun scope => scope.find? formal) =
          some ⟨.ref, some raw⟩ := by
  rw [← currentScopes_of_active active, ← scopeAt?_current]
  exact ⟨fun ⟨inBody, bound⟩ => ⟨inBody, bound⟩, fun ⟨inBody, bound⟩ => ⟨inBody, bound⟩⟩

namespace HoldsParameter

/-- Only the scopes of the current frame matter. -/
theorem of_sameScopes
    (holds : store.HoldsParameter formal raw blocks)
    (sameScopes : next.currentScopes = store.currentScopes) :
    next.HoldsParameter formal raw blocks where
  inBody := by rw [sameScopes, holds.inBody]
  bound := by
    rw [cellAt?, scopeAt?_current, sameScopes, ← scopeAt?_current]
    exact holds.bound

/-- An assignment to another variable leaves the parameter. -/
theorem of_reassigned
    (holds : store.HoldsParameter formal raw blocks)
    {place : Place} {name : String} {value : Option Word}
    (reassigned : Reassigned place name value store next)
    (other : (place, name) ≠ (.scope 0 (blocks + 1), formal)) :
    next.HoldsParameter formal raw blocks where
  inBody := by rw [reassigned.length_currentScopes, holds.inBody]
  bound := by rw [reassigned.elsewhere _ _ other.symm, holds.bound]

/-- A request that opens and closes nothing leaves the parameter, unless it rebinds that. -/
theorem of_granted
    (holds : store.HoldsParameter formal raw blocks)
    (granted : Granted store operation reply next)
    (stays : operation.movesScopes = false)
    (keeps : operation.rebound? = some formal → store.designatesBase formal = false) :
    next.HoldsParameter formal raw blocks := by
  have keepsBase
      (rebinds : operation.rebound? = some formal) :
      store.place? formal ≠ some (.scope 0 (blocks + 1)) := by
    have isElsewhere := keeps rebinds
    rw [designatesBase, basePlace, holds.inBody] at isElsewhere
    exact of_decide_eq_false isElsewhere
  cases granted with
  | @declareLocal name kind frame callers active =>
      -- The declaration is made in the scope of the body or of a block, above the base scope.
      obtain ⟨inBody, bound⟩ := (holdsParameter_iff active).mp holds
      obtain ⟨innermost, outer, scopes⟩ := List.exists_cons_of_length_eq_add_one inBody
      rw [scopes] at inBody bound
      rw [holdsParameter_iff rfl, Frame.declare, scopes]
      exact ⟨inBody, bound⟩
  | declareGlobal outside =>
      have inBody := holds.inBody
      simp [currentScopes, CallStack.current?, outside] at inBody
  | writeScalar found isInt assigned =>
      obtain ⟨place, placed, reassigned⟩ := reassigned_of_assign? assigned
      apply holds.of_reassigned reassigned
      intro same
      cases same
      have isParameter := holds.bound
      rw [find?_eq_cellAt?, placed, Option.bind_some, isParameter] at found
      cases found
      contradiction
  | @allocate _ _ _ bound found isRef fits assigned =>
      obtain ⟨place, placed, reassigned⟩ := reassigned_of_assign? assigned
      have same := sameStorage_recount bound.appendSlot.2
      apply holds.of_reassigned (reassigned.of_sameStack same.stack same.globals)
      intro same
      cases same
      exact keepsBase rfl placed
  | copy found assigned =>
      obtain ⟨place, placed, reassigned⟩ := reassigned_of_assign? assigned
      apply holds.of_reassigned reassigned
      intro same
      cases same
      exact keepsBase rfl placed
  | recount =>
      apply holds.of_sameScopes
      rw [currentScopes, (sameStorage_recount store).stack, currentScopes]
  | pushScope | popScope | pushFrame | pushCallFrame | popFrame =>
      contradiction
  | _ =>
      exact holds.of_sameScopes rfl

/-- The scope of a block comes above those of the body. -/
theorem of_pushScope
    (holds : store.HoldsParameter formal raw blocks)
    (granted : Granted store .pushScope reply next) :
    next.HoldsParameter formal raw (blocks + 1) := by
  cases granted with
  | pushScope active =>
      obtain ⟨inBody, bound⟩ := (holdsParameter_iff active).mp holds
      rw [holdsParameter_iff rfl]
      exact ⟨congrArg Nat.succ inBody, bound⟩

/-- And it is what the end of the block removes. -/
theorem of_popScope
    (holds : store.HoldsParameter formal raw (blocks + 1))
    (granted : Granted store .popScope reply next) :
    next.HoldsParameter formal raw blocks := by
  cases granted with
  | @popScope frame outer callers scope active popped =>
      obtain ⟨shape, _⟩ := Frame.popScope?_eq_some_iff.mp popped
      obtain ⟨inBody, bound⟩ := (holdsParameter_iff active).mp holds
      rw [shape] at inBody bound
      have same := sameStorage_endScopes (store.withFrames (outer :: callers)) [scope]
      rw [holdsParameter_iff (congrArg CallStack.frames same.stack)]
      exact ⟨Nat.succ.inj inBody, bound⟩

end HoldsParameter

/-- A call starts with the parameters that it has been passed. -/
theorem Passes.holdsParameter
    (passes : store.Passes formals actuals formal handle)
    {function : String}
    (granted : Granted store (.pushCallFrame function formals actuals) reply next) :
    ∃ raw : Word, raw.toInt = handle ∧ next.HoldsParameter formal raw 0 := by
  obtain ⟨index, actual, kind, raw, isFormal, isLast, isActual, found, spells⟩ := passes
  cases granted with
  | pushCallFrame sameLength room bound =>
      have isBound := find?_of_passed bound isFormal isLast isActual found
      refine ⟨raw, spells, ?_⟩
      rw [holdsParameter_iff rfl]
      exact ⟨rfl, isBound⟩

/-- The frame of a call is left with the handle dead that a parameter holds. -/
theorem HoldsParameter.not_isLive
    (holds : store.HoldsParameter formal raw blocks)
    (spells : raw.toInt = handle)
    (granted : Granted store .popFrame reply next) :
    ¬ next.liveness.isLive handle := by
  cases granted with
  | popFrame active =>
      obtain ⟨_, bound⟩ := (holdsParameter_iff active).mp holds
      obtain ⟨base, isBase, found⟩ := Option.bind_eq_some_iff.mp bound
      rw [isLive_endScopes]
      rintro ⟨_, spared⟩
      exact spared base (List.mem_of_getElem? isBase) ⟨formal, raw, found, spells⟩

end Store

/-! ## Rebinding a parameter -/

mutual

/--
Whether a command, executed on a machine, allocates or copies to the name where
that designates a variable of the base scope of the current frame. What happens in
the frame of another call, or in one of the program, is not counted.
-/
def Command.rebinds (formal : String) : Command → Machine → Bool
  | .allocate name _, machine => name = formal && machine.store.designatesBase formal
  | .copy target _ _, machine => target = formal && machine.store.designatesBase formal
  | .block body _, machine =>
      match onStore Store.pushScope machine with
      | .ok _ entered => Command.rebindsAmong formal body entered
      | .error _ _ => false
  | _, _ => false

/-- Whether one of the commands that are executed on a machine does so. -/
def Command.rebindsAmong (formal : String) : List Command → Machine → Bool
  | [], _ => false
  | command :: rest, machine =>
      command.rebinds formal machine ||
        match execute [command] machine with
        | .ok _ next => Command.rebindsAmong formal rest next
        | .error _ _ => false

end

open Command (rebindsAmong)

section Run

variable {formal : String} {raw : Word} {blocks : Nat} {machine next : Machine}

theorem rebindsAmong_singleton (formal : String) (command : Command) (machine : Machine) :
    rebindsAmong formal [command] machine = command.rebinds formal machine := by
  rw [rebindsAmong]
  cases execute [command] machine <;> simp [rebindsAmong]

/-- A parameter that commands do not rebind, the first does not, nor the others after it. -/
theorem keeps_of_cons
    {command : Command} {rest : List Command}
    (keeps : rebindsAmong formal (command :: rest) machine = false)
    (done : execute [command] machine = .ok () next) :
    command.rebinds formal machine = false ∧ rebindsAmong formal rest next = false := by
  rw [rebindsAmong, done] at keeps
  exact Bool.or_eq_false_iff.mp keeps

/-- A request of a machine leaves the parameter, unless it rebinds that. -/
theorem Store.Requests.holdsParameter
    {α : Type} {action : Store.Action (List Command) α}
    {operation : Operation (List Command)} {reply : α → Reply (List Command)}
    (requests : Store.Requests action operation reply)
    (stays : operation.movesScopes = false)
    (keeps : operation.rebound? = some formal → machine.store.designatesBase formal = false)
    (holds : machine.store.HoldsParameter formal raw blocks)
    {value : α}
    (done : onStore action machine = .ok value next) :
    next.store.HoldsParameter formal raw blocks := by
  obtain ⟨store, granted, rfl⟩ := requests.onStore_granted done
  exact holds.of_granted granted stays keeps

/-- A command without a body leaves the parameter, unless it rebinds that. -/
private theorem holdsParameter_of_simple
    {command : Command}
    (simple : command.isSimple = true)
    (holds : machine.store.HoldsParameter formal raw blocks)
    (keeps : command.rebinds formal machine = false)
    (done : execute [command] machine = .ok () next) :
    next.store.HoldsParameter formal raw blocks := by
  cases command with
  | declare kind name position =>
      rw [execute_declare] at done
      exact (Store.requests_declare name kind).holdsParameter rfl nofun holds done
  | allocate name position =>
      rw [execute_allocate] at done
      obtain ⟨_, between, answered, finished⟩ := bind_eq_ok_iff.mp done
      cases finished
      refine (Store.requests_allocate name).holdsParameter rfl ?_ holds answered
      intro rebinds
      cases rebinds
      simpa [Command.rebinds] using keeps
  | assign name value position =>
      rw [execute_assign] at done
      exact (Store.requests_write name value).holdsParameter rfl nofun holds done
  | copy target source position =>
      rw [execute_copy] at done
      refine (Store.requests_copy target source).holdsParameter rfl ?_ holds done
      intro rebinds
      cases rebinds
      simpa [Command.rebinds] using keeps
  | input name position =>
      rw [execute_input] at done
      obtain ⟨value, between, taken, written⟩ := bind_eq_ok_iff.mp done
      have holdsBetween := Store.requests_nextData.holdsParameter rfl nofun holds taken
      exact (Store.requests_write name value).holdsParameter rfl nofun holdsBetween written
  | print name position =>
      rw [execute_print] at done
      obtain ⟨value, between, wasRead, emitted⟩ := bind_eq_ok_iff.mp done
      have holdsBetween := (Store.requests_read name).holdsParameter rfl nofun holds wasRead
      obtain ⟨store, printed, echo⟩ := between
      cases echo <;> cases emitted <;> exact holdsBetween.of_sameScopes rfl
  | function name formals body position =>
      rw [execute_function] at done
      exact (Store.requests_register name formals body).holdsParameter rfl nofun holds done
  | block | frame | call =>
      contradiction

/-- What is done in another frame ends with that frame, and leaves the parameter. -/
private theorem holdsParameter_of_framed
    {push : Store.Action (List Command) Unit}
    {operation : Operation (List Command)}
    (requests : Store.Requests push operation fun _ => .done)
    {function : String}
    (named : operation.frameName? = some function)
    {body : List Command}
    (holds : machine.store.HoldsParameter formal raw blocks)
    (done :
      (do onStore push; execute body; onStore Store.popFrame) machine = .ok () next) :
    next.store.HoldsParameter formal raw blocks := by
  have sameFrames :=
    (frames_of_framed requests named (fun _ _ => stackKept_of_execute) done).1
  have sameStack : next.store.stack = machine.store.stack := CallStack.ext sameFrames
  apply holds.of_sameScopes
  rw [Store.currentScopes, sameStack, Store.currentScopes]

/-- Commands in the body of a call leave the parameters that they do not rebind. -/
theorem holdsParameter_of_execute
    {commands : List Command}
    (holds : machine.store.HoldsParameter formal raw blocks)
    (keeps : rebindsAmong formal commands machine = false)
    (done : execute commands machine = .ok () next) :
    next.store.HoldsParameter formal raw blocks := by
  induction commands, machine using execute_induction generalizing next blocks with
  | nil machine =>
      cases done
      exact holds
  | cons command rest machine first later =>
      rw [execute_cons] at done
      obtain ⟨_, between, firstDone, laterDone⟩ := bind_eq_ok_iff.mp done
      obtain ⟨keepsFirst, keepsLater⟩ := keeps_of_cons keeps firstDone
      rw [← rebindsAmong_singleton] at keepsFirst
      exact later between firstDone (first holds keepsFirst firstDone) keepsLater laterDone
  | simple command machine simple =>
      rw [rebindsAmong_singleton] at keeps
      exact holdsParameter_of_simple simple holds keeps done
  | block body position machine inside =>
      rw [execute_block] at done
      obtain ⟨_, entered, pushed, restDone⟩ := bind_eq_ok_iff.mp done
      obtain ⟨_, between, bodyDone, popped⟩ := bind_eq_ok_iff.mp restDone
      rw [rebindsAmong_singleton, Command.rebinds, pushed] at keeps
      obtain ⟨enteredStore, pushGranted, rfl⟩ := Store.requests_pushScope.onStore_granted pushed
      obtain ⟨nextStore, popGranted, rfl⟩ := Store.requests_popScope.onStore_granted popped
      have holdsInside := inside _ pushed (holds.of_pushScope pushGranted) keeps bodyDone
      exact holdsInside.of_popScope popGranted
  | frame body position machine inside =>
      rw [execute_frame] at done
      exact holdsParameter_of_framed Store.requests_pushFrame rfl holds done
  | call name actuals position machine inside =>
      cases found : machine.store.functions.find? name with
      | none =>
          rw [execute_call_of_missing found] at done
          contradiction
      | some definition =>
          rw [execute_call_of_found found] at done
          exact holdsParameter_of_framed
            (Store.requests_pushCallFrame name definition.formals actuals) rfl holds done

end Run

/-! ## Calls that return -/

/-- A handle that has been allocated and is dead stays dead, whatever is requested. -/
theorem stable_dead (handle : Handle) :
    Stable fun store =>
      Store.Consistent store ∧ handle < store.heap.size ∧ ¬ store.liveness.isLive handle where
  request store operation before := by
    obtain ⟨consistent, allocated, dead⟩ := before
    have tracked := allocated
    rw [← consistent.flagPerSlot] at tracked
    exact ⟨consistent.after operation,
      Nat.lt_of_lt_of_le allocated (Store.size_heap_le_after store operation),
      consistent.dead_afterAll tracked dead [operation]⟩
  shown store line before := ⟨Machine.stable_consistent.shown store line before.1, before.2⟩

/-- Whether a call of a function, in its own activation, rebinds the formal parameter. -/
def callRebinds
    (formal : String) (function : String) (definition : FunctionDef (List Command))
    (actuals : List String) (machine : Machine) : Bool :=
  match onStore (Store.pushCallFrame function definition.formals actuals) machine with
  | .ok _ entered => rebindsAmong formal definition.body entered
  | .error _ _ => false

/--
A call that returns, on a reachable machine, has killed every handle that it has
been passed, unless its own activation has rebound the parameter. The handle need
be allocated only by the time the call returns. It is dead then, and dead in all
later machines.

The handle is that of the actual parameter at the last position of the formal one.
To rebind is to allocate or to copy to the name where that designates the variable
in the scope of the parameters. Whatever else the body does makes no difference: it
may declare variables of the same name, allocate and copy to those, and call any
functions.
-/
theorem calls_kill_what_they_are_passed
    {machine next : Machine}
    (reachable : machine.Reachable)
    {function : String} {definition : FunctionDef (List Command)}
    (found : machine.store.functions.find? function = some definition)
    {actuals : List String} {position : Position}
    (done : execute [.call function actuals position] machine = .ok () next)
    {formal : String} {handle : Handle}
    (passes : machine.store.Passes definition.formals actuals formal handle)
    (keeps : callRebinds formal function definition actuals machine = false)
    (allocated : handle < next.store.heap.size) :
    ¬ next.store.liveness.isLive handle ∧
      ∀ later, next.LeadsTo later → ¬ later.store.liveness.isLive handle := by
  have consistent : Store.Consistent next.store := by
    have kept := Machine.stable_consistent.steady.leaves_execute
      [.call function actuals position] machine reachable.consistent
    rwa [leaves_of_ok done] at kept
  rw [execute_call_of_found found] at done
  obtain ⟨_, entered, pushed, restDone⟩ := bind_eq_ok_iff.mp done
  obtain ⟨_, between, bodyDone, popped⟩ := bind_eq_ok_iff.mp restDone
  rw [callRebinds, pushed] at keeps
  obtain ⟨enteredStore, pushGranted, rfl⟩ :=
    (Store.requests_pushCallFrame function definition.formals actuals).onStore_granted pushed
  obtain ⟨nextStore, popGranted, rfl⟩ := Store.requests_popFrame.onStore_granted popped
  obtain ⟨raw, spells, holds⟩ := passes.holdsParameter pushGranted
  have dead := (holdsParameter_of_execute holds keeps bodyDone).not_isLive spells popGranted
  refine ⟨dead, ?_⟩
  intro later leads
  exact (leads.keeps (stable_dead handle).steady ⟨consistent, allocated, dead⟩).2.2

/-- A function that declares and allocates its parameter's name, in its body and in a block. -/
def shadowingScript : List Command :=
  [.function "grow" ["q"] [.declare .ref "r" ⟨1, 20⟩, .allocate "r" ⟨1, 26⟩] ⟨1, 1⟩,
    .function "shadow" ["p", "p"]
      [.assign "p" 5 ⟨3, 3⟩, .declare .ref "p" ⟨4, 3⟩, .allocate "p" ⟨5, 3⟩,
        .block [.declare .ref "p" ⟨7, 5⟩, .copy "p" "kept" ⟨8, 5⟩] ⟨6, 3⟩,
        .call "grow" ["p"] ⟨9, 3⟩]
      ⟨2, 1⟩,
    .declare .ref "kept" ⟨10, 1⟩, .allocate "kept" ⟨11, 1⟩,
    .declare .ref "passed" ⟨12, 1⟩, .allocate "passed" ⟨13, 1⟩]

/-- The machine on which the function can be called. -/
def shadowingMachine : Machine :=
  leaves (runScript shadowingScript) (Machine.onStore (Store.initial Settings.standard))

/-- A call of it kills the handle that its parameter has been passed last. -/
theorem shadowing_call_kills_passed :
    ∃ definition next,
      shadowingMachine.store.functions.find? "shadow" = some definition ∧
        shadowingMachine.store.Passes definition.formals ["kept", "passed"] "p" 1 ∧
        execute [.call "shadow" ["kept", "passed"] ⟨14, 1⟩] shadowingMachine = .ok () next ∧
        ¬ next.store.liveness.isLive 1 ∧
        ∀ later, next.LeadsTo later → ¬ later.store.liveness.isLive 1 := by
  have reachable : shadowingMachine.Reachable :=
    .script shadowingScript (.fresh Settings.standard _ .empty false)
  have isDefined : (shadowingMachine.store.functions.find? "shadow").isSome = true := by
    decide +kernel
  have formals :
      (shadowingMachine.store.functions.find? "shadow").map FunctionDef.formals =
        some ["p", "p"] := by
    decide +kernel
  have keeps :
      (shadowingMachine.store.functions.find? "shadow").map
          (callRebinds "p" "shadow" · ["kept", "passed"] shadowingMachine) =
        some false := by
    decide +kernel
  have isBound : shadowingMachine.store.find? "passed" = some ⟨.ref, some 1⟩ := by
    decide +kernel
  have isFinished :
      finishes (execute [.call "shadow" ["kept", "passed"] ⟨14, 1⟩]) shadowingMachine = true := by
    decide +kernel
  have allocated :
      1 < (leaves (execute [.call "shadow" ["kept", "passed"] ⟨14, 1⟩])
        shadowingMachine).store.heap.size := by
    decide +kernel
  obtain ⟨definition, found⟩ := Option.isSome_iff_exists.mp isDefined
  obtain ⟨_, next, done⟩ := exists_ok_of_finishes isFinished
  rw [found, Option.map_some, Option.some.injEq] at formals keeps
  rw [leaves_of_ok done] at allocated
  have passes : shadowingMachine.store.Passes definition.formals ["kept", "passed"] "p" 1 := by
    rw [formals]
    exact ⟨1, "passed", .ref, 1, rfl, List.not_mem_nil, rfl, isBound, by decide⟩
  exact ⟨definition, next, found, passes, done,
    calls_kill_what_they_are_passed reachable found done passes keeps allocated⟩

end RefScript
