import RefScript.Proofs.Execution.Reachable

namespace RefScript

/-!
# The discipline of the call stack

Pops take whatever is on top, so that blocks, frames and calls are right only
if all that is executed within them is balanced. It is: commands that finish
leave the same frames, where the current one has the same function name and
equally many scopes, and every scope of it and the globals bind the same names
with the same kinds, but for the names that the commands themselves declare.
-/

/-- The names that commands declare outside their bodies, each with its last kind. -/
def declaredKinds : List Command → String → Option CellKind
  | [], _ => none
  | command :: rest, name => (declaredKinds rest name).or (command.declaredKind? name)

@[simp] theorem declaredKinds_singleton (command : Command) :
    declaredKinds [command] = command.declaredKind? := by
  funext name
  simp [declaredKinds]

namespace Store

variable {Body : Type}

/-- The current frame, if there is one, has a scope. -/
def InScope (store : Store Body) : Prop :=
  ∀ current callers, store.stack.frames = current :: callers → current.scopes ≠ []

theorem inScope_of_active
    {store : Store Body} {current : Frame} {callers : List Frame}
    (active : store.stack.frames = current :: callers)
    (nonempty : current.scopes ≠ []) :
    InScope store := by
  intro current' callers' active'
  rw [active] at active'
  cases active'
  exact nonempty

theorem Consistent.inScope
    {store : Store Body}
    (consistent : Consistent store) :
    InScope store := by
  intro current callers active
  apply consistent.framesScoped
  rw [active]
  exact List.mem_cons_self

/--
The frames and the globals after declarations: outside all frames the globals
gain the declared names; in a frame its innermost scope does, the shape of all
else stays, and the frames of the callers are the same.
-/
inductive StackKept
    (declared : String → Option CellKind)
    (before after : Store Body) : Prop where
  | outside
      (noFrameBefore : before.stack.frames = [])
      (noFrameAfter : after.stack.frames = [])
      (globals : Scope.Redeclared declared before.globals after.globals)
  | inFrame
      {current current' : Frame} {callers : List Frame}
      (activeBefore : before.stack.frames = current :: callers)
      (activeAfter : after.stack.frames = current' :: callers)
      (frame : Frame.Redeclared declared current current')
      (globals : after.globals.kinds = before.globals.kinds)

namespace StackKept

variable {declared : String → Option CellKind} {before between after : Store Body}

theorem callDepth_eq (kept : StackKept declared before after) :
    after.callDepth = before.callDepth := by
  cases kept with
  | outside noFrameBefore noFrameAfter globals =>
      simp [Store.callDepth_eq, noFrameBefore, noFrameAfter]
  | inFrame activeBefore activeAfter frame globals =>
      simp [Store.callDepth_eq, activeBefore, activeAfter]

theorem scopeDepth?_eq (kept : StackKept declared before after) :
    after.scopeDepth? = before.scopeDepth? := by
  cases kept with
  | outside noFrameBefore noFrameAfter globals =>
      simp [scopeDepth?, CallStack.scopeDepth?, CallStack.current?,
        noFrameBefore, noFrameAfter]
  | inFrame activeBefore activeAfter frame globals =>
      simp [scopeDepth?, CallStack.scopeDepth?, CallStack.current?,
        activeBefore, activeAfter, frame.scopeDepth_eq]

theorem inScope (kept : StackKept declared before after) : InScope after := by
  intro current callers active
  cases kept with
  | outside noFrameBefore noFrameAfter globals =>
      rw [noFrameAfter] at active
      contradiction
  | inFrame activeBefore activeAfter frame globals =>
      rw [activeAfter] at active
      cases active
      exact frame.scopes_ne_nil

/-- The callers of the current frame are those from before. -/
theorem frames_of_active
    (kept : StackKept declared before after)
    {current : Frame} {callers : List Frame}
    (active : before.stack.frames = current :: callers) :
    ∃ current',
      after.stack.frames = current' :: callers ∧
        Frame.Redeclared declared current current' ∧
          after.globals.kinds = before.globals.kinds := by
  cases kept with
  | outside noFrameBefore _ _ =>
      rw [active] at noFrameBefore
      contradiction
  | inFrame activeBefore activeAfter frame globals =>
      rw [active] at activeBefore
      cases activeBefore
      exact ⟨_, activeAfter, frame, globals⟩

theorem trans
    {declaredFirst declaredSecond : String → Option CellKind}
    (first : StackKept declaredFirst before between)
    (second : StackKept declaredSecond between after) :
    StackKept (fun name => (declaredSecond name).or (declaredFirst name))
      before after := by
  cases first with
  | outside noFrameBefore noFrameBetween globals =>
      cases second with
      | outside _ noFrameAfter laterGlobals =>
          exact .outside noFrameBefore noFrameAfter (globals.trans laterGlobals)
      | inFrame activeBetween _ _ _ =>
          rw [noFrameBetween] at activeBetween
          contradiction
  | inFrame activeBefore activeBetween frame globals =>
      cases second with
      | outside noFrameBetween _ _ =>
          rw [noFrameBetween] at activeBetween
          contradiction
      | inFrame activeBetween' activeAfter laterFrame laterGlobals =>
          rw [activeBetween] at activeBetween'
          cases activeBetween'
          exact .inFrame activeBefore activeAfter (frame.trans laterFrame)
            (laterGlobals.trans globals)

/-- Only the frames and the globals matter. -/
theorem of_sameStack
    (kept : StackKept declared before between)
    (stack : after.stack = between.stack)
    (globals : after.globals = between.globals) :
    StackKept declared before after := by
  cases kept with
  | outside noFrameBefore noFrameBetween sameGlobals =>
      rw [← stack] at noFrameBetween
      rw [← globals] at sameGlobals
      exact .outside noFrameBefore noFrameBetween sameGlobals
  | inFrame activeBefore activeBetween frame sameGlobals =>
      rw [← stack] at activeBetween
      rw [← globals] at sameGlobals
      exact .inFrame activeBefore activeBetween frame sameGlobals

end StackKept

/-- The same frames, and globals of the same shape. -/
theorem stackKept_of_frames_eq
    {before after : Store Body}
    (inScope : InScope before)
    (sameFrames : after.stack.frames = before.stack.frames)
    (globals : after.globals.kinds = before.globals.kinds) :
    StackKept (fun _ => none) before after := by
  cases active : before.stack.frames with
  | nil =>
      rw [active] at sameFrames
      exact .outside active sameFrames (Scope.redeclared_none_iff.mpr globals)
  | cons current callers =>
      rw [active] at sameFrames
      exact .inFrame active sameFrames
        (Frame.redeclared_refl (inScope current callers active)) globals

/-- An assignment keeps the frames, and the shape of what it assigns to. -/
theorem stackKept_of_assign?
    {store next : Store Body}
    {name : String} {value : Option Word}
    (inScope : InScope store)
    (assigned : store.assign? name value = some next) :
    StackKept (fun _ => none) store next := by
  rcases assign?_eq_some assigned with inFrame | inGlobals
  · obtain ⟨current, callers, frame, active, frameAssigned, rfl⟩ := inFrame
    exact .inFrame active rfl (Frame.redeclared_of_assign? frameAssigned) rfl
  · obtain ⟨_, globals, globalsAssigned, rfl⟩ := inGlobals
    exact stackKept_of_frames_eq inScope rfl (Scope.kinds_of_assign? globalsAssigned)

/-- A request that opens and closes nothing keeps the stack but for its declaration. -/
theorem Granted.stackKept
    {store next : Store Body}
    {operation : Operation Body}
    {reply : Reply Body}
    (granted : Granted store operation reply next)
    (inScope : InScope store)
    (stays : operation.movesScopes = false) :
    StackKept operation.declaredKind? store next := by
  cases granted with
  | declareLocal active =>
      exact .inFrame active rfl
        (Frame.redeclared_declare (inScope _ _ active) _ _) rfl
  | declareGlobal outside =>
      exact .outside outside outside (Scope.redeclared_declare _ _ _)
  | writeScalar found isInt assigned =>
      exact stackKept_of_assign? inScope assigned
  | @allocate _ _ _ bound found isRef fits assigned =>
      have same := sameStorage_recount bound.appendSlot.2
      exact (stackKept_of_assign? inScope assigned).of_sameStack
        same.stack same.globals
  | copy found assigned =>
      exact stackKept_of_assign? inScope assigned
  | recount =>
      have same := sameStorage_recount store
      exact stackKept_of_frames_eq inScope
        (congrArg CallStack.frames same.stack) (congrArg Scope.kinds same.globals)
  | pushScope | popScope | pushFrame | pushCallFrame | popFrame =>
      simp [Operation.movesScopes] at stays
  | _ =>
      exact stackKept_of_frames_eq inScope rfl rfl

end Store

/-- A request that a machine makes keeps the stack but for its declaration. -/
theorem Store.Requests.stackKept
    {α : Type}
    {action : Store.Action (List Command) α}
    {operation : Operation (List Command)}
    {reply : α → Reply (List Command)}
    (requests : Store.Requests action operation reply)
    (stays : operation.movesScopes = false)
    {machine next : Machine} {value : α}
    (inScope : machine.store.InScope)
    (done : onStore action machine = .ok value next) :
    Store.StackKept operation.declaredKind? machine.store next.store := by
  obtain ⟨store, granted, rfl⟩ := requests.onStore_granted done
  exact granted.stackKept inScope stays

/-- A command without a body keeps the stack but for its declaration. -/
private theorem stackKept_of_simple
    {command : Command}
    (simple : command.isSimple = true)
    {machine next : Machine}
    (inScope : machine.store.InScope)
    (done : execute [command] machine = .ok () next) :
    Store.StackKept command.declaredKind? machine.store next.store := by
  have isStep := simpleStep_of_isSimple simple
  generalize execute [command] = step, command.declaredKind? = declared at isStep done ⊢
  cases isStep with
  | request requests stays =>
      obtain ⟨_, between, answered, finished⟩ := bind_eq_ok_iff.mp done
      cases finished
      exact requests.stackKept stays inScope answered
  | input name =>
      obtain ⟨value, between, taken, written⟩ := bind_eq_ok_iff.mp done
      have afterTaking := Store.requests_nextData.stackKept rfl inScope taken
      exact afterTaking.trans
        ((Store.requests_write name value).stackKept rfl afterTaking.inScope written)
  | print name =>
      obtain ⟨value, between, wasRead, emitted⟩ := bind_eq_ok_iff.mp done
      have afterReading := (Store.requests_read name).stackKept rfl inScope wasRead
      obtain ⟨store, printed, echo⟩ := between
      cases echo <;> cases emitted <;> exact afterReading.of_sameStack rfl rfl

namespace Store

variable {declared : String → Option CellKind}
  {before entered between after : Store (List Command)}
  {reply : Reply (List Command)}

/--
What is done in a scope of its own stays there: after a body that keeps the
stack, the pop removes exactly the scope that was opened.
-/
theorem stackKept_of_popScope
    (inScope : before.InScope)
    {frame : Frame} {callers : List Frame}
    (active : before.stack.frames = frame :: callers)
    (inside : StackKept declared (before.withFrames (frame.pushScope :: callers)) between)
    (popped : Granted between .popScope reply after) :
    StackKept (fun _ => none) before after := by
  obtain ⟨top, activeBetween, kept, globals⟩ := inside.frames_of_active rfl
  obtain ⟨scope, outer, closes, restored⟩ :=
    Frame.popScope?_of_redeclared (inScope frame callers active) kept
  cases popped with
  | popScope activeBetween' closes' =>
      rw [activeBetween] at activeBetween'
      cases activeBetween'
      rw [closes] at closes'
      cases closes'
      have same := sameStorage_endScopes (between.withFrames (outer :: callers)) [scope]
      refine .inFrame active (congrArg CallStack.frames same.stack) restored ?_
      rw [same.globals]
      exact globals

/--
What is done in a frame of its own stays there: after a body that keeps the
stack, the pop removes exactly the frame that was pushed.
-/
theorem frames_of_popFrame
    {frame : Frame}
    (inside : StackKept declared (before.withFrames (frame :: before.stack.frames)) between)
    (popped : Granted between .popFrame reply after) :
    after.stack.frames = before.stack.frames ∧
      after.globals.kinds = before.globals.kinds := by
  obtain ⟨top, activeBetween, _, globals⟩ := inside.frames_of_active rfl
  cases popped with
  | popFrame activeBetween' =>
      rw [activeBetween] at activeBetween'
      cases activeBetween'
      have same :=
        sameStorage_endScopes (between.withFrames before.stack.frames) top.scopes
      rw [same.stack, same.globals]
      exact ⟨rfl, globals⟩

end Store

/-- A body that is finished between the push and the pop of a frame leaves the frames. -/
theorem frames_of_framed
    {push : Store.Action (List Command) Unit}
    {operation : Operation (List Command)}
    (requests : Store.Requests push operation fun _ => .done)
    {function : String}
    (named : operation.frameName? = some function)
    {body : List Command}
    {machine next : Machine}
    (inside :
      ∀ entered,
        onStore push machine = .ok () entered →
          ∀ {between : Machine},
            entered.store.InScope →
              execute body entered = .ok () between →
                Store.StackKept (declaredKinds body) entered.store between.store)
    (done :
      (do onStore push; execute body; onStore Store.popFrame) machine = .ok () next) :
    next.store.stack.frames = machine.store.stack.frames ∧
      next.store.globals.kinds = machine.store.globals.kinds := by
  obtain ⟨_, entered, pushed, restDone⟩ := bind_eq_ok_iff.mp done
  obtain ⟨_, between, bodyDone, popped⟩ := bind_eq_ok_iff.mp restDone
  obtain ⟨enteredStore, pushGranted, rfl⟩ := requests.onStore_granted pushed
  obtain ⟨nextStore, popGranted, rfl⟩ := Store.requests_popFrame.onStore_granted popped
  obtain ⟨frame, _, nonempty, rfl⟩ := pushGranted.frame_of_push named
  have bodyKept := inside _ pushed (Store.inScope_of_active rfl nonempty) bodyDone
  exact Store.frames_of_popFrame bodyKept popGranted

/--
Finished commands keep the stack but for what they declare: every push within
them has been followed by the pop that belongs to it.
-/
theorem stackKept_of_execute
    {commands : List Command}
    {machine next : Machine}
    (inScope : machine.store.InScope)
    (done : execute commands machine = .ok () next) :
    Store.StackKept (declaredKinds commands) machine.store next.store := by
  induction commands, machine using execute_induction generalizing next with
  | nil machine =>
      cases done
      exact Store.stackKept_of_frames_eq inScope rfl rfl
  | cons command rest machine first later =>
      rw [execute_cons] at done
      obtain ⟨_, between, firstDone, laterDone⟩ := bind_eq_ok_iff.mp done
      have afterFirst := first inScope firstDone
      rw [declaredKinds_singleton] at afterFirst
      exact afterFirst.trans (later between firstDone afterFirst.inScope laterDone)
  | simple command machine simple =>
      rw [declaredKinds_singleton]
      exact stackKept_of_simple simple inScope done
  | block body position machine inside =>
      rw [execute_block] at done
      obtain ⟨_, entered, pushed, restDone⟩ := bind_eq_ok_iff.mp done
      obtain ⟨_, between, bodyDone, popped⟩ := bind_eq_ok_iff.mp restDone
      obtain ⟨enteredStore, pushGranted, rfl⟩ :=
        Store.requests_pushScope.onStore_granted pushed
      obtain ⟨nextStore, popGranted, rfl⟩ :=
        Store.requests_popScope.onStore_granted popped
      cases pushGranted with
      | pushScope active =>
          have bodyKept :=
            inside _ pushed
              (Store.inScope_of_active rfl (Frame.scopes_pushScope_ne_nil _)) bodyDone
          exact Store.stackKept_of_popScope inScope active bodyKept popGranted
  | frame body position machine inside =>
      rw [execute_frame] at done
      obtain ⟨sameFrames, globals⟩ :=
        frames_of_framed Store.requests_pushFrame rfl inside done
      exact Store.stackKept_of_frames_eq inScope sameFrames globals
  | call name actuals position machine inside =>
      cases found : machine.store.functions.find? name with
      | none =>
          rw [execute_call_of_missing found] at done
          contradiction
      | some definition =>
          rw [execute_call_of_found found] at done
          obtain ⟨sameFrames, globals⟩ :=
            frames_of_framed
              (Store.requests_pushCallFrame name definition.formals actuals) rfl
              (fun entered pushed => inside definition entered found pushed) done
          exact Store.stackKept_of_frames_eq inScope sameFrames globals

/-- A finished script keeps the stack but for what its commands declare. -/
theorem stackKept_of_runScript
    {commands : List Command}
    {machine next : Machine}
    (inScope : machine.store.InScope)
    (done : runScript commands machine = .ok () next) :
    Store.StackKept
      (declaredKinds (commands.filter fun command => !command.isFunction))
      machine.store next.store := by
  rw [runScript_apply] at done
  have unchanged :
      Store.StackKept (fun _ => none) machine.store
        (machine.withFunctions (machine.store.functions.registerAll commands)).store :=
    Store.stackKept_of_frames_eq inScope rfl rfl
  have executedKept := stackKept_of_execute unchanged.inScope done
  simpa using unchanged.trans executedKept

/--
A reachable machine that finishes a command has as many frames as before, and
its current frame has the same function name and equally many scopes. All
scopes of that frame and the globals bind the same names with the same kinds,
except that the name of a declaration is bound in the innermost scope, or in
the globals outside all frames.

So a finished script restores the depth of the call stack and the number of
scopes, and one that starts outside all frames ends there.
-/
theorem finished_runs_keep_stack
    {machine : Machine}
    (reachable : machine.Reachable) :
    (∀ command next,
        execute [command] machine = .ok () next →
          next.store.callDepth = machine.store.callDepth ∧
            Store.StackKept command.declaredKind? machine.store next.store) ∧
      ∀ commands next,
        runScript commands machine = .ok () next →
          next.store.callDepth = machine.store.callDepth ∧
            next.store.scopeDepth? = machine.store.scopeDepth? ∧
            (machine.store.stack = CallStack.empty →
              next.store.stack = CallStack.empty) := by
  have inScope := reachable.consistent.inScope
  constructor
  · intro command next done
    have kept := stackKept_of_execute inScope done
    rw [declaredKinds_singleton] at kept
    exact ⟨kept.callDepth_eq, kept⟩
  · intro commands next done
    have kept := stackKept_of_runScript inScope done
    refine ⟨kept.callDepth_eq, kept.scopeDepth?_eq, ?_⟩
    intro startsOutside
    have noFrames := kept.callDepth_eq
    rw [Store.callDepth_eq, Store.callDepth_eq, startsOutside] at noFrames
    exact CallStack.ext (List.eq_nil_of_length_eq_zero noFrames)

/-- A block that shadows a parameter and enters a frame. -/
def shadowingBlock : Command :=
  .block
    [.declare .int "p" ⟨2, 3⟩,
      .frame [.declare .ref "r" ⟨4, 5⟩, .allocate "r" ⟨5, 5⟩] ⟨3, 3⟩]
    ⟨1, 1⟩

/-- Also after an abandoned call, the frames of which are still there. -/
theorem shadowingBlock_keeps_abandoned_stack :
    ∃ next,
      execute [shadowingBlock] abandonedMachine = .ok () next ∧
        next.store.callDepth = abandonedMachine.store.callDepth ∧
          Store.StackKept shadowingBlock.declaredKind? abandonedMachine.store next.store := by
  have isFinished : finishes (execute [shadowingBlock]) abandonedMachine = true := by
    decide +kernel
  obtain ⟨_, next, done⟩ := exists_ok_of_finishes isFinished
  have keeps := finished_runs_keep_stack reachable_abandonedMachine
  exact ⟨next, done, keeps.1 shadowingBlock next done⟩

end RefScript
