import RefScript.Proofs.Execution.CallerFrames

namespace RefScript

/-!
# Faults that no script meets

Some requests to the store are refused for want of a frame or a scope: a scope can be
opened or closed in an active frame only, a frame can be popped only if there is one,
and the base scope of a frame is not closed. A script does not meet these faults,
because all that it closes it has opened before and all that it has opened since is
closed by then. The one exception is a block that stands outside all frames. Nor does
a call fail to find the body of a function, once it has found the parameters.
-/

/-- Whether a fault says that a frame or a scope is missing. -/
def Fault.isStructural : Fault → Bool
  | .noFrame _ | .scopeUnderflow _ => true
  | _ => false

/-- A request that needs no frame is not refused for want of a frame or a scope. -/
theorem Store.Refused.not_structural
    {Body : Type} {store : Store Body} {operation : Operation Body} {fault : Fault}
    (refused : Store.Refused store operation fault)
    (needsNone : operation.frameAction? = none) :
    fault.isStructural = false := by
  cases refused with
  | noFrame needs outside =>
      rw [needsNone] at needs
      contradiction
  | scopeUnderflow active atBase => contradiction
  | _ => rfl

/-- A request that moves no scope needs no frame. -/
theorem Operation.frameAction?_of_movesScopes
    {Body : Type} {operation : Operation Body}
    (stays : operation.movesScopes = false) :
    operation.frameAction? = none := by
  cases operation with
  | pushScope | popScope | popFrame => contradiction
  | _ => rfl

section Openings

variable {machine stopped : Machine} {fault : Fault}

/-- A request of a machine that needs no frame meets no such fault. -/
private theorem Store.Requests.not_structural
    {α : Type} {action : Store.Action (List Command) α}
    {operation : Operation (List Command)} {reply : α → Reply (List Command)}
    (requests : Store.Requests action operation reply)
    (needsNone : operation.frameAction? = none)
    (failed : onStore action machine = .error fault stopped) :
    fault.isStructural = false :=
  (requests.onStore_reason failed).not_structural needsNone

/-- Neither does a command without a body. -/
private theorem not_structural_of_simple
    {command : Command}
    (simple : command.isSimple = true)
    (failed : execute [command] machine = .error fault stopped) :
    fault.isStructural = false := by
  obtain ⟨operation, stays, refused, _⟩ := exists_refused_of_simple simple failed
  exact refused.not_structural (Operation.frameAction?_of_movesScopes stays)

/-- The one command whose opening meets such a fault is a block outside all frames. -/
theorem Command.opening_of_structural
    {command : Command}
    (failed : command.opening machine = .error fault stopped)
    (structural : fault.isStructural = true) :
    (∃ body position, command = .block body position) ∧
      fault = .noFrame .pushScope ∧ machine.store.stack.frames = [] ∧ stopped = machine := by
  have impossible {conclusion : Prop} (isOther : fault.isStructural = false) : conclusion := by
    rw [isOther] at structural
    contradiction
  cases command with
  | block body position =>
      have unchanged := Store.requests_pushScope.onStore_refused failed
      have refused := Store.requests_pushScope.onStore_reason failed
      cases refused with
      | noFrame needs outside =>
          cases needs
          exact ⟨⟨body, position, rfl⟩, rfl, outside, unchanged⟩
      | _ => contradiction
  | frame body position =>
      exact impossible (Store.requests_pushFrame.not_structural rfl failed)
  | call name actuals position =>
      rcases bind_eq_error_iff.mp failed with refused | ⟨formals, _, _, refused⟩
      · exact impossible ((Store.requests_formalsOf name).not_structural rfl refused)
      · exact impossible
          ((Store.requests_pushCallFrame name formals actuals).not_structural rfl refused)
  | _ =>
      exact impossible (not_structural_of_simple rfl failed)

end Openings

/-! ## Runs -/

section Run

variable {machine stopped : Machine} {fault : Fault}

/-- A command that meets a fault does so at the opening of a command in it. -/
private theorem exists_stopsAt_singleton
    {command : Command}
    (inScope : machine.store.InScope)
    (failed : execute [command] machine = .error fault stopped) :
    ∃ opened, StopsAt [command] machine opened fault stopped := by
  cases command with
  | block body position =>
      cases active : machine.store.stack.frames with
      | nil =>
          have refused : onStore Store.pushScope machine = .error (.noFrame .pushScope) machine :=
            Store.requests_pushScope.onStore_of_refused (.noFrame rfl active)
          rw [execute_block, bind_of_error refused] at failed
          cases failed
          exact ⟨[], .refused refused⟩
      | cons current callers =>
          obtain ⟨_, _, opened, _, stops⟩ :=
            stopInFrame_of_execute _ machine active (inScope current callers active) failed
          exact ⟨opened.map Frame.function, stops⟩
  | frame | call =>
      obtain ⟨opened, _, stops⟩ := (frames_survive_callee rfl machine).2 fault stopped failed
      exact ⟨opened.map Frame.function, stops⟩
  | _ =>
      exact ⟨[], .refused failed⟩

/-- So do commands, one after the other. -/
theorem exists_stopsAt
    {commands : List Command}
    (inScope : machine.store.InScope)
    (failed : execute commands machine = .error fault stopped) :
    ∃ opened, StopsAt commands machine opened fault stopped := by
  induction commands generalizing machine with
  | nil =>
      cases failed
  | cons command rest inductionHypothesis =>
      rw [execute_cons] at failed
      rcases bind_eq_error_iff.mp failed with firstFailed | ⟨_, between, firstDone, laterFailed⟩
      · obtain ⟨opened, stops⟩ := exists_stopsAt_singleton inScope firstFailed
        exact ⟨opened, stops.append rest⟩
      · have kept := stackKept_of_execute inScope firstDone
        obtain ⟨opened, stops⟩ := inductionHypothesis kept.inScope laterFailed
        exact ⟨opened, .later firstDone stops⟩

/-- A frame that has been pushed is active. -/
private theorem active_of_pushed
    {push : Store.Action (List Command) Unit}
    {operation : Operation (List Command)}
    (requests : Store.Requests push operation fun _ => .done)
    {function : String}
    (named : operation.frameName? = some function)
    {entered : Machine}
    (pushed : onStore push machine = .ok () entered) :
    entered.store.InScope ∧ entered.store.stack.frames ≠ [] := by
  obtain ⟨store, granted, rfl⟩ := requests.onStore_granted pushed
  obtain ⟨frame, _, nonempty, rfl⟩ := granted.frame_of_push named
  exact ⟨Store.inScope_of_active rfl nonempty, List.cons_ne_nil _ _⟩

/--
Commands that stop at such a fault stop outside all frames, at a block that stands
among them. For a body of another command is executed in an active frame, and no
frame comes or goes between the commands.
-/
theorem StopsAt.of_structural
    {commands : List Command} {opened : List String}
    (stops : StopsAt commands machine opened fault stopped)
    (structural : fault.isStructural = true)
    (inScope : machine.store.InScope) :
    fault = .noFrame .pushScope ∧ machine.store.stack.frames = [] ∧
      stopped.store.stack.frames = [] ∧
      ∃ before body position after,
        commands = before ++ .block body position :: after ∧
          execute before machine = .ok () stopped := by
  induction stops with
  | @refused command rest machine stopped fault failed =>
      obtain ⟨⟨body, position, rfl⟩, isPush, outside, rfl⟩ :=
        Command.opening_of_structural failed structural
      exact ⟨isPush, outside, outside, [], body, position, rest, rfl, rfl⟩
  | @later command rest machine next stopped opened fault done _ inductionHypothesis =>
      have kept := stackKept_of_execute inScope done
      obtain ⟨isPush, outside, stoppedOutside, before, body, position, after, rfl, beforeDone⟩ :=
        inductionHypothesis structural kept.inScope
      have startedOutside : machine.store.stack.frames = [] := by
        have sameDepth := kept.callDepth_eq
        rw [Store.callDepth_eq, Store.callDepth_eq, outside] at sameDepth
        exact List.eq_nil_of_length_eq_zero sameDepth.symm
      refine ⟨isPush, startedOutside, stoppedOutside, command :: before, body, position, after,
        rfl, ?_⟩
      rw [execute_cons, bind_of_ok done, beforeDone]
  | inBlock pushed _ inductionHypothesis =>
      obtain ⟨store, granted, rfl⟩ := Store.requests_pushScope.onStore_granted pushed
      cases granted with
      | pushScope active =>
          obtain ⟨_, outside, _⟩ :=
            inductionHypothesis structural
              (Store.inScope_of_active rfl (Frame.scopes_pushScope_ne_nil _))
          contradiction
  | inFrame pushed _ inductionHypothesis =>
      obtain ⟨inFrame, active⟩ := active_of_pushed Store.requests_pushFrame rfl pushed
      exact absurd (inductionHypothesis structural inFrame).2.1 active
  | @inCall name actuals _ _ definition _ _ _ _ _ found pushed _ inductionHypothesis =>
      obtain ⟨inFrame, active⟩ :=
        active_of_pushed (Store.requests_pushCallFrame name definition.formals actuals) rfl pushed
      exact absurd (inductionHypothesis structural inFrame).2.1 active

/-- A script that meets such a fault meets it at a block of its own, outside all frames. -/
theorem runScript_of_structural
    {commands : List Command}
    (inScope : machine.store.InScope)
    (failed : runScript commands machine = .error fault stopped)
    (structural : fault.isStructural = true) :
    fault = .noFrame .pushScope ∧ machine.store.stack.frames = [] ∧
      stopped.store.stack.frames = [] ∧
      ∃ before body position after,
        functionsFirst commands = before ++ .block body position :: after ∧
          execute before machine = .ok () stopped := by
  rw [runScript_eq] at failed
  obtain ⟨opened, stops⟩ := exists_stopsAt inScope failed
  exact stops.of_structural structural inScope

/-- A call whose frame has been pushed finds the body that belongs to the parameters. -/
theorem onStore_bodyOf_of_entered
    {name : String} {formals actuals : List String} {looked entered : Machine}
    (found : onStore (Store.formalsOf name) machine = .ok formals looked)
    (pushed : onStore (Store.pushCallFrame name formals actuals) looked = .ok () entered) :
    ∃ definition,
      machine.store.functions.find? name = some definition ∧ definition.formals = formals ∧
        onStore (Store.bodyOf name) entered = .ok definition.body entered := by
  obtain ⟨lookedStore, foundGranted, rfl⟩ := (Store.requests_formalsOf name).onStore_granted found
  obtain ⟨enteredStore, pushGranted, rfl⟩ :=
    (Store.requests_pushCallFrame name formals actuals).onStore_granted pushed
  cases foundGranted with
  | @formalsOf _ definition isFound =>
      refine ⟨definition, isFound, rfl, ?_⟩
      apply (Store.requests_bodyOf name).onStore_of_granted
      cases pushGranted with
      | pushCallFrame => exact .bodyOf isFound

end Run

/--
A script on a machine whose current frame, if there is one, has a scope. It never tries
to close the base scope of a frame, nor to close a scope or to pop a frame where there is
none. If it tries to open a scope where there is no frame, then it has started outside
all frames, and it stops outside all of them at a block that is one of its own commands,
not part of a frame or of a function, when all commands before that have finished.

On no machine can a call that has found the parameters of its function, and pushed its
frame, fail to find the body.
-/
theorem structural_faults_do_not_occur
    {machine : Machine}
    (inScope : machine.store.InScope)
    (commands : List Command) :
    (∀ function stopped,
      runScript commands machine ≠ .error (.scopeUnderflow function) stopped) ∧
    (∀ stopped, runScript commands machine ≠ .error (.noFrame .popScope) stopped) ∧
    (∀ stopped, runScript commands machine ≠ .error (.noFrame .popFrame) stopped) ∧
    (∀ stopped,
      runScript commands machine = .error (.noFrame .pushScope) stopped →
        machine.store.stack.frames = [] ∧
          stopped.store.stack.frames = [] ∧
          ∃ before body position after,
            functionsFirst commands = before ++ .block body position :: after ∧
              execute before machine = .ok () stopped) ∧
    ∀ calling looked entered name formals actuals,
      onStore (Store.formalsOf name) calling = .ok formals looked →
        onStore (Store.pushCallFrame name formals actuals) looked = .ok () entered →
          ∃ body, onStore (Store.bodyOf name) entered = .ok body entered := by
  refine ⟨?_, ?_, ?_, ?_, ?_⟩
  · intro function stopped failed
    have isPush := (runScript_of_structural inScope failed rfl).1
    contradiction
  · intro stopped failed
    have isPush := (runScript_of_structural inScope failed rfl).1
    contradiction
  · intro stopped failed
    have isPush := (runScript_of_structural inScope failed rfl).1
    contradiction
  · intro stopped failed
    exact (runScript_of_structural inScope failed rfl).2
  · intro calling looked entered name formals actuals found pushed
    obtain ⟨definition, _, _, foundBody⟩ := onStore_bodyOf_of_entered found pushed
    exact ⟨definition.body, foundBody⟩

/-- A script with blocks in a frame and in a function, and one outside both. -/
def strayBlockScript : List Command :=
  [.frame [.block [.declare .int "x" ⟨3, 5⟩] ⟨2, 3⟩, .call "nested" [] ⟨4, 3⟩] ⟨1, 1⟩,
    .block [.declare .int "x" ⟨6, 3⟩] ⟨5, 1⟩,
    .function "nested" [] [.block [.frame [] ⟨9, 5⟩] ⟨8, 3⟩] ⟨7, 1⟩]

/-- A machine that is outside all frames. -/
def outsideMachine : Machine :=
  Machine.onStore (Store.initial Settings.standard)

/-- The block outside is where it stops. -/
theorem strayBlockScript_stops_outside_frames :
    ∃ stopped before body position after,
      runScript strayBlockScript outsideMachine = .error (.noFrame .pushScope) stopped ∧
        stopped.store.stack.frames = [] ∧
        functionsFirst strayBlockScript = before ++ .block body position :: after ∧
        execute before outsideMachine = .ok () stopped := by
  have isFault :
      fault? (runScript strayBlockScript) outsideMachine = some (.noFrame .pushScope) := by
    decide +kernel
  have inScope : outsideMachine.store.InScope := by
    intro frame callers active
    cases active
  have failed := eq_error_of_fault? isFault
  obtain ⟨-, outside, before, body, position, after, atBlock, done⟩ :=
    (structural_faults_do_not_occur inScope strayBlockScript).2.2.2.1 _ failed
  exact ⟨_, before, body, position, after, failed, outside, atBlock, done⟩

end RefScript
