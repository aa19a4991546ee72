import RefScript.Proofs.Execution.Noninterference
import RefScript.Proofs.Execution.StackDiscipline
import RefScript.Proofs.Store.Padding

namespace RefScript

/-!
# Blocks that declare nothing

A block whose commands declare nothing themselves could as well be left open: its
scope stays empty, and nobody sees an empty scope. The block and its body have the
same outcome. While the body is executed the frame has an empty scope more, and if
a fault stops the run that scope is still there.
-/

/-- Whether a command declares a variable. -/
def Command.isDeclaration : Command → Bool
  | .declare .. => true
  | _ => false

/-- What is no declaration declares no name. -/
theorem Command.declaredKind?_of_not_isDeclaration
    {command : Command}
    (notDeclaration : command.isDeclaration = false)
    (name : String) :
    command.declaredKind? name = none := by
  cases command with
  | declare => contradiction
  | _ => rfl

/--
The other machine is the machine with an empty scope more in the frame that has
come from the base frame, which has the given callers.
-/
inductive Machine.Padded (base : Frame) (callers : List Frame) : Machine → Machine → Prop where
  | intro
      {machine : Machine} {above : List Frame} {frame frame' : Frame}
      (isPadded : Frame.Padded base frame frame')
      (frames : machine.store.stack.frames = above ++ frame :: callers) :
      Padded base callers machine (machine.withFrames (above ++ frame' :: callers))

section Simulation

variable {base current : Frame} {callers : List Frame} {machine other : Machine}

/-- Machines that differ only in and below that frame, differ in the empty scope. -/
theorem Machine.SameAbove.padded
    {frame frame' : Frame}
    (related : SameAbove (frame :: callers) (frame' :: callers) machine other)
    (isPadded : Frame.Padded base frame frame') :
    Padded base callers machine other := by
  cases related with
  | intro frames => exact .intro isPadded frames

namespace Machine.Padded

/-- Where the frame is the current one, the stores differ in it. -/
theorem store
    (padded : Padded base callers machine other)
    (active : machine.store.stack.frames = current :: callers) :
    ∃ current',
      Frame.Padded base current current' ∧
        other = machine.withFrames (current' :: callers) := by
  cases padded with
  | @intro above frame frame' isPadded frames =>
      rw [active] at frames
      have sameLength := congrArg List.length frames
      simp only [List.length_append, List.length_cons] at sameLength
      have noneAbove : above = [] :=
        List.eq_nil_of_length_eq_zero (by omega)
      subst noneAbove
      cases frames
      exact ⟨frame', isPadded, rfl⟩

theorem of_store
    {next next' : Store (List Command)}
    (padded : Store.Padded base callers next next') :
    Padded base callers { machine with store := next } { machine with store := next' } := by
  cases padded with
  | @intro current current' active isPadded =>
      have related :
          Machine.SameAbove (current :: callers) (current' :: callers)
            { machine with store := next }
            (Machine.withFrames { machine with store := next } ([] ++ current' :: callers)) :=
        .intro active
      exact related.padded isPadded

end Machine.Padded

/-- A request to which the empty scope is nothing has the same outcome with it. -/
private theorem padded_request
    {α : Type}
    {action : Store.Action (List Command) α}
    {operation : Operation (List Command)}
    {reply : α → Reply (List Command)}
    (requests : Store.Requests action operation reply)
    (stays : operation.depthChange = 0)
    (padded : machine.Padded base callers other)
    (nonempty : base.scopes ≠ [])
    (active : machine.store.stack.frames = current :: callers)
    (spared : Store.Spared base current.scopeDepth operation) :
    SameOutcome (Machine.Padded base callers)
      (onStore action machine) (onStore action other) := by
  obtain ⟨current', isPadded, rfl⟩ := padded.store active
  have storePadded :
      Store.Padded base callers machine.store (machine.store.withFrames (current' :: callers)) :=
    .intro active isPadded
  apply requests.sameOutcome
  · intro value store granted
    obtain ⟨store', grantedToo, after⟩ := granted.padded storePadded active nonempty stays spared
    exact ⟨store', grantedToo, .of_store after⟩
  · intro fault refused
    exact refused.padded storePadded active nonempty stays spared
  · exact padded

private theorem padded_emit
    (value : Word)
    (padded : machine.Padded base callers other) :
    SameOutcome (Machine.Padded base callers) (emit value machine) (emit value other) := by
  cases padded with
  | intro isPadded frames =>
      obtain ⟨store, printed, echo⟩ := machine
      cases echo <;> exact .ok (.intro isPadded frames)

/--
What commands may declare themselves: anything inside a further scope, and nothing
where the empty scope is the innermost one.
-/
def Plain (base current : Frame) (commands : List Command) : Prop :=
  base.scopeDepth < current.scopeDepth ∨ ∀ command ∈ commands, command.isDeclaration = false

theorem Plain.imp
    {frame : Frame} {commands chosen : List Command}
    (plain : Plain base current commands)
    (sameDepth : frame.scopeDepth = current.scopeDepth)
    (isPart : chosen ⊆ commands) :
    Plain base frame chosen := by
  rcases plain with inside | plain
  · rw [← sameDepth] at inside
    exact Or.inl inside
  · exact Or.inr fun command member => plain command (isPart member)

/-- A command without a body that may declare what it declares has the same outcome. -/
private theorem padded_simple
    {command : Command}
    (simple : command.isSimple = true)
    (padded : machine.Padded base callers other)
    (nonempty : base.scopes ≠ [])
    (active : machine.store.stack.frames = current :: callers)
    (plain : Plain base current [command]) :
    SameOutcome (Machine.Padded base callers)
      (execute [command] machine) (execute [command] other) := by
  have isStep := simpleStep_of_isSimple simple
  have declares :
      base.scopeDepth < current.scopeDepth ∨ ∀ name, command.declaredKind? name = none :=
    plain.imp_right fun notDeclarations =>
      Command.declaredKind?_of_not_isDeclaration (notDeclarations command List.mem_cons_self)
  generalize execute [command] = step, command.declaredKind? = declared at isStep declares ⊢
  cases isStep with
  | @request _ _ operation _ requests stays =>
      have notPop : operation ≠ .popScope := by
        intro isPop
        rw [isPop] at stays
        contradiction
      apply SameOutcome.bind
        (padded_request requests (Operation.depthChange_of_movesScopes stays) padded nonempty
          active (declares.imp_right fun declaresNothing => ⟨notPop, declaresNothing⟩))
      intro _ next next' _ after
      exact .ok after
  | input name =>
      apply SameOutcome.bind
        (padded_request Store.requests_nextData rfl padded nonempty active
          (Or.inr ⟨nofun, fun _ => rfl⟩))
      intro value next next' taken after
      obtain ⟨store, granted, rfl⟩ := Store.requests_nextData.onStore_granted taken
      have sameStack : store.stack = machine.store.stack := by
        cases granted
        rfl
      rw [← sameStack] at active
      exact padded_request (Store.requests_write name value) rfl after nonempty active
        (Or.inr ⟨nofun, fun _ => rfl⟩)
  | print name =>
      apply SameOutcome.bind
        (padded_request (Store.requests_read name) rfl padded nonempty active
          (Or.inr ⟨nofun, fun _ => rfl⟩))
      intro value next next' _ after
      exact padded_emit value after

/-- A body in a scope of its own has the same outcome, since it may declare anything there. -/
private theorem padded_scope
    (padded : machine.Padded base callers other)
    (nonempty : base.scopes ≠ [])
    (active : machine.store.stack.frames = current :: callers)
    {body : List Command}
    (bodySame :
      ∀ entered entered',
        onStore Store.pushScope machine = .ok () entered →
          entered.Padded base callers entered' →
            entered.store.stack.frames = current.pushScope :: callers →
              base.scopeDepth < current.pushScope.scopeDepth →
                SameOutcome (Machine.Padded base callers)
                  (execute body entered) (execute body entered')) :
    SameOutcome (Machine.Padded base callers)
      ((do onStore Store.pushScope; execute body; onStore Store.popScope) machine)
      ((do onStore Store.pushScope; execute body; onStore Store.popScope) other) := by
  apply SameOutcome.bind
    (padded_request Store.requests_pushScope rfl padded nonempty active
      (Or.inr ⟨nofun, fun _ => rfl⟩))
  intro _ entered entered' pushed enteredPadded
  have activeEntered : entered.store.stack.frames = current.pushScope :: callers := by
    obtain ⟨store, granted, rfl⟩ := Store.requests_pushScope.onStore_granted pushed
    cases granted with
    | pushScope activeToo =>
        rw [active] at activeToo
        cases activeToo
        rfl
  obtain ⟨_, isPadded, _⟩ := padded.store active
  have inside : base.scopeDepth < current.pushScope.scopeDepth :=
    Nat.lt_succ_of_le isPadded.scopeDepth_le
  apply SameOutcome.bind (bodySame entered entered' pushed enteredPadded activeEntered inside)
  intro _ between between' bodyDone betweenPadded
  have inScope := Store.inScope_of_active activeEntered current.scopes_pushScope_ne_nil
  obtain ⟨top, activeBetween, kept, _⟩ :=
    (stackKept_of_execute inScope bodyDone).frames_of_active activeEntered
  rw [← kept.scopeDepth_eq] at inside
  exact padded_request Store.requests_popScope rfl betweenPadded nonempty activeBetween
    (Or.inl inside)

private theorem length_le_of_active
    (active : machine.store.stack.frames = current :: callers) :
    (current :: callers).length ≤ machine.store.callDepth := by
  have sameLength := congrArg List.length active
  rw [← Store.callDepth_eq] at sameLength
  exact Nat.le_of_eq sameLength.symm

private theorem sameAbove_of_active
    (active : machine.store.stack.frames = current :: callers)
    (current' : Frame) :
    Machine.SameAbove (current :: callers) (current' :: callers) machine
      (machine.withFrames (current' :: callers)) := by
  have frames : machine.store.stack.frames = [] ++ current :: callers := active
  exact .intro frames

private theorem padded_of_sameAbove
    {current' : Frame} {outcome outcome' : EStateM.Result Fault Machine Unit}
    (isPadded : Frame.Padded base current current')
    (same :
      SameOutcome (Machine.SameAbove (current :: callers) (current' :: callers))
        outcome outcome') :
    SameOutcome (Machine.Padded base callers) outcome outcome' :=
  same.imp fun after => after.padded isPadded

/--
Commands that declare nothing next to the empty scope have the same outcome with it
as without it.
-/
theorem padded_execute
    {commands : List Command}
    (padded : machine.Padded base callers other)
    (nonempty : base.scopes ≠ [])
    (active : machine.store.stack.frames = current :: callers)
    (plain : Plain base current commands) :
    SameOutcome (Machine.Padded base callers)
      (execute commands machine) (execute commands other) := by
  induction commands, machine using execute_induction generalizing other current with
  | nil machine =>
      exact .ok padded
  | cons command rest machine first later =>
      rw [execute_cons]
      apply SameOutcome.bind
        (first padded active (plain.imp rfl (List.cons_subset_cons _ (List.nil_subset _))))
      intro _ between between' done betweenPadded
      obtain ⟨_, isPadded, _⟩ := padded.store active
      have inScope := Store.inScope_of_active active (isPadded.scopes_ne_nil nonempty)
      obtain ⟨top, activeBetween, kept, _⟩ :=
        (stackKept_of_execute inScope done).frames_of_active active
      exact later between done betweenPadded activeBetween
        (plain.imp kept.scopeDepth_eq (List.subset_cons_self _ _))
  | simple command machine simple =>
      exact padded_simple simple padded nonempty active plain
  | block body position machine inBody =>
      rw [execute_block]
      exact padded_scope padded nonempty active
        fun entered entered' pushed enteredPadded activeEntered inside =>
          inBody entered pushed enteredPadded activeEntered (Or.inl inside)
  | frame body position machine inBody =>
      -- Within a frame of its own, the body does not see the empty scope at all.
      obtain ⟨current', isPadded, rfl⟩ := padded.store active
      have related := sameAbove_of_active active current'
      have sameLength : (current' :: callers).length = (current :: callers).length := rfl
      have same := Store.samePush_pushFrame (related.callDepth_eq sameLength) related.settings_eq
      apply padded_of_sameAbove isPadded
      rw [execute_frame]
      apply sameOutcome_framed Store.requests_pushFrame rfl same related
        (length_le_of_active active)
      intro entered entered' _ enteredSame inside
      exact sameOutcome_execute sameLength enteredSame inside
  | call name actuals position machine inBody =>
      obtain ⟨current', isPadded, rfl⟩ := padded.store active
      have related := sameAbove_of_active active current'
      have sameLength : (current' :: callers).length = (current :: callers).length := rfl
      have sees := (Store.Padded.intro active isPadded).find?_eq
      apply padded_of_sameAbove isPadded
      apply sameOutcome_call sameLength related (length_le_of_active active)
      · exact fun actual _ => congrArg (Option.map Cell.value) (sees actual).symm
      · intro definition entered entered' _ _ enteredSame inside
        exact sameOutcome_execute sameLength enteredSame inside

end Simulation

/-- A frame in which a scope has just been opened, has an empty scope more. -/
theorem Frame.padded_pushScope (frame : Frame) : Padded frame frame frame.pushScope :=
  .intro [] frame.scopes rfl

/-- The end of an empty scope ends no reference, so that there is nothing to recount. -/
theorem Store.endScopes_empty
    {store : Store (List Command)}
    (consistent : Consistent store) :
    store.endScopes [Scope.empty] = store :=
  recount_of_current consistent.countCurrent

/-- After commands that have left the empty scope the innermost one, it is closed for nothing. -/
theorem onStore_popScope_of_padded
    {base top : Frame} {callers : List Frame} {machine other : Machine}
    (padded : machine.Padded base callers other)
    (nonempty : base.scopes ≠ [])
    (active : machine.store.stack.frames = top :: callers)
    (innermost : top.scopeDepth = base.scopeDepth)
    (consistent : Store.Consistent machine.store) :
    onStore Store.popScope other = .ok () machine := by
  obtain ⟨top', isPadded, rfl⟩ := padded.store active
  have popped := isPadded.popScope?_of_innermost nonempty innermost
  have granted :
      Store.Granted (machine.store.withFrames (top' :: callers)) .popScope .done
        ((machine.store.withFrames (top :: callers)).endScopes [Scope.empty]) :=
    .popScope rfl popped
  rw [Store.withFrames_self machine.store active, Store.endScopes_empty consistent] at granted
  exact Store.requests_popScope.onStore_of_granted granted

/--
A block of commands among which there is no declaration does what the commands do,
executed on a reachable machine in the current frame. Either both finish, and leave
the same machine, or both meet the same fault. Then the machines differ in one thing:
the frame that was the current one has an empty scope more, if it is the block that
has been stopped.
-/
theorem plain_blocks_are_transparent
    {machine : Machine}
    (reachable : machine.Reachable)
    {current : Frame} {callers : List Frame}
    (active : machine.store.stack.frames = current :: callers)
    {body : List Command}
    (plain : ∀ command ∈ body, command.isDeclaration = false)
    (position : Position) :
    (∃ next,
        execute body machine = .ok () next ∧
          execute [.block body position] machine = .ok () next) ∨
      ∃ fault stopped stopped',
        execute body machine = .error fault stopped ∧
          execute [.block body position] machine = .error fault stopped' ∧
            stopped.Padded current callers stopped' := by
  have inScope := reachable.consistent.inScope
  have nonempty := inScope current callers active
  have pushed :
      onStore Store.pushScope machine =
        .ok () (machine.withFrames (current.pushScope :: callers)) :=
    Store.requests_pushScope.onStore_of_granted (.pushScope active)
  have entered : machine.Padded current callers
      (machine.withFrames (current.pushScope :: callers)) :=
    (sameAbove_of_active active current.pushScope).padded current.padded_pushScope
  have same := padded_execute entered nonempty active (Or.inr plain)
  rw [execute_block, bind_of_ok pushed]
  generalize outcome : execute body machine = result,
    outcome' : execute body (machine.withFrames (current.pushScope :: callers)) = result' at same
  cases same with
  | @ok _ next next' after =>
      obtain ⟨top, activeAfter, kept, _⟩ :=
        (stackKept_of_execute inScope outcome).frames_of_active active
      have consistent :=
        Machine.stable_consistent.steady.leaves_execute body machine reachable.consistent
      rw [leaves_of_ok outcome] at consistent
      refine Or.inl ⟨next, rfl, ?_⟩
      rw [bind_of_ok outcome']
      exact onStore_popScope_of_padded after nonempty activeAfter kept.scopeDepth_eq consistent
  | @error fault stopped stopped' after =>
      refine Or.inr ⟨fault, stopped, stopped', rfl, ?_, after⟩
      exact bind_of_error outcome'

/-- A repeated call, before which the slot that its argument designates is filled. -/
def preparedCall : List Command :=
  [.frame
      [.declare .ref "r" ⟨2, 3⟩, .allocate "r" ⟨3, 3⟩, .assign "r" 7 ⟨4, 3⟩]
      ⟨1, 1⟩,
    repeatedCall]

/-- With the slot the call is finished in a block as without one, and else it is abandoned. -/
theorem repeatedCall_in_plain_block :
    (∃ next,
        execute preparedCall abandonedMachine = .ok () next ∧
          execute [.block preparedCall ⟨1, 1⟩] abandonedMachine = .ok () next) ∧
      ∃ current callers fault stopped stopped',
        abandonedMachine.store.stack.frames = current :: callers ∧
          execute [repeatedCall] abandonedMachine = .error fault stopped ∧
            execute [.block [repeatedCall] ⟨1, 1⟩] abandonedMachine = .error fault stopped' ∧
              stopped.Padded current callers stopped' := by
  have someFrame : abandonedMachine.store.stack.frames.isEmpty = false := by
    decide +kernel
  obtain ⟨current, callers, active⟩ :=
    List.exists_cons_of_ne_nil (List.isEmpty_eq_false_iff.mp someFrame)
  have preparedPlain : ∀ command ∈ preparedCall, command.isDeclaration = false := by
    simp [preparedCall, repeatedCall, Command.isDeclaration]
  have repeatedPlain : ∀ command ∈ [repeatedCall], command.isDeclaration = false := by
    simp [repeatedCall, Command.isDeclaration]
  constructor
  · have isFinished : finishes (execute preparedCall) abandonedMachine = true := by
      decide +kernel
    obtain ⟨_, next, done⟩ := exists_ok_of_finishes isFinished
    have transparent :=
      plain_blocks_are_transparent reachable_abandonedMachine active preparedPlain ⟨1, 1⟩
    rw [done] at transparent
    rcases transparent with finished | ⟨_, _, _, impossible, _⟩
    · rw [done]
      exact finished
    · cases impossible
  · have isStopped : finishes (execute [repeatedCall]) abandonedMachine = false := by
      decide +kernel
    obtain ⟨fault, stopped, failed⟩ := exists_error_of_not_finishes isStopped
    have transparent :=
      plain_blocks_are_transparent reachable_abandonedMachine active repeatedPlain ⟨1, 1⟩
    rcases transparent with ⟨_, impossible, _⟩ | inBoth
    · rw [failed] at impossible
      cases impossible
    · obtain ⟨fault, stopped, stopped', failed, failedToo, padded⟩ := inBoth
      exact ⟨current, callers, fault, stopped, stopped', active, failed, failedToo, padded⟩

end RefScript
