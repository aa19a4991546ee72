import RefScript.Proofs.Execution.Recursion

namespace RefScript

/-!
# Every run ends

Two accounts of why. Execution is a recursion on the room on the call stack and
the size of the commands still to be executed in the current body: a body that
is entered in a frame may be of any size, but there is less room for it, and
once it is finished there is as much room as before. And a machine that works
through a list of tasks, one request after the other and without any bound on
the frames, is done with every script after finitely many steps, with the same
outcome.
-/

/-! ## The size of commands -/

mutual

/-- The number of commands that a command consists of, those in its body included. -/
def Command.size : Command → Nat
  | .block body _ | .frame body _ | .function _ _ body _ => Command.sizeAll body + 1
  | _ => 1

/-- The number of commands in a body, those in their bodies included. -/
def Command.sizeAll : List Command → Nat
  | [] => 0
  | command :: rest => command.size + Command.sizeAll rest

end

theorem Command.size_pos (command : Command) : 0 < command.size := by
  cases command <;> simp [Command.size]

/-! ## Recursion on the room and the size -/

/-- Execute one command, where `run` executes the body that it holds or enters. -/
def Command.runBy (run : List Command → Execution Unit) : Command → Execution Unit
  | .block body _ => do
      onStore Store.pushScope
      run body
      onStore Store.popScope
  | .frame body _ => do
      onStore Store.pushFrame
      run body
      onStore Store.popFrame
  | .call name actuals _ => do
      let formals ← onStore (Store.formalsOf name)
      onStore (Store.pushCallFrame name formals actuals)
      let body ← onStore (Store.bodyOf name)
      run body
      onStore Store.popFrame
  | command => command.run fun _ => pure ()

/-- Execute commands, where `run` executes their bodies, and those that remain after each. -/
def runAllBy (run : List Command → Execution Unit) : List Command → Execution Unit
  | [] => pure ()
  | command :: rest => do
      command.runBy run
      run rest

/--
There is less to be done for the first commands than for the second ones: less
room on the call stack, or as much room and fewer commands.
-/
def LessToRun (first second : List Command × Machine) : Prop :=
  Prod.Lex (· < ·) (· < ·)
    (first.2.room, Command.sizeAll first.1)
    (second.2.room, Command.sizeAll second.1)

theorem wellFounded_lessToRun : WellFounded LessToRun :=
  InvImage.wf (fun run : List Command × Machine => (run.2.room, Command.sizeAll run.1))
    (Prod.lex ⟨_, Nat.lt_wfRel.wf⟩ ⟨_, Nat.lt_wfRel.wf⟩).wf

section LessToRun

variable {commands body : List Command} {machine between : Machine}

theorem lessToRun_of_room (lessRoom : between.room < machine.room) :
    LessToRun (body, between) (commands, machine) :=
  .left _ _ lessRoom

theorem lessToRun_of_size
    (sameRoom : between.room = machine.room)
    (smaller : Command.sizeAll body < Command.sizeAll commands) :
    LessToRun (body, between) (commands, machine) := by
  unfold LessToRun
  rw [sameRoom]
  exact .right _ smaller

end LessToRun

/-- A command without a body enters nothing. -/
theorem run_of_isSimple
    {command : Command}
    (simple : command.isSimple = true)
    (enter : List Command → Execution Unit) :
    command.run enter = execute [command] := by
  cases command with
  | declare kind name position => exact (execute_declare name position kind).symm
  | allocate name position => exact (execute_allocate name position).symm
  | assign name value position => exact (execute_assign name position value).symm
  | copy target source position => exact (execute_copy position target source).symm
  | input name position => exact (execute_input name position).symm
  | print name position => exact (execute_print name position).symm
  | function name formals body position =>
      exact (execute_function name position formals body).symm
  | block | frame | call => contradiction

/--
A body in a frame of its own is executed alike by all that agree where there is
less room: the push has taken some.
-/
private theorem framed_congr
    {push : Store.Action (List Command) Unit}
    {operation : Operation (List Command)}
    (requests : Store.Requests push operation fun _ => .done)
    (pushes : operation.depthChange = 1)
    {run : List Command → Execution Unit}
    {body : List Command}
    {machine : Machine}
    (agree : ∀ entered, entered.room < machine.room → run body entered = execute body entered) :
    (do onStore push; run body; onStore Store.popFrame) machine =
      (do onStore push; execute body; onStore Store.popFrame) machine := by
  apply bind_congr_of_ok rfl
  intro _ entered pushed
  have lessRoom := room_of_push requests pushes pushed
  apply bind_congr_of_ok (agree entered (by omega))
  intros
  rfl

/-- One command asks only for executions with less room, or of its body in the same room. -/
theorem runBy_eq_execute
    {run : List Command → Execution Unit}
    {command : Command} {rest : List Command}
    {machine : Machine}
    (agree :
      ∀ body between,
        LessToRun (body, between) (command :: rest, machine) →
          run body between = execute body between) :
    command.runBy run machine = execute [command] machine := by
  cases command with
  | block body position =>
      rw [execute_block]
      apply bind_congr_of_ok rfl
      intro _ entered pushed
      have sameRoom := room_of_deepens (Deepens.request Store.requests_pushScope) pushed
      have smaller : Command.sizeAll body < Command.sizeAll (.block body position :: rest) := by
        simp only [Command.sizeAll, Command.size]
        omega
      apply bind_congr_of_ok (agree body entered (lessToRun_of_size sameRoom smaller))
      intros
      rfl
  | frame body position =>
      rw [execute_frame]
      exact framed_congr Store.requests_pushFrame rfl fun entered lessRoom =>
        agree body entered (lessToRun_of_room lessRoom)
  | call name actuals position =>
      cases found : machine.store.functions.find? name with
      | none =>
          rw [execute_call_of_missing found]
          exact bind_of_error (onStore_formalsOf_of_missing found)
      | some definition =>
          rw [execute_call_of_found found]
          apply (enterCall_of_found found actuals _).trans
          exact framed_congr (Store.requests_pushCallFrame name definition.formals actuals) rfl
            fun entered lessRoom => agree definition.body entered (lessToRun_of_room lessRoom)
  | _ =>
      exact congrFun (run_of_isSimple rfl _) machine

/-- What commands do is settled by what executions with less to be done do. -/
theorem runAllBy_eq_execute
    {run : List Command → Execution Unit}
    {commands : List Command}
    {machine : Machine}
    (agree :
      ∀ smaller between,
        LessToRun (smaller, between) (commands, machine) →
          run smaller between = execute smaller between) :
    runAllBy run commands machine = execute commands machine := by
  cases commands with
  | nil =>
      rfl
  | cons command rest =>
      rw [execute_cons]
      apply bind_congr_of_ok (runBy_eq_execute agree)
      intro _ next done
      rw [runBy_eq_execute agree] at done
      have sameRoom := room_of_deepens (execute_deepens [command]) done
      have fewer : Command.sizeAll rest < Command.sizeAll (command :: rest) :=
        Nat.lt_add_of_pos_left command.size_pos
      exact agree rest next (lessToRun_of_size sameRoom fewer)

/-! ## Steps without a bound on the frames -/

/-- What a machine has still to do. -/
inductive Task where
  | run (command : Command)
  /-- Leave the block that the tasks before have been in. -/
  | closeScope
  /-- Leave the frame that the tasks before have been in. -/
  | leaveFrame

/-- Do one task, giving the tasks that it brings up; they come before all others. -/
def Task.perform : Task → Execution (List Task)
  | .run (.block body _) => do
      onStore Store.pushScope
      pure (body.map .run ++ [.closeScope])
  | .run (.frame body _) => do
      onStore Store.pushFrame
      pure (body.map .run ++ [.leaveFrame])
  | .run (.call name actuals _) => do
      let formals ← onStore (Store.formalsOf name)
      onStore (Store.pushCallFrame name formals actuals)
      let body ← onStore (Store.bodyOf name)
      pure (body.map .run ++ [.leaveFrame])
  | .run command => do
      command.run fun _ => pure ()
      pure []
  | .closeScope => do
      onStore Store.popScope
      pure []
  | .leaveFrame => do
      onStore Store.popFrame
      pure []

/-- How a run has ended. -/
abbrev Outcome := EStateM.Result Fault Machine Unit

/-- How tasks end within a number of steps; there is no outcome while some are left. -/
def outcomeWithin : Nat → List Task → Machine → Option Outcome
  | _, [], machine => some (.ok () machine)
  | 0, _ :: _, _ => none
  | steps + 1, task :: rest, machine =>
      match task.perform machine with
      | .ok opened next => outcomeWithin steps (opened ++ rest) next
      | .error fault stopped => some (.error fault stopped)

/-- How further tasks end after an outcome: a fault leaves them out. -/
def Outcome.resume (steps : Nat) (rest : List Task) : Outcome → Option Outcome
  | .ok _ next => outcomeWithin steps rest next
  | .error fault stopped => some (.error fault stopped)

/-- The tasks take some number of steps to come to an outcome, whatever follows them. -/
def ComesTo (tasks : List Task) (machine : Machine) (outcome : Outcome) : Prop :=
  ∃ count, ∀ steps rest,
    outcomeWithin (count + steps) (tasks ++ rest) machine = outcome.resume steps rest

namespace ComesTo

theorem nil (machine : Machine) : ComesTo [] machine (.ok () machine) :=
  ⟨0, fun steps rest => by rw [Nat.zero_add, List.nil_append, Outcome.resume]⟩

/-- A task that is refused ends the run. -/
theorem refused
    {task : Task} {machine stopped : Machine} {fault : Fault}
    (failed : task.perform machine = .error fault stopped) :
    ComesTo [task] machine (.error fault stopped) := by
  refine ⟨1, fun steps rest => ?_⟩
  rw [Nat.add_comm, List.singleton_append, outcomeWithin, failed, Outcome.resume]

/-- A task that starts with a step ends with it, or as the tasks do that it then brings up. -/
theorem of_perform
    {task : Task} {opened : List Task} {step later : Execution Unit} {machine : Machine}
    (performs : task.perform machine = (do step; pure opened) machine)
    (comes : ∀ next, step machine = .ok () next → ComesTo opened next (later next)) :
    ComesTo [task] machine ((do step; later) machine) := by
  cases outcome : step machine with
  | error fault stopped =>
      rw [bind_of_error outcome] at performs ⊢
      exact refused performs
  | ok _ next =>
      obtain ⟨count, reaches⟩ := comes next outcome
      rw [bind_of_ok outcome] at performs ⊢
      refine ⟨count + 1, fun steps rest => ?_⟩
      rw [Nat.add_right_comm, List.singleton_append, outcomeWithin, performs]
      exact reaches steps rest

/-- A task that is a single step ends with it. -/
theorem of_step
    {task : Task} {step : Execution Unit}
    (performs : task.perform = (do step; pure []))
    (machine : Machine) :
    ComesTo [task] machine (step machine) := by
  have comes : ComesTo [task] machine ((do step; pure ()) machine) :=
    of_perform (congrFun performs machine) fun next _ => nil next
  rwa [bind_pure_unit] at comes

/-- Tasks in two parts end as the first part does, or else as the second. -/
theorem append
    {first second : List Task} {step later : Execution Unit} {machine : Machine}
    (comes : ComesTo first machine (step machine))
    (comesLater :
      ∀ next, step machine = .ok () next → ComesTo second next (later next)) :
    ComesTo (first ++ second) machine ((do step; later) machine) := by
  obtain ⟨count, reaches⟩ := comes
  cases outcome : step machine with
  | error fault stopped =>
      rw [bind_of_error outcome]
      refine ⟨count, fun steps rest => ?_⟩
      rw [List.append_assoc, reaches, outcome]
      rfl
  | ok _ next =>
      obtain ⟨countLater, reachesLater⟩ := comesLater next outcome
      rw [bind_of_ok outcome]
      refine ⟨count + countLater, fun steps rest => ?_⟩
      rw [Nat.add_assoc, List.append_assoc, reaches, outcome]
      exact reachesLater steps rest

/-- A body between an opening and a closing step ends as it does when it is executed. -/
theorem of_body
    {task : Task} {opening closing : Execution Unit} {body : List Command}
    {machine : Machine}
    (closer : Task)
    (performs :
      task.perform machine = (do opening; pure (body.map Task.run ++ [closer])) machine)
    (closes : closer.perform = (do closing; pure []))
    (inside :
      ∀ entered,
        opening machine = .ok () entered →
          ComesTo (body.map Task.run) entered (execute body entered)) :
    ComesTo [task] machine ((do opening; execute body; closing) machine) :=
  of_perform performs fun entered opened =>
    (inside entered opened).append fun between _ => of_step closes between

end ComesTo

/-- Working through commands comes to the outcome of their execution. -/
theorem comesTo_execute (commands : List Command) (machine : Machine) :
    ComesTo (commands.map .run) machine (execute commands machine) := by
  induction commands, machine using execute_induction with
  | nil machine =>
      exact .nil machine
  | cons command rest machine first later =>
      rw [execute_cons]
      exact first.append later
  | simple command machine simple =>
      apply ComesTo.of_step
      cases command with
      | block | frame | call => contradiction
      | _ => rw [← run_of_isSimple simple fun _ => pure ()]; rfl
  | block body position machine inside =>
      rw [execute_block]
      exact .of_body .closeScope rfl rfl inside
  | frame body position machine inside =>
      rw [execute_frame]
      exact .of_body .leaveFrame rfl rfl inside
  | call name actuals position machine inside =>
      cases found : machine.store.functions.find? name with
      | none =>
          rw [execute_call_of_missing found]
          exact .refused (bind_of_error (onStore_formalsOf_of_missing found))
      | some definition =>
          rw [execute_call_of_found found]
          exact .of_body .leaveFrame (enterCall_of_found found actuals _) rfl fun entered =>
            inside definition entered found

/-- How a script ends does not depend on the number of steps allowed, once it is large enough. -/
theorem ComesTo.exists_bound
    {tasks : List Task} {machine : Machine} {outcome : Outcome}
    (comes : ComesTo tasks machine outcome) :
    ∃ bound, ∀ steps, bound ≤ steps → outcomeWithin steps tasks machine = some outcome := by
  obtain ⟨count, reaches⟩ := comes
  refine ⟨count, fun steps enough => ?_⟩
  obtain ⟨more, rfl⟩ := Nat.exists_eq_add_of_le enough
  have reached := reaches more []
  rw [List.append_nil] at reached
  rw [reached]
  cases outcome <;> cases more <;> rfl

/--
From every machine, whatever its limit on the frames and its functions, all
commands and all scripts come to an end after finitely many steps, with the
outcome that execution gives.

That outcome is settled by well-founded recursion: the commands at hand ask only
for executions for which there is less room on the call stack, or as much room
and fewer commands left in the current body.
-/
theorem every_run_ends (commands : List Command) (machine : Machine) :
    (∃ bound, ∀ steps, bound ≤ steps →
      outcomeWithin steps (commands.map .run) machine =
        some (execute commands machine)) ∧
    (∃ bound, ∀ steps, bound ≤ steps →
      outcomeWithin steps ((functionsFirst commands).map .run) machine =
        some (runScript commands machine)) ∧
    WellFounded LessToRun ∧
    ∀ run : List Command → Execution Unit,
      (∀ smaller between,
        LessToRun (smaller, between) (commands, machine) →
          run smaller between = execute smaller between) →
      runAllBy run commands machine = execute commands machine := by
  refine ⟨(comesTo_execute commands machine).exists_bound, ?_, wellFounded_lessToRun, ?_⟩
  · rw [runScript_eq]
    exact (comesTo_execute (functionsFirst commands) machine).exists_bound
  · intro run agree
    exact runAllBy_eq_execute agree

/-- A function that registers itself anew before it calls itself. -/
def selfRenewing : List Command :=
  [.function "again" []
      [.function "again" [] [.call "again" [] ⟨2, 1⟩] ⟨1, 1⟩, .call "again" [] ⟨3, 1⟩] ⟨1, 1⟩,
    .call "again" [] ⟨5, 1⟩]

example :
    (outcomeWithin 7 ((functionsFirst selfRenewing).map .run)
      (Machine.onStore (Store.initial ⟨true, 3⟩))).isSome = true := by
  decide +kernel

end RefScript
