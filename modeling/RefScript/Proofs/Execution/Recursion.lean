import RefScript.Proofs.Execution.Depth

namespace RefScript

/-!
# Execution as a recursion without bounds

The bound on the frames that can be entered never stops a run: `execute` obeys
the recursion equations that one would write down without it, in which the body
of a frame is executed like any other commands. What holds of all commands is
therefore proved by the induction principle below, which takes the room on the
call stack first and the size of the commands second.
-/

/-- Without commands there is nothing to do. -/
@[simp] theorem execute_nil : execute [] = pure () :=
  rfl

private theorem execute_singleton (command : Command) (machine : Machine) :
    execute [command] machine = command.run (runBody machine.room) machine := by
  have lastDone :=
    bind_pure_unit (x := command.run (runBody machine.room))
  exact congrFun lastDone machine

/-- Commands are executed one after the other. -/
theorem execute_cons (command : Command) (rest : List Command) :
    execute (command :: rest) = (do execute [command]; execute rest) := by
  funext machine
  apply bind_congr_of_ok (execute_singleton command machine).symm
  intro _ between done
  rw [← execute_singleton] at done
  rw [execute, room_of_deepens (execute_deepens [command]) done]

section Simple

variable (name : String) (position : Position)

theorem execute_declare (kind : CellKind) :
    execute [.declare kind name position] = onStore (Store.declare name kind) := by
  funext machine
  exact execute_singleton (.declare kind name position) machine

theorem execute_allocate :
    execute [.allocate name position] = (do let _ ← onStore (Store.allocate name)) := by
  funext machine
  exact execute_singleton (.allocate name position) machine

theorem execute_assign (value : Word) :
    execute [.assign name value position] = onStore (Store.write name value) := by
  funext machine
  exact execute_singleton (.assign name value position) machine

theorem execute_copy (target source : String) :
    execute [.copy target source position] = onStore (Store.copy target source) := by
  funext machine
  exact execute_singleton (.copy target source position) machine

theorem execute_input :
    execute [.input name position] =
      (do let value ← onStore Store.nextData
          onStore (Store.write name value)) := by
  funext machine
  exact execute_singleton (.input name position) machine

theorem execute_print :
    execute [.print name position] =
      (do let value ← onStore (Store.read name)
          emit value) := by
  funext machine
  exact execute_singleton (.print name position) machine

theorem execute_function (formals : List String) (body : List Command) :
    execute [.function name formals body position] =
      onStore (Store.register name formals body) := by
  funext machine
  exact execute_singleton (.function name formals body position) machine

end Simple

/--
The steps that the commands without a body are: a request that neither opens nor
closes anything, the answer to which is dropped, or one that is followed by the
write or the print of its answer. The first argument says what is declared.
-/
inductive SimpleStep : (String → Option CellKind) → Execution Unit → Prop where
  | request
      {α : Type} {action : Store.Action (List Command) α}
      {operation : Operation (List Command)} {reply : α → Reply (List Command)}
      (requests : Store.Requests action operation reply)
      (stays : operation.movesScopes = false) :
      SimpleStep operation.declaredKind? (do let _ ← onStore action)
  | input
      (name : String) :
      SimpleStep (fun _ => none)
        (do let value ← onStore Store.nextData
            onStore (Store.write name value))
  | print
      (name : String) :
      SimpleStep (fun _ => none)
        (do let value ← onStore (Store.read name)
            emit value)

/-- A command without a body is executed in such a step. -/
theorem simpleStep_of_isSimple
    {command : Command}
    (simple : command.isSimple = true) :
    SimpleStep command.declaredKind? (execute [command]) := by
  have dropped (action : Store.Action (List Command) Unit) :
      onStore action = (do let _ ← onStore action) :=
    bind_pure_unit.symm
  cases command with
  | declare kind name position =>
      rw [execute_declare, dropped]
      exact .request (Store.requests_declare name kind) rfl
  | allocate name position =>
      rw [execute_allocate]
      exact .request (Store.requests_allocate name) rfl
  | assign name value position =>
      rw [execute_assign, dropped]
      exact .request (Store.requests_write name value) rfl
  | copy target source position =>
      rw [execute_copy, dropped]
      exact .request (Store.requests_copy target source) rfl
  | input name position =>
      rw [execute_input]
      exact .input name
  | print name position =>
      rw [execute_print]
      exact .print name
  | function name formals body position =>
      rw [execute_function, dropped]
      exact .request (Store.requests_register name formals body) rfl
  | block | frame | call =>
      contradiction

/-- A block executes its body in a scope of its own. -/
theorem execute_block (body : List Command) (position : Position) :
    execute [.block body position] =
      (do onStore Store.pushScope
          execute body
          onStore Store.popScope) := by
  funext machine
  apply (execute_singleton (.block body position) machine).trans
  show
    (do onStore Store.pushScope
        Command.runAll (runBody machine.room) body
        onStore Store.popScope) machine = _
  apply bind_congr_of_ok rfl
  intro _ entered pushed
  have sameRoom : entered.room = machine.room :=
    room_of_deepens (Deepens.request Store.requests_pushScope) pushed
  apply bind_congr_of_ok
  · rw [execute, sameRoom]
  · intros
    rfl

/-- A granted push of a frame takes one place of the room that there was. -/
theorem room_of_push
    {action : Store.Action (List Command) Unit}
    {operation : Operation (List Command)}
    {machine entered : Machine}
    (requests : Store.Requests action operation fun _ => .done)
    (pushes : operation.depthChange = 1)
    (pushed : onStore action machine = .ok () entered) :
    machine.room = entered.room + 1 := by
  obtain ⟨store, granted, rfl⟩ := requests.onStore_granted pushed
  have deeper := granted.callDepth_eq
  have settings := granted.settings_eq
  have room := granted.room_of_push pushes
  simp only [Machine.room, settings]
  omega

/-- A frame of the program executes its body between a push and a pop. -/
theorem execute_frame (body : List Command) (position : Position) :
    execute [.frame body position] =
      (do onStore Store.pushFrame
          execute body
          onStore Store.popFrame) := by
  funext machine
  apply (execute_singleton (.frame body position) machine).trans
  show
    (do onStore Store.pushFrame
        runBody machine.room body
        onStore Store.popFrame) machine = _
  apply bind_congr_of_ok rfl
  intro _ entered pushed
  have oneLess := room_of_push Store.requests_pushFrame rfl pushed
  apply bind_congr_of_ok
  · rw [oneLess, runBody, execute]
  · intros
    rfl

/-- A call executes the body that its function has once the frame is pushed. -/
theorem execute_call (name : String) (actuals : List String) (position : Position) :
    execute [.call name actuals position] =
      (do let formals ← onStore (Store.formalsOf name)
          onStore (Store.pushCallFrame name formals actuals)
          let body ← onStore (Store.bodyOf name)
          execute body
          onStore Store.popFrame) := by
  funext machine
  apply (execute_singleton (.call name actuals position) machine).trans
  show
    (do let formals ← onStore (Store.formalsOf name)
        onStore (Store.pushCallFrame name formals actuals)
        let body ← onStore (Store.bodyOf name)
        runBody machine.room body
        onStore Store.popFrame) machine = _
  apply bind_congr_of_ok rfl
  intro formals looked found
  have sameRoom : looked.room = machine.room :=
    room_of_deepens (Deepens.request (Store.requests_formalsOf name)) found
  apply bind_congr_of_ok rfl
  intro _ entered pushed
  have oneLess :=
    room_of_push (Store.requests_pushCallFrame name formals actuals) rfl pushed
  apply bind_congr_of_ok rfl
  intro body lookedAgain foundBody
  have sameRoomAgain : lookedAgain.room = entered.room :=
    room_of_deepens (Deepens.request (Store.requests_bodyOf name)) foundBody
  apply bind_congr_of_ok
  · rw [← sameRoom, oneLess, runBody, execute, sameRoomAgain]
  · intros
    rfl

theorem onStore_formalsOf_of_missing
    {name : String} {machine : Machine}
    (missing : machine.store.functions.find? name = none) :
    onStore (Store.formalsOf name) machine = .error (.undefinedFunction name) machine := by
  simp [onStore, Store.formalsOf, Store.functionNamed, Functor.map, EStateM.map, missing]

theorem onStore_formalsOf_of_found
    {name : String} {machine : Machine} {definition : FunctionDef (List Command)}
    (found : machine.store.functions.find? name = some definition) :
    onStore (Store.formalsOf name) machine = .ok definition.formals machine := by
  simp [onStore, Store.formalsOf, Store.functionNamed, Functor.map, EStateM.map, found]

/-- A call of an unknown function changes nothing. -/
theorem execute_call_of_missing
    {name : String} {machine : Machine}
    (missing : machine.store.functions.find? name = none)
    (actuals : List String) (position : Position) :
    execute [.call name actuals position] machine =
      .error (.undefinedFunction name) machine := by
  rw [execute_call, bind_of_error (onStore_formalsOf_of_missing missing)]

/-- The body that a call enters is the one found before the frame was pushed. -/
theorem enterCall_of_found
    {name : String} {machine : Machine} {definition : FunctionDef (List Command)}
    (found : machine.store.functions.find? name = some definition)
    (actuals : List String)
    {α : Type} (enter : List Command → Execution α) :
    (do let formals ← onStore (Store.formalsOf name)
        onStore (Store.pushCallFrame name formals actuals)
        let body ← onStore (Store.bodyOf name)
        enter body) machine =
      (do onStore (Store.pushCallFrame name definition.formals actuals)
          enter definition.body) machine := by
  rw [bind_of_ok (onStore_formalsOf_of_found found)]
  apply bind_congr_of_ok rfl
  intro _ entered pushed
  obtain ⟨store, granted, rfl⟩ :=
    (Store.requests_pushCallFrame name definition.formals actuals).onStore_granted pushed
  have sameFunctions : store.functions = machine.store.functions := by
    cases granted
    rfl
  rw [← sameFunctions] at found
  have foundBody :
      onStore (Store.bodyOf name) { machine with store } =
        .ok definition.body { machine with store } := by
    simp [onStore, Store.bodyOf, Store.functionNamed, Functor.map, EStateM.map, found]
  rw [bind_of_ok foundBody]

/-- So a call executes that body. -/
theorem execute_call_of_found
    {name : String} {machine : Machine} {definition : FunctionDef (List Command)}
    (found : machine.store.functions.find? name = some definition)
    (actuals : List String) (position : Position) :
    execute [.call name actuals position] machine =
      (do onStore (Store.pushCallFrame name definition.formals actuals)
          execute definition.body
          onStore Store.popFrame) machine := by
  rw [execute_call]
  exact enterCall_of_found found actuals fun body => do
    execute body
    onStore Store.popFrame

/--
Induction on a run. The body of a frame may come from the table of functions
and be of any size, but it is executed with less room on the call stack; all
else that is executed is part of the commands at hand.
-/
theorem execute_induction
    {holds : List Command → Machine → Prop}
    (nil : ∀ machine, holds [] machine)
    (cons :
      ∀ command rest machine,
        holds [command] machine →
        (∀ next, execute [command] machine = .ok () next → holds rest next) →
        holds (command :: rest) machine)
    (simple :
      ∀ command machine, command.isSimple = true → holds [command] machine)
    (block :
      ∀ body position machine,
        (∀ entered,
          onStore Store.pushScope machine = .ok () entered → holds body entered) →
        holds [.block body position] machine)
    (frame :
      ∀ body position machine,
        (∀ entered,
          onStore Store.pushFrame machine = .ok () entered → holds body entered) →
        holds [.frame body position] machine)
    (call :
      ∀ name actuals position machine,
        (∀ definition entered,
          machine.store.functions.find? name = some definition →
          onStore (Store.pushCallFrame name definition.formals actuals) machine =
            .ok () entered →
          holds definition.body entered) →
        holds [.call name actuals position] machine) :
    ∀ commands machine, holds commands machine
  | [], machine => nil machine
  | command :: rest, machine => by
      have single : holds [command] machine := by
        cases command with
        | block body position =>
            apply block
            intro entered pushed
            have sameRoom : entered.room = machine.room :=
              room_of_deepens (Deepens.request Store.requests_pushScope) pushed
            exact execute_induction nil cons simple block frame call body entered
        | frame body position =>
            apply frame
            intro entered pushed
            have lessRoom := room_of_push Store.requests_pushFrame rfl pushed
            exact execute_induction nil cons simple block frame call body entered
        | call name actuals position =>
            apply call
            intro definition entered found pushed
            have lessRoom :=
              room_of_push
                (Store.requests_pushCallFrame name definition.formals actuals)
                rfl pushed
            exact execute_induction nil cons simple block frame call
              definition.body entered
        | _ =>
            exact simple _ machine rfl
      apply cons command rest machine single
      intro next done
      have sameRoom := room_of_deepens (execute_deepens [command]) done
      exact execute_induction nil cons simple block frame call rest next
termination_by commands machine => (machine.room, sizeOf commands)
decreasing_by
  · rw [sameRoom]
    apply Prod.Lex.right
    simp only [List.cons.sizeOf_spec, Command.block.sizeOf_spec]
    omega
  · apply Prod.Lex.left
    omega
  · apply Prod.Lex.left
    omega
  · rw [sameRoom]
    apply Prod.Lex.right
    simp only [List.cons.sizeOf_spec]
    omega

/-! ## Scripts -/

/-- Commands in two parts are executed part by part. -/
theorem execute_append (first second : List Command) :
    execute (first ++ second) = (do execute first; execute second) := by
  induction first with
  | nil =>
      rfl
  | cons command rest inductionHypothesis =>
      rw [List.cons_append, execute_cons, inductionHypothesis, execute_cons command rest,
        bind_assoc]

/-- The functions of a script are registered as the execution of their commands would. -/
theorem registerFunctions_eq (commands : List Command) :
    registerFunctions commands = execute (commands.filter Command.isFunction) := by
  induction commands with
  | nil =>
      rfl
  | cons command rest inductionHypothesis =>
      cases command with
      | function name formals body position =>
          rw [registerFunctions, inductionHypothesis,
            List.filter_cons_of_pos (p := Command.isFunction) rfl, execute_cons,
            execute_function]
      | _ =>
          exact inductionHypothesis

/-- The machine with another table of functions. -/
def Machine.withFunctions
    (machine : Machine) (functions : FunctionTable (List Command)) : Machine :=
  { machine with store := { machine.store with functions } }

/-- The function that a command declares. -/
def Command.definition? : Command → Option (FunctionDef (List Command))
  | .function name formals body _ => some ⟨name, formals, body⟩
  | _ => none

/-- The table with the functions that commands declare, in order. -/
def FunctionTable.registerAll
    (table : FunctionTable (List Command)) (commands : List Command) :
    FunctionTable (List Command) :=
  (commands.filterMap Command.definition?).foldl
    (fun table definition => table.register definition.name definition.formals definition.body)
    table

/-- Registering the functions of a script touches the table of functions alone. -/
theorem registerFunctions_apply (commands : List Command) (machine : Machine) :
    registerFunctions commands machine =
      .ok () (machine.withFunctions (machine.store.functions.registerAll commands)) := by
  induction commands generalizing machine with
  | nil => rfl
  | cons command rest inductionHypothesis =>
      cases command with
      | function name formals body position => exact inductionHypothesis _
      | _ => exact inductionHypothesis machine

/-- A script executes its other commands, once its functions are registered. -/
theorem runScript_apply (commands : List Command) (machine : Machine) :
    runScript commands machine =
      execute (commands.filter fun command => !command.isFunction)
        (machine.withFunctions (machine.store.functions.registerAll commands)) :=
  bind_of_ok (registerFunctions_apply commands machine)

/-- The commands of a script in the order in which they take effect. -/
def functionsFirst (commands : List Command) : List Command :=
  commands.filter Command.isFunction ++ commands.filter fun command => !command.isFunction

/-- A script is run by executing its commands, functions first. -/
theorem runScript_eq (commands : List Command) :
    runScript commands = execute (functionsFirst commands) := by
  rw [functionsFirst, execute_append, ← registerFunctions_eq, runScript]

end RefScript
