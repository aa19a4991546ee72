import RefScript.Command
import RefScript.Store.Activations

namespace RefScript

/-!
# Running scripts

A machine is a store whose functions have commands as bodies, with the values
printed so far. Running a command is structural recursion on the command as
long as no frame is entered. Entering a frame starts a body that may come from
the table of functions, so it is bounded by the room on the call stack: the
number of frames that can still be pushed. Each push is refused when there is
no room, and so the bound is never what stops a run.

A fault ends the run and nothing is unwound: the frames, scopes and functions
are left as they are.
-/

/-- A store, and what has been printed. -/
structure Machine where
  store : Store (List Command)
  printed : Array Word
  /-- Whether printed values are written to the console too. -/
  echo : Bool

namespace Machine

/-- A machine on a store that has printed nothing. -/
def onStore (store : Store (List Command)) : Machine :=
  ⟨store, #[], false⟩

/-- The same machine, writing printed values to the console or not. -/
def withEcho (machine : Machine) (echo : Bool) : Machine :=
  { machine with echo }

/-- The printed values as lines. -/
def output (machine : Machine) : List String :=
  machine.printed.toList.map Word.decimal

end Machine

/-- Steps of a machine; a fault leaves the machine where it happened. -/
abbrev Execution := EStateM Fault Machine

/-- An action on the store as a step of the machine. -/
def onStore {α : Type} (action : Store.Action (List Command) α) : Execution α :=
  fun ⟨store, printed, echo⟩ =>
    match action store with
    | .ok value next => .ok value ⟨next, printed, echo⟩
    | .error fault next => .error fault ⟨next, printed, echo⟩

/-- Print a value. -/
def emit (value : Word) : Execution Unit := fun ⟨store, printed, echo⟩ =>
  let shown :=
    if echo then
      { store with console := store.console.push (.printed value) }
    else
      store
  .ok () ⟨shown, printed.push value, echo⟩

mutual

/-- Run one command; bodies of frames are run by `enter`. -/
def Command.run (enter : List Command → Execution Unit) : Command → Execution Unit
  | .declare kind name _ => onStore (Store.declare name kind)
  | .allocate name _ => do
      let _ ← onStore (Store.allocate name)
  | .assign name value _ => onStore (Store.write name value)
  | .copy target source _ => onStore (Store.copy target source)
  | .input name _ => do
      let value ← onStore Store.nextData
      onStore (Store.write name value)
  | .print name _ => do
      let value ← onStore (Store.read name)
      emit value
  | .block body _ => do
      onStore Store.pushScope
      Command.runAll enter body
      onStore Store.popScope
  | .frame body _ => do
      onStore Store.pushFrame
      enter body
      onStore Store.popFrame
  | .function name formals body _ => onStore (Store.register name formals body)
  | .call name actuals _ => do
      let formals ← onStore (Store.formalsOf name)
      onStore (Store.pushCallFrame name formals actuals)
      let body ← onStore (Store.bodyOf name)
      enter body
      onStore Store.popFrame

/-- Run commands in order up to the first fault. -/
def Command.runAll (enter : List Command → Execution Unit) :
    List Command → Execution Unit
  | [] => pure ()
  | command :: rest => do
      Command.run enter command
      Command.runAll enter rest

end

/-- Refuse to go on without room for the frame that has been entered. -/
def outOfRoom : Execution Unit := fun machine =>
  .error (.callDepth machine.store.settings.maxCallDepth) machine

/--
Run the body of a frame that has just been pushed, given how many frames could
be pushed before it was.
-/
def runBody : Nat → List Command → Execution Unit
  | 0, _ => outOfRoom
  | room + 1, body => Command.runAll (runBody room) body

/-- The number of frames that can still be pushed. -/
def Machine.room (machine : Machine) : Nat :=
  machine.store.settings.maxCallDepth - machine.store.callDepth

/-- Run commands in the current frame. -/
def execute (commands : List Command) : Execution Unit := fun machine =>
  Command.runAll (runBody machine.room) commands machine

/-- Register the functions among commands in order, whatever stands between them. -/
def registerFunctions : List Command → Execution Unit
  | [] => pure ()
  | .function name formals body _ :: rest => do
      onStore (Store.register name formals body)
      registerFunctions rest
  | _ :: rest => registerFunctions rest

/-- Run a script: first register its functions, then run its other commands. -/
def runScript (commands : List Command) : Execution Unit := do
  registerFunctions commands
  execute (commands.filter fun command => !command.isFunction)

end RefScript
