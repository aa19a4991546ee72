import RefScript.CallStack
import RefScript.Fault
import RefScript.FunctionTable
import RefScript.Heap
import RefScript.InputTape
import RefScript.Liveness
import RefScript.Settings

namespace RefScript

/-!
# The store

The store is everything a running program can change. Its operations are
actions that either give a value or refuse with a fault; a refused action
keeps the store it has reached, so that leaving the store alone on refusal is
a fact about each action and not a consequence of its type.
-/

/-- The storage of one run, for functions with the given kind of body. -/
structure Store (Body : Type) where
  /-- The variables declared while no frame was active. -/
  globals : Scope
  heap : Heap
  liveness : Liveness
  stack : CallStack
  functions : FunctionTable Body
  reporter : Reporter
  console : Array ConsoleLine
  /-- The raw values released so far that designate no tracked handle. -/
  strays : Array StrayRef
  input : InputTape
  settings : Settings

namespace Store

/-- Actions on the store. -/
abbrev Action (Body : Type) := EStateM Fault (Store Body)

variable {Body : Type}

/-- An empty store that reports to the given reporter. -/
def withReporter (settings : Settings) (reporter : Reporter) : Store Body where
  globals := Scope.empty
  heap := Heap.empty
  liveness := Liveness.empty
  stack := CallStack.empty
  functions := FunctionTable.empty
  reporter := reporter
  console := #[]
  strays := #[]
  input := InputTape.empty
  settings := settings

/-- An empty store that reports where the settings say. -/
def initial (settings : Settings) : Store Body :=
  withReporter settings settings.reporter

/-- The same store with another input. -/
def withInput (store : Store Body) (input : InputTape) : Store Body :=
  { store with input }

/-- The number of active frames. -/
def callDepth (store : Store Body) : Nat :=
  store.stack.depth

/-- The number of scopes of the current frame. -/
def scopeDepth? (store : Store Body) : Option Nat :=
  store.stack.scopeDepth?

/-- Report a live count. -/
def notify (store : Store Body) (count : Nat) : Store Body :=
  { store with
    reporter := store.reporter.notify count
    console := store.console ++ store.reporter.consoleLines count }

/-- Recount the live handles and report the number if it has changed. -/
def recount (store : Store Body) : Store Body :=
  match store.liveness.recount with
  | (none, liveness) => { store with liveness }
  | (some count, liveness) => notify { store with liveness } count

/-- Clear the flag of a raw value that has gone out of scope. -/
def retire (store : Store Body) (raw : Word) : Store Body :=
  match store.liveness.markDead? raw with
  | some liveness => { store with liveness }
  | none => { store with strays := store.strays.push ⟨raw, store.liveness.size⟩ }

/-- Clear the flags of all references that a scope has bound. -/
def release (store : Store Body) (scope : Scope) : Store Body :=
  scope.boundRefs.foldl retire store

/-- Take the next literal of the input. -/
def nextData : Action Body Word := fun store =>
  if store.input.atEnd then
    .error .dataExhausted store
  else
    .ok store.input.current { store with input := store.input.advance }

/-- Register a function. -/
def register (name : String) (formals : List String) (body : Body) : Action Body Unit :=
  fun store =>
    .ok () { store with functions := store.functions.register name formals body }

/-- The definition of a function. -/
def functionNamed (name : String) : Action Body (FunctionDef Body) := fun store =>
  match store.functions.find? name with
  | some definition => .ok definition store
  | none => .error (.undefinedFunction name) store

/-- The formal parameters of a function. -/
def formalsOf (name : String) : Action Body (List String) :=
  FunctionDef.formals <$> functionNamed name

/-- The body of a function. -/
def bodyOf (name : String) : Action Body Body :=
  FunctionDef.body <$> functionNamed name

end Store

end RefScript
