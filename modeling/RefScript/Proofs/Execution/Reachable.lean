import RefScript.Proofs.Execution.Recursion
import RefScript.Proofs.Store.Consistency

namespace RefScript

/-!
# Reachable machines

A run makes requests to the store and prints values, and does nothing else.
What every request keeps is therefore kept by every run, finished or stopped by
a fault. The reachable machines are those that scripts and requests bring about
from a fresh store, so that a machine in the midst of a script is one of them;
their stores are consistent.
-/

/-- The machine that a step leaves, whether it finishes or meets a fault. -/
def leaves {α : Type} (step : Execution α) (machine : Machine) : Machine :=
  match step machine with
  | .ok _ next => next
  | .error _ stopped => stopped

/-- The fault that a step meets, if it meets one. -/
def fault? {α : Type} (step : Execution α) (machine : Machine) : Option Fault :=
  match step machine with
  | .ok _ _ => none
  | .error fault _ => some fault

section Leaves

variable {α β : Type} {step : Execution α} {machine next : Machine}

theorem leaves_of_ok
    {value : α}
    (done : step machine = .ok value next) :
    leaves step machine = next := by
  rw [leaves, done]

theorem leaves_of_error
    {fault : Fault}
    (failed : step machine = .error fault next) :
    leaves step machine = next := by
  rw [leaves, failed]

theorem eq_error_of_fault?
    {fault : Fault}
    (meets : fault? step machine = some fault) :
    step machine = .error fault (leaves step machine) := by
  unfold fault? at meets
  unfold leaves
  cases outcome : step machine with
  | ok value next =>
      simp [outcome] at meets
  | error fault' stopped =>
      simpa [outcome] using meets

/-- Two steps leave what the first one does, or what the second one does after it. -/
theorem leaves_bind
    {holds : Machine → Prop}
    {later : α → Execution β}
    (first : holds (leaves step machine))
    (second :
      ∀ value between,
        step machine = .ok value between →
          holds between → holds (leaves (later value) between)) :
    holds (leaves (step >>= later) machine) := by
  cases outcome : step machine with
  | ok value between =>
      rw [leaves_of_ok outcome] at first
      rw [leaves, bind_of_ok outcome]
      exact second value between outcome first
  | error fault stopped =>
      rw [leaves_of_error outcome] at first
      rw [leaves, bind_of_error outcome]
      exact first

end Leaves

/-- A property of machines that requests to the store keep, and prints. -/
structure Steady (holds : Machine → Prop) : Prop where
  request :
    ∀ machine operation,
      holds machine → holds { machine with store := machine.store.after operation }
  print :
    ∀ machine value, holds machine → holds (leaves (emit value) machine)

namespace Steady

variable {holds : Machine → Prop}

/-- A request made by a machine leaves the store that the request leaves. -/
theorem leaves_onStore
    (steady : Steady holds)
    {α : Type}
    {action : Store.Action (List Command) α}
    {operation : Operation (List Command)}
    {reply : α → Reply (List Command)}
    (requests : Store.Requests action operation reply)
    {machine : Machine}
    (before : holds machine) :
    holds (leaves (onStore action) machine) := by
  have after := steady.request machine operation before
  unfold Store.after at after
  cases outcome : onStore action machine with
  | ok value next =>
      obtain ⟨store, answered, rfl⟩ := onStore_eq_ok_iff.mp outcome
      rw [requests.perform_eq_ok answered] at after
      rw [leaves_of_ok outcome]
      exact after
  | error fault stopped =>
      obtain ⟨store, refused, rfl⟩ := onStore_eq_error_iff.mp outcome
      rw [requests.perform_eq_error refused] at after
      rw [leaves_of_error outcome]
      exact after

private theorem leaves_simple
    (steady : Steady holds)
    {command : Command}
    (simple : command.isSimple = true)
    {machine : Machine}
    (before : holds machine) :
    holds (leaves (execute [command]) machine) := by
  have isStep := simpleStep_of_isSimple simple
  generalize execute [command] = step, command.declaredKind? = declared at isStep ⊢
  cases isStep with
  | request requests stays =>
      apply leaves_bind (steady.leaves_onStore requests before)
      intro _ between _ kept
      exact kept
  | input name =>
      apply leaves_bind (steady.leaves_onStore Store.requests_nextData before)
      intro value between _ kept
      exact steady.leaves_onStore (Store.requests_write name value) kept
  | print name =>
      apply leaves_bind (steady.leaves_onStore (Store.requests_read name) before)
      intro value between _ kept
      exact steady.print between value kept

/-- What every request keeps, the execution of commands keeps. -/
theorem leaves_execute
    (steady : Steady holds)
    (commands : List Command)
    (machine : Machine)
    (before : holds machine) :
    holds (leaves (execute commands) machine) := by
  induction commands, machine using execute_induction with
  | nil machine =>
      exact before
  | cons command rest machine first later =>
      rw [execute_cons]
      apply leaves_bind (first before)
      intro _ between done kept
      exact later between done kept
  | simple command machine simple =>
      exact steady.leaves_simple simple before
  | block body position machine inside =>
      rw [execute_block]
      apply leaves_bind (steady.leaves_onStore Store.requests_pushScope before)
      intro _ entered pushed kept
      apply leaves_bind (inside entered pushed kept)
      intro _ between _ keptInside
      exact steady.leaves_onStore Store.requests_popScope keptInside
  | frame body position machine inside =>
      rw [execute_frame]
      apply leaves_bind (steady.leaves_onStore Store.requests_pushFrame before)
      intro _ entered pushed kept
      apply leaves_bind (inside entered pushed kept)
      intro _ between _ keptInside
      exact steady.leaves_onStore Store.requests_popFrame keptInside
  | call name actuals position machine inside =>
      cases found : machine.store.functions.find? name with
      | none =>
          rw [leaves_of_error (execute_call_of_missing found actuals position)]
          exact before
      | some definition =>
          rw [leaves, execute_call_of_found found actuals position]
          apply leaves_bind
            (steady.leaves_onStore
              (Store.requests_pushCallFrame name definition.formals actuals) before)
          intro _ entered pushed kept
          apply leaves_bind (inside definition entered found pushed kept)
          intro _ between _ keptInside
          exact steady.leaves_onStore Store.requests_popFrame keptInside

/-- What every request keeps, every script keeps. -/
theorem leaves_runScript
    (steady : Steady holds)
    (commands : List Command)
    (machine : Machine)
    (before : holds machine) :
    holds (leaves (runScript commands) machine) := by
  rw [runScript_eq]
  exact steady.leaves_execute _ machine before

end Steady

/-- A property of stores that requests keep, and prints on the console too. -/
structure Stable (holds : Store (List Command) → Prop) : Prop where
  request :
    ∀ store operation, holds store → holds (store.after operation)
  shown :
    ∀ store line, holds store → holds { store with console := store.console.push line }

/-- What stores keep, machines keep. -/
theorem Stable.steady
    {holds : Store (List Command) → Prop}
    (stable : Stable holds) :
    Steady fun machine => holds machine.store where
  request machine operation before := stable.request machine.store operation before
  print machine value before := by
    obtain ⟨store, printed, echo⟩ := machine
    cases echo with
    | false => exact before
    | true => exact stable.shown store (.printed value) before

namespace Machine

/--
The machines that scripts and requests to the store can bring about, finished
or refused. Since a run makes requests and prints, the machines in its midst
are among them.
-/
inductive Reachable : Machine → Prop where
  | fresh
      (settings : Settings) (reporter : Reporter) (input : InputTape) (echo : Bool) :
      Reachable
        ((onStore ((Store.withReporter settings reporter).withInput input)).withEcho echo)
  | request
      {machine : Machine} (operation : Operation (List Command)) :
      Reachable machine →
      Reachable { machine with store := machine.store.after operation }
  | script
      {machine : Machine} (commands : List Command) :
      Reachable machine →
      Reachable (leaves (runScript commands) machine)

/-- The second machine is one that scripts and requests bring about from the first, sooner or later. -/
inductive LeadsTo (machine : Machine) : Machine → Prop where
  | refl :
      LeadsTo machine machine
  | request
      {later : Machine} (operation : Operation (List Command)) :
      LeadsTo machine later →
      LeadsTo machine { later with store := later.store.after operation }
  | script
      {later : Machine} (commands : List Command) :
      LeadsTo machine later →
      LeadsTo machine (leaves (runScript commands) later)

/-- What every request keeps, holds of all later machines. -/
theorem LeadsTo.keeps
    {machine later : Machine} (leads : machine.LeadsTo later)
    {holds : Machine → Prop} (steady : Steady holds)
    (before : holds machine) :
    holds later := by
  induction leads with
  | refl => exact before
  | request operation _ inductionHypothesis => exact steady.request _ operation inductionHypothesis
  | script commands _ inductionHypothesis =>
      exact steady.leaves_runScript commands _ inductionHypothesis

theorem stable_consistent :
    Stable (Store.Consistent : Store (List Command) → Prop) where
  request _ operation consistent := consistent.after operation
  shown _ _ consistent :=
    ⟨consistent.flagPerSlot, consistent.countCurrent, consistent.framesScoped,
      consistent.depthAllowed⟩

/-- The store of a reachable machine is consistent. -/
theorem Reachable.consistent
    {machine : Machine}
    (reachable : machine.Reachable) :
    Store.Consistent machine.store := by
  induction reachable with
  | fresh settings reporter input echo =>
      exact Store.consistent_fresh settings reporter input
  | request operation _ inductionHypothesis =>
      exact inductionHypothesis.after operation
  | script commands _ inductionHypothesis =>
      exact stable_consistent.steady.leaves_runScript commands _ inductionHypothesis

end Machine

/--
A script that is abandoned in a call: the function prints what its parameter
designates, and the zero that it is handed designates no slot yet.
-/
def abandonedScript : List Command :=
  [.function "show" ["p"] [.print "p" ⟨1, 17⟩] ⟨1, 1⟩,
    .frame [.declare .int "x" ⟨3, 3⟩, .call "show" ["x"] ⟨4, 3⟩] ⟨2, 1⟩]

/-- The machine left by that script, where a call and the frame around it are open. -/
def abandonedMachine : Machine :=
  leaves (runScript abandonedScript) (Machine.onStore (Store.initial Settings.standard))

theorem reachable_abandonedMachine : abandonedMachine.Reachable :=
  .script abandonedScript (.fresh Settings.standard _ .empty false)

/-- A call of the function whose first call has been abandoned. -/
def repeatedCall : Command :=
  .call "show" ["p"] ⟨1, 1⟩

end RefScript
