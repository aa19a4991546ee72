import Mathlib.Data.List.Forall2
import RefScript.Proofs.Execution.Brackets
import RefScript.Proofs.Execution.Noninterference

namespace RefScript

/-!
# Machines in lockstep

Two machines are in lockstep when whatever is granted to the one is granted to the
other with the same answer, whatever is refused is refused for the same reason, and
both are in lockstep again afterwards. Then commands and scripts have the same
outcome on both, one after another too.
-/

/-- The outcomes of steps, each taken on the machine that the step before has left. -/
def outcomes {α β : Type} (step : α → Execution β) :
    List α → Machine → List (EStateM.Result Fault Machine β)
  | [], _ => []
  | first :: later, machine =>
      step first machine :: outcomes step later (leaves (step first) machine)

/-- The relation is kept by requests, which get the same answers, and by prints. -/
structure Lockstep (related : Machine → Machine → Prop) : Prop where
  functions :
    ∀ {machine other : Machine},
      related machine other → other.store.functions = machine.store.functions
  granted :
    ∀ {machine other : Machine} {operation : Operation (List Command)}
        {reply : Reply (List Command)} {store : Store (List Command)},
      related machine other →
        Store.Granted machine.store operation reply store →
          ∃ store',
            Store.Granted other.store operation reply store' ∧
              related { machine with store := store } { other with store := store' }
  refused :
    ∀ {machine other : Machine} {operation : Operation (List Command)} {fault : Fault},
      related machine other →
        Store.Refused machine.store operation fault → Store.Refused other.store operation fault
  print :
    ∀ {machine other : Machine} (value : Word),
      related machine other → related (leaves (emit value) machine) (leaves (emit value) other)

/-- The machines left by the same outcome are so related. -/
theorem SameOutcome.leaves
    {related : Machine → Machine → Prop} {α : Type} {step : Execution α}
    {machine other : Machine}
    (same : SameOutcome related (step machine) (step other)) :
    related (leaves step machine) (leaves step other) := by
  generalize outcome : step machine = result, outcome' : step other = result' at same
  cases same with
  | ok after =>
      rw [leaves_of_ok outcome, leaves_of_ok outcome']
      exact after
  | error after =>
      rw [leaves_of_error outcome, leaves_of_error outcome']
      exact after

namespace Lockstep

variable {related : Machine → Machine → Prop} {machine other : Machine}

/-- A request has the same outcome. -/
theorem sameOutcome_onStore
    (lockstep : Lockstep related)
    {α : Type}
    {action : Store.Action (List Command) α}
    {operation : Operation (List Command)}
    {reply : α → Reply (List Command)}
    (requests : Store.Requests action operation reply)
    (before : related machine other) :
    SameOutcome related (onStore action machine) (onStore action other) :=
  requests.sameOutcome (lockstep.granted before) (lockstep.refused before) before

theorem sameOutcome_emit
    (lockstep : Lockstep related)
    (value : Word)
    (before : related machine other) :
    SameOutcome related (emit value machine) (emit value other) :=
  .ok (lockstep.print value before)

private theorem sameOutcome_simple
    (lockstep : Lockstep related)
    {command : Command}
    (simple : command.isSimple = true)
    (before : related machine other) :
    SameOutcome related (execute [command] machine) (execute [command] other) := by
  have isStep := simpleStep_of_isSimple simple
  generalize execute [command] = step, command.declaredKind? = declared at isStep ⊢
  cases isStep with
  | request requests stays =>
      apply SameOutcome.bind (lockstep.sameOutcome_onStore requests before)
      intro _ next next' _ after
      exact .ok after
  | input name =>
      apply SameOutcome.bind (lockstep.sameOutcome_onStore Store.requests_nextData before)
      intro value next next' _ after
      exact lockstep.sameOutcome_onStore (Store.requests_write name value) after
  | print name =>
      apply SameOutcome.bind (lockstep.sameOutcome_onStore (Store.requests_read name) before)
      intro value next next' _ after
      exact lockstep.sameOutcome_emit value after

theorem encloses
    (lockstep : Lockstep related)
    {command : Command} {bracket : Bracket} {body : List Command}
    (encloses : Encloses machine command bracket body)
    (before : related machine other) :
    Encloses other command bracket body := by
  cases encloses with
  | block => exact .block
  | frame => exact .frame
  | call found =>
      rw [← lockstep.functions before] at found
      exact .call found

/-- Commands have the same outcome. -/
theorem sameOutcome_execute
    (lockstep : Lockstep related)
    {commands : List Command}
    (before : related machine other) :
    SameOutcome related (execute commands machine) (execute commands other) := by
  induction commands, machine using execute_bracketInduction generalizing other with
  | nil machine =>
      exact .ok before
  | cons command rest machine first later =>
      rw [execute_cons]
      apply SameOutcome.bind (first before)
      intro _ between between' done after
      exact later between done after
  | simple command machine simple =>
      exact lockstep.sameOutcome_simple simple before
  | unknown name actuals position machine missing =>
      rw [execute_call_of_missing missing]
      rw [← lockstep.functions before] at missing
      rw [execute_call_of_missing missing]
      exact .error before
  | bracket command bracket body machine encloses inside =>
      rw [encloses.execute_eq, (lockstep.encloses encloses before).execute_eq]
      apply SameOutcome.bind (lockstep.sameOutcome_onStore bracket.requests_push before)
      intro _ entered entered' pushed enteredRelated
      apply SameOutcome.bind (inside entered pushed enteredRelated)
      intro _ between between' _ betweenRelated
      exact lockstep.sameOutcome_onStore bracket.requests_pop betweenRelated

/-- A script has the same outcome. -/
theorem sameOutcome_runScript
    (lockstep : Lockstep related)
    (commands : List Command)
    (before : related machine other) :
    SameOutcome related (runScript commands machine) (runScript commands other) := by
  rw [runScript_eq]
  exact lockstep.sameOutcome_execute before

end Lockstep

/-- Steps that have the same outcome have the same outcomes one after another. -/
theorem sameOutcomes_of_step
    {α β : Type} {step : α → Execution β} {related : Machine → Machine → Prop}
    (sameStep :
      ∀ first machine other,
        related machine other → SameOutcome related (step first machine) (step first other))
    (steps : List α)
    {machine other : Machine}
    (before : related machine other) :
    List.Forall₂ (SameOutcome related) (outcomes step steps machine) (outcomes step steps other) := by
  induction steps generalizing machine other with
  | nil =>
      exact .nil
  | cons first later inductionHypothesis =>
      have same := sameStep first machine other before
      exact .cons same (inductionHypothesis same.leaves)

end RefScript
