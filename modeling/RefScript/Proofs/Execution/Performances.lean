import RefScript.Proofs.Execution.Lockstep
import RefScript.Proofs.Execution.Termination

namespace RefScript

/-!
# The tasks that a run performs

A run works through tasks, one after another, until none is left or one meets a
fault. Which tasks it performs, and on which machines, is settled by the tasks it
starts with and the machine; the outcome is that of the execution. When scripts are
run one after another, each goes on with the machine that the one before has left.
-/

/-- A task, and the machine on which it has been performed. -/
structure Performance where
  task : Task
  machine : Machine

/-- The machine that the performance has left, finished or stopped by a fault. -/
def Performance.left (performance : Performance) : Machine :=
  leaves performance.task.perform performance.machine

/-- The machine that a run has left. -/
def Outcome.machine : Outcome → Machine
  | .ok _ next => next
  | .error _ stopped => stopped

theorem Outcome.machine_eq (step : Execution Unit) (machine : Machine) :
    Outcome.machine (step machine) = leaves step machine := by
  unfold Outcome.machine leaves
  cases step machine <;> rfl

/-- The performances in working through tasks, and how that ends. -/
inductive Performs : List Task → Machine → List Performance → Outcome → Prop where
  | finished
      {machine : Machine} :
      Performs [] machine [] (.ok () machine)
  | performed
      {task : Task} {opened rest : List Task} {machine next : Machine}
      {performances : List Performance} {outcome : Outcome}
      (done : task.perform machine = .ok opened next)
      (later : Performs (opened ++ rest) next performances outcome) :
      Performs (task :: rest) machine (⟨task, machine⟩ :: performances) outcome
  | refused
      {task : Task} {rest : List Task} {machine stopped : Machine} {fault : Fault}
      (failed : task.perform machine = .error fault stopped) :
      Performs (task :: rest) machine [⟨task, machine⟩] (.error fault stopped)

namespace Performs

variable {tasks : List Task} {machine : Machine} {performances performances' : List Performance}
  {outcome outcome' : Outcome}

/-- What is performed, and how that ends, is settled by the tasks and the machine. -/
theorem unique
    (performs : Performs tasks machine performances outcome)
    (performs' : Performs tasks machine performances' outcome') :
    performances' = performances ∧ outcome' = outcome := by
  induction performs generalizing performances' outcome' with
  | finished =>
      cases performs'
      exact ⟨rfl, rfl⟩
  | performed done later inductionHypothesis =>
      cases performs' with
      | performed done' later' =>
          cases done.symm.trans done'
          obtain ⟨rfl, rfl⟩ := inductionHypothesis later'
          exact ⟨rfl, rfl⟩
      | refused failed' => cases done.symm.trans failed'
  | refused failed =>
      cases performs' with
      | performed done' later' => cases failed.symm.trans done'
      | refused failed' =>
          cases failed.symm.trans failed'
          exact ⟨rfl, rfl⟩

/-- Tasks that come to an outcome within some steps are performed up to that outcome. -/
theorem exists_of_outcomeWithin
    {steps : Nat}
    (ends : outcomeWithin steps tasks machine = some outcome) :
    ∃ performances, Performs tasks machine performances outcome := by
  induction steps generalizing tasks machine with
  | zero =>
      cases tasks with
      | nil =>
          cases ends
          exact ⟨[], .finished⟩
      | cons task rest => contradiction
  | succ steps inductionHypothesis =>
      cases tasks with
      | nil =>
          cases ends
          exact ⟨[], .finished⟩
      | cons task rest =>
          rw [outcomeWithin] at ends
          cases result : task.perform machine with
          | ok opened next =>
              rw [result] at ends
              obtain ⟨performances, later⟩ := inductionHypothesis ends
              exact ⟨⟨task, machine⟩ :: performances, .performed result later⟩
          | error fault stopped =>
              rw [result] at ends
              cases ends
              exact ⟨[⟨task, machine⟩], .refused result⟩

/-- The tasks that commands are, are performed up to the outcome of the commands. -/
theorem exists_execute (commands : List Command) (machine : Machine) :
    ∃ performances, Performs (commands.map .run) machine performances (execute commands machine) := by
  obtain ⟨bound, reaches⟩ := (comesTo_execute commands machine).exists_bound
  exact exists_of_outcomeWithin (reaches bound (Nat.le_refl _))

/-- So performing them ends as executing the commands does. -/
theorem outcome_eq_execute
    {commands : List Command}
    (performs : Performs (commands.map .run) machine performances outcome) :
    outcome = execute commands machine := by
  obtain ⟨_, executes⟩ := exists_execute commands machine
  exact (executes.unique performs).2

end Performs

/-- The performances in running scripts one after another, and how each script ends. -/
inductive PerformsScripts :
    List (List Command) → Machine → List Performance → List Outcome → Prop where
  | none
      {machine : Machine} :
      PerformsScripts [] machine [] []
  | script
      {commands : List Command} {scripts : List (List Command)} {machine : Machine}
      {earlier later : List Performance} {outcome : Outcome} {outcomes : List Outcome}
      (first : Performs ((functionsFirst commands).map .run) machine earlier outcome)
      (others : PerformsScripts scripts outcome.machine later outcomes) :
      PerformsScripts (commands :: scripts) machine (earlier ++ later) (outcome :: outcomes)

namespace PerformsScripts

/-- Scripts are performed up to their outcomes. -/
theorem exists_runScript (scripts : List (List Command)) (machine : Machine) :
    ∃ performances, PerformsScripts scripts machine performances (outcomes runScript scripts machine) := by
  induction scripts generalizing machine with
  | nil =>
      exact ⟨[], .none⟩
  | cons commands scripts inductionHypothesis =>
      obtain ⟨earlier, first⟩ := Performs.exists_execute (functionsFirst commands) machine
      rw [← runScript_eq] at first
      obtain ⟨later, others⟩ := inductionHypothesis (leaves (runScript commands) machine)
      rw [← Outcome.machine_eq] at others
      rw [outcomes, ← Outcome.machine_eq]
      exact ⟨earlier ++ later, .script first others⟩

variable {scripts : List (List Command)} {machine : Machine} {performances : List Performance}
  {ends : List Outcome}

/-- How the scripts end, is how they end when they are run. -/
theorem ends_eq_outcomes
    (performs : PerformsScripts scripts machine performances ends) :
    ends = outcomes runScript scripts machine := by
  induction performs with
  | none => rfl
  | script first others inductionHypothesis =>
      have isOutcome := first.outcome_eq_execute
      rw [← runScript_eq] at isOutcome
      subst isOutcome
      rw [inductionHypothesis, outcomes, Outcome.machine_eq]

end PerformsScripts

/-- Each performance is on the machine that the one before has left, from one machine to another. -/
inductive Linked : Machine → List Performance → Machine → Prop where
  | none
      {machine : Machine} :
      Linked machine [] machine
  | performance
      (performance : Performance)
      {later : List Performance} {final : Machine}
      (linked : Linked performance.left later final) :
      Linked performance.machine (performance :: later) final

namespace Linked

variable {first middle final : Machine} {earlier later : List Performance}

theorem append
    (linked : Linked first earlier middle)
    (linkedLater : Linked middle later final) :
    Linked first (earlier ++ later) final := by
  induction linked with
  | none => exact linkedLater
  | performance performance _ inductionHypothesis =>
      exact .performance performance (inductionHypothesis linkedLater)

/-- What has been performed before a performance leads to its machine. -/
theorem before
    {performance : Performance}
    (linked : Linked first (earlier ++ performance :: later) final) :
    Linked first earlier performance.machine := by
  induction earlier generalizing first with
  | nil =>
      cases linked
      exact .none
  | cons opening rest inductionHypothesis =>
      cases linked with
      | performance _ linkedRest => exact .performance opening (inductionHypothesis linkedRest)

end Linked

theorem Performs.linked
    {tasks : List Task} {machine : Machine} {performances : List Performance} {outcome : Outcome}
    (performs : Performs tasks machine performances outcome) :
    Linked machine performances outcome.machine := by
  induction performs with
  | finished => exact .none
  | @performed task _ _ machine _ _ _ done _ inductionHypothesis =>
      rw [← leaves_of_ok done] at inductionHypothesis
      exact .performance ⟨task, machine⟩ inductionHypothesis
  | @refused task _ machine stopped _ failed =>
      have linked : Linked (leaves task.perform machine) [] stopped := by
        rw [leaves_of_error failed]
        exact .none
      exact .performance ⟨task, machine⟩ linked

/-- The machine that scripts leave when they are run one after another. -/
def afterScripts (scripts : List (List Command)) (machine : Machine) : Machine :=
  scripts.foldl (fun current commands => leaves (runScript commands) current) machine

theorem PerformsScripts.linked
    {scripts : List (List Command)} {machine : Machine} {performances : List Performance}
    {ends : List Outcome}
    (performs : PerformsScripts scripts machine performances ends) :
    Linked machine performances (afterScripts scripts machine) := by
  induction performs with
  | none => exact .none
  | script first others inductionHypothesis =>
      have isOutcome := first.outcome_eq_execute
      rw [← runScript_eq] at isOutcome
      subst isOutcome
      have linked := first.linked.append inductionHypothesis
      rw [Outcome.machine_eq] at linked
      exact linked

end RefScript
