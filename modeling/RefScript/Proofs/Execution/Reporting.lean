import RefScript.Proofs.Execution.Lockstep
import RefScript.Proofs.Store.Surroundings

namespace RefScript

/-!
# Reports are written and never read

Where reports go, and whether they are shown at all, makes no difference to
anything else. Two machines that agree in all but that get the same answers and
meet the same faults, in whatever requests and scripts come, and keep agreeing.
-/

namespace Store

variable {Body : Type}

/-- The stores agree in everything but where reports go, and what has come of them. -/
structure SameBesidesReports (store other : Store Body) : Prop where
  globals : other.globals = store.globals
  heap : other.heap = store.heap
  /-- The flags and the count that was reported last. -/
  liveness : other.liveness = store.liveness
  stack : other.stack = store.stack
  functions : other.functions = store.functions
  strays : other.strays = store.strays
  input : other.input = store.input
  maxCallDepth : other.settings.maxCallDepth = store.settings.maxCallDepth

/-- The later store has reported what the earlier one has, and then a count if one is given. -/
structure Reported (report : Option Nat) (earlier later : Store Body) : Prop where
  reporter : later.reporter = (earlier.surroundings.report report).reporter
  console : later.console = (earlier.surroundings.report report).console

theorem reported_of_surroundings
    {report : Option Nat} {earlier later : Store Body}
    (surroundings : later.surroundings = earlier.surroundings.report report) :
    Reported report earlier later where
  reporter := congrArg Surroundings.reporter surroundings
  console := congrArg Surroundings.console surroundings

variable {store next other : Store Body} {operation : Operation Body}

/-- Such a store is the other one in surroundings of its own. -/
theorem SameBesidesReports.eq_within (same : store.SameBesidesReports other) :
    other = store.within other.surroundings := by
  obtain ⟨globals, heap, liveness, stack, functions, strays, _, _⟩ := same
  unfold within surroundings
  rw [← globals, ← heap, ← liveness, ← stack, ← functions, ← strays]

/-- A granted request is granted to such a store too, and reports the same. -/
theorem Granted.besidesReports
    {reply : Reply Body}
    (granted : Granted store operation reply next)
    (same : store.SameBesidesReports other) :
    ∃ report next',
      Granted other operation reply next' ∧ next.SameBesidesReports next' ∧
        Reported report store next ∧ Reported report other next' := by
  by_cases isInput : operation = .nextData
  · subst isInput
    cases granted with
    | nextData available =>
        obtain ⟨globals, heap, liveness, stack, functions, strays, input, maxCallDepth⟩ := same
        rw [← input] at available ⊢
        refine ⟨none, _, .nextData available, ?_, ⟨rfl, rfl⟩, ⟨rfl, rfl⟩⟩
        exact ⟨globals, heap, liveness, stack, functions, strays, rfl, maxCallDepth⟩
  · obtain ⟨report, reported, elsewhere⟩ := granted.within isInput
    have grantedToo := elsewhere other.surroundings same.maxCallDepth
    rw [← same.eq_within] at grantedToo
    have sameInput : next.input = store.input := input_eq_of_report reported
    have sameSettings : next.settings = store.settings := granted.settings_eq
    refine ⟨report, _, grantedToo, ?_, reported_of_surroundings reported,
      reported_of_surroundings rfl⟩
    refine ⟨rfl, rfl, rfl, rfl, rfl, rfl, ?_, ?_⟩
    · rw [sameInput, ← same.input]
      exact Surroundings.input_report _ _
    · rw [sameSettings, ← same.maxCallDepth]
      exact congrArg Settings.maxCallDepth (Surroundings.settings_report _ _)

theorem Refused.besidesReports
    {fault : Fault}
    (refused : Refused store operation fault)
    (same : store.SameBesidesReports other) :
    Refused other operation fault := by
  by_cases isInput : operation = .nextData
  · subst isInput
    cases refused with
    | dataExhausted atEnd =>
        rw [← same.input] at atEnd
        exact .dataExhausted atEnd
    | _ => contradiction
  · rw [same.eq_within]
    exact refused.within isInput same.maxCallDepth

end Store

/-- The machines agree in everything but where reports go, and what has come of them. -/
structure Machine.SameBesidesReports (machine other : Machine) : Prop where
  store : machine.store.SameBesidesReports other.store
  printed : other.printed = machine.printed
  echo : other.echo = machine.echo

/-- Printed values are shown on both machines or on neither. -/
theorem Machine.SameBesidesReports.print
    {machine other : Machine}
    (same : machine.SameBesidesReports other)
    (value : Word) :
    (leaves (emit value) machine).SameBesidesReports (leaves (emit value) other) := by
  obtain ⟨store, printed, echo⟩ := machine
  obtain ⟨store', printed', echo'⟩ := other
  obtain ⟨sameStore, samePrinted, sameEcho⟩ := same
  dsimp only at sameStore samePrinted sameEcho
  subst samePrinted sameEcho
  obtain ⟨globals, heap, liveness, stack, functions, strays, input, maxCallDepth⟩ := sameStore
  cases echo' <;>
    exact ⟨⟨globals, heap, liveness, stack, functions, strays, input, maxCallDepth⟩, rfl, rfl⟩

/-- Such machines are in lockstep. -/
theorem lockstep_besidesReports : Lockstep Machine.SameBesidesReports where
  functions same := same.store.functions
  granted same granted := by
    obtain ⟨_, store', grantedToo, after, _, _⟩ := granted.besidesReports same.store
    exact ⟨store', grantedToo, after, same.printed, same.echo⟩
  refused same refused := refused.besidesReports same.store
  print value same := same.print value

/-- What a client asks of a machine: a single request, or to run a script. -/
inductive Demand where
  | request (operation : Operation (List Command))
  | script (commands : List Command)

/-- Meet a demand. -/
def Demand.perform : Demand → Execution (Reply (List Command))
  | request operation => onStore (Store.perform operation)
  | script commands => do
      runScript commands
      pure .done

/-- Every request is what performing it requests. -/
theorem Store.requests_perform {Body : Type} (operation : Operation Body) :
    Requests (perform operation) operation id where
  performs := by
    funext store
    simp only [Functor.map, EStateM.map]
    cases perform operation store <;> rfl
  faithful := Function.injective_id

/--
Two machines that agree in everything but where reports go: in the variables, heap,
frames, functions, flags, the count that was reported last, the input, the limit on
the frames, the list of stray references and the printed values. Whatever a client
asks of both, requests and scripts in any order, refused or abandoned or not, both
give the same answers and meet the same faults, and agree as before after each.
-/
theorem reports_are_never_read
    {machine other : Machine}
    (same : machine.SameBesidesReports other)
    (demands : List Demand) :
    List.Forall₂ (SameOutcome Machine.SameBesidesReports)
      (outcomes Demand.perform demands machine)
      (outcomes Demand.perform demands other) := by
  apply sameOutcomes_of_step _ demands same
  intro demand machine other before
  cases demand with
  | request operation =>
      exact lockstep_besidesReports.sameOutcome_onStore (Store.requests_perform operation) before
  | script commands =>
      apply SameOutcome.bind (lockstep_besidesReports.sameOutcome_runScript commands before)
      intro _ next next' _ after
      exact .ok after

/-- A machine that has not run yet, and is silent. -/
def silentMachine : Machine :=
  Machine.onStore (Store.initial Settings.standard.quiet)

/-- A machine that has not run yet, and reports to the console. -/
def reportingMachine : Machine :=
  Machine.onStore (Store.initial Settings.standard)

/-- An abandoned script, a request that is refused, and one that is granted. -/
def mixedDemands : List Demand :=
  [.script abandonedScript, .request .nextData, .request (.declare "p" .ref),
    .request (.allocate "p"), .request .popScope]

/-- The one machine has shown two counts by then and the other one nothing. -/
theorem reporting_machine_agrees_with_silent :
    (mixedDemands.foldl (fun machine demand => leaves demand.perform machine)
        reportingMachine).store.console = #[.liveCount 1, .liveCount 0] ∧
      List.Forall₂ (SameOutcome Machine.SameBesidesReports)
        (outcomes Demand.perform mixedDemands reportingMachine)
        (outcomes Demand.perform mixedDemands silentMachine) := by
  have same : reportingMachine.SameBesidesReports silentMachine :=
    ⟨⟨rfl, rfl, rfl, rfl, rfl, rfl, rfl, rfl⟩, rfl, rfl⟩
  exact ⟨by decide +kernel, reports_are_never_read same mixedDemands⟩

end RefScript
