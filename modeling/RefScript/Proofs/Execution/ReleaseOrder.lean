import RefScript.Proofs.Execution.Equivariance

namespace RefScript

/-!
# Runs that release references in any order

Where a scope or a frame ends, the references bound there are released one after
the other, here from the base scope of a frame inward and in each scope in
ascending order of the names. The runs described below release them in any order,
and in another one each time. They all have the same outcome: the order shows in
that of the stray references and nowhere else.
-/

/-- The machines agree, and so do the stray references but for their order. -/
structure Machine.SameButStrayOrder (machine other : Machine) : Prop where
  store : Store.SameButStrayOrder machine.store other.store
  printed : other.printed = machine.printed
  echo : other.echo = machine.echo

/--
What the commands can lead to where every scope and every frame that ends releases
its references in some order.
-/
inductive RunsInSomeOrder :
    List Command → Machine → EStateM.Result Fault Machine Unit → Prop where
  | nil
      {machine : Machine} :
      RunsInSomeOrder [] machine (.ok () machine)
  | cons
      {command : Command} {rest : List Command} {machine between : Machine}
      {outcome : EStateM.Result Fault Machine Unit}
      (first : RunsInSomeOrder [command] machine (.ok () between))
      (later : RunsInSomeOrder rest between outcome) :
      RunsInSomeOrder (command :: rest) machine outcome
  | stopped
      {command : Command} {rest : List Command} {machine stopped : Machine} {fault : Fault}
      (first : RunsInSomeOrder [command] machine (.error fault stopped)) :
      RunsInSomeOrder (command :: rest) machine (.error fault stopped)
  | simple
      {command : Command} {machine : Machine}
      (isSimple : command.isSimple = true) :
      RunsInSomeOrder [command] machine (execute [command] machine)
  | unknown
      {name : String} {actuals : List String} {position : Position} {machine : Machine}
      (missing : machine.store.functions.find? name = none) :
      RunsInSomeOrder [.call name actuals position] machine
        (.error (.undefinedFunction name) machine)
  | notEntered
      {command : Command} {bracket : Bracket} {body : List Command}
      {machine stopped : Machine} {fault : Fault}
      (encloses : Encloses machine command bracket body)
      (refused : onStore bracket.push machine = .error fault stopped) :
      RunsInSomeOrder [command] machine (.error fault stopped)
  | stoppedInside
      {command : Command} {bracket : Bracket} {body : List Command}
      {machine entered stopped : Machine} {fault : Fault}
      (encloses : Encloses machine command bracket body)
      (pushed : onStore bracket.push machine = .ok () entered)
      (inside : RunsInSomeOrder body entered (.error fault stopped)) :
      RunsInSomeOrder [command] machine (.error fault stopped)
  | notLeft
      {command : Command} {bracket : Bracket} {body : List Command}
      {machine entered between stopped : Machine} {fault : Fault}
      (encloses : Encloses machine command bracket body)
      (pushed : onStore bracket.push machine = .ok () entered)
      (inside : RunsInSomeOrder body entered (.ok () between))
      (refused : onStore bracket.pop between = .error fault stopped) :
      RunsInSomeOrder [command] machine (.error fault stopped)
  | left
      {command : Command} {bracket : Bracket} {body : List Command}
      {machine entered between : Machine} {next : Store (List Command)}
      (encloses : Encloses machine command bracket body)
      (pushed : onStore bracket.push machine = .ok () entered)
      (inside : RunsInSomeOrder body entered (.ok () between))
      (popped : between.store.PopsInSomeOrder bracket.closes next) :
      RunsInSomeOrder [command] machine (.ok () { between with store := next })

/-! ## The order makes no difference -/

/-- The other machine is the one under the new names, but for the order of stray references. -/
theorem Machine.renamed_iff {naming : Naming} {machine other : Machine} :
    machine.Renamed naming False other ↔ (machine.rename naming).SameButStrayOrder other := by
  constructor
  · rintro ⟨sameStore, samePrinted, sameEcho⟩
    refine ⟨?_, samePrinted, sameEcho⟩
    generalize other.store = store at sameStore ⊢
    cases sameStore with
    | intro reordered => exact ⟨reordered, rfl⟩
  · rintro ⟨⟨reordered, others⟩, samePrinted, sameEcho⟩
    refine ⟨?_, samePrinted, sameEcho⟩
    rw [others]
    exact .intro reordered nofun

/-- All names stay the same, and all variables are shown. -/
def Naming.same : Naming :=
  .showing fun _ => true

theorem Machine.rename_same (machine : Machine) : machine.rename .same = machine := by
  rw [Naming.same,
    rename_of_keepsNames Naming.keepsNames_showing (fun _ => Naming.shows_showing rfl) rfl,
    FunctionTable.rename_showing]

theorem sameOutcome_of_renamed
    {α : Type} {outcome outcome' : EStateM.Result Fault Machine α}
    (renamed : RenamedOutcome .same (Machine.Renamed .same False) outcome outcome') :
    SameOutcome Machine.SameButStrayOrder outcome outcome' := by
  apply (renamed.sameOutcome Naming.name_showing rfl).imp
  intro next next' after
  have same := Machine.renamed_iff.mp after
  rwa [Machine.rename_same] at same

namespace Machine.SameButStrayOrder

variable {machine other : Machine}

theorem refl (machine : Machine) : machine.SameButStrayOrder machine :=
  ⟨.refl machine.store, rfl, rfl⟩

theorem renamed (same : machine.SameButStrayOrder other) : machine.Renamed .same False other := by
  rw [renamed_iff, rename_same]
  exact same

theorem functions_eq (same : machine.SameButStrayOrder other) :
    other.store.functions = machine.store.functions := by
  rw [same.store.others]

end Machine.SameButStrayOrder

variable {commands : List Command} {machine other : Machine}

/-- A request has the same outcome on machines that agree. -/
theorem sameButStrayOrder_request
    {action : Store.Action (List Command) Unit} {operation : Operation (List Command)}
    (requests : Store.Requests action operation fun _ => .done)
    (same : machine.SameButStrayOrder other) :
    SameOutcome Machine.SameButStrayOrder (onStore action machine) (onStore action other) := by
  have requestsToo : Store.Requests action (operation.rename .same) fun _ => .done := by
    rwa [Naming.same, Operation.rename_showing]
  exact sameOutcome_of_renamed
    (renamedOutcome_request False.elim requests requestsToo (fun _ => rfl)
      (fun _ _ => Naming.shows_showing rfl) (fun _ _ _ _ => Naming.shows_showing rfl) same.renamed)

/-- Commands have the same outcome on machines that agree. -/
theorem sameButStrayOrder_execute (same : machine.SameButStrayOrder other) :
    SameOutcome Machine.SameButStrayOrder (execute commands machine) (execute commands other) := by
  have hides : Naming.same.HidesIgnored commands machine := fun _ hidden =>
    (hidden (Naming.shows_showing rfl)).elim
  have outcome := renamedOutcome_execute False.elim hides same.renamed
  rw [Naming.same, Naming.commands_showing] at outcome
  exact sameOutcome_of_renamed outcome

/-- What one outcome has finished with, the same outcome has finished with. -/
theorem SameOutcome.eq_ok
    {α : Type} {related : Machine → Machine → Prop}
    {outcome : EStateM.Result Fault Machine α} {value : α} {next' : Machine}
    (same : SameOutcome related outcome (.ok value next')) :
    ∃ next, outcome = .ok value next ∧ related next next' := by
  cases same with
  | ok after => exact ⟨_, rfl, after⟩

theorem SameOutcome.eq_error
    {α : Type} {related : Machine → Machine → Prop}
    {outcome : EStateM.Result Fault Machine α} {fault : Fault} {stopped' : Machine}
    (same : SameOutcome related outcome (.error fault stopped')) :
    ∃ stopped, outcome = .error fault stopped ∧ related stopped stopped' := by
  cases same with
  | error after => exact ⟨_, rfl, after⟩

/-- What a command executes does not depend on the order of stray references. -/
theorem Encloses.of_sameButStrayOrder
    {command : Command} {bracket : Bracket} {body : List Command}
    (encloses : Encloses other command bracket body)
    (same : machine.SameButStrayOrder other) :
    Encloses machine command bracket body := by
  cases encloses with
  | block => exact .block
  | frame => exact .frame
  | call found =>
      rw [same.functions_eq] at found
      exact .call found

/-- A body that is entered on one machine is entered on another one that agrees. -/
theorem Encloses.entered_alike
    {command : Command} {bracket : Bracket} {body : List Command} {entered' : Machine}
    (encloses : Encloses other command bracket body)
    (pushed : onStore bracket.push other = .ok () entered')
    (same : machine.SameButStrayOrder other) :
    ∃ entered,
      entered.SameButStrayOrder entered' ∧
        execute [command] machine = (do execute body; onStore bracket.pop) entered := by
  have pushedSame := sameButStrayOrder_request bracket.requests_push same
  rw [pushed] at pushedSame
  obtain ⟨entered, pushedToo, enteredSame⟩ := pushedSame.eq_ok
  refine ⟨entered, enteredSame, ?_⟩
  rw [(encloses.of_sameButStrayOrder same).execute_eq, Bracket.around, bind_of_ok pushedToo]

/-- What commands can lead to in some order, they lead to in the order of the names. -/
theorem RunsInSomeOrder.sameOutcome
    {outcome : EStateM.Result Fault Machine Unit}
    (runs : RunsInSomeOrder commands other outcome)
    (same : machine.SameButStrayOrder other) :
    SameOutcome Machine.SameButStrayOrder (execute commands machine) outcome := by
  induction runs generalizing machine with
  | nil =>
      exact .ok same
  | cons _ _ inFirst inLater =>
      obtain ⟨between, done, betweenSame⟩ := (inFirst same).eq_ok
      rw [execute_cons, bind_of_ok done]
      exact inLater betweenSame
  | stopped _ inFirst =>
      obtain ⟨stopped, failed, stoppedSame⟩ := (inFirst same).eq_error
      rw [execute_cons, bind_of_error failed]
      exact .error stoppedSame
  | simple isSimple =>
      exact sameButStrayOrder_execute same
  | unknown missing =>
      rw [same.functions_eq] at missing
      rw [execute_call_of_missing missing]
      exact .error same
  | @notEntered _ bracket _ _ _ _ encloses refused =>
      have pushedSame := sameButStrayOrder_request bracket.requests_push same
      rw [refused] at pushedSame
      obtain ⟨stopped, failed, stoppedSame⟩ := pushedSame.eq_error
      rw [(encloses.of_sameButStrayOrder same).execute_eq, Bracket.around, bind_of_error failed]
      exact .error stoppedSame
  | stoppedInside encloses pushed _ inBody =>
      obtain ⟨entered, enteredSame, isEntered⟩ := encloses.entered_alike pushed same
      obtain ⟨stopped, failed, stoppedSame⟩ := (inBody enteredSame).eq_error
      rw [isEntered, bind_of_error failed]
      exact .error stoppedSame
  | @notLeft _ bracket _ _ _ _ _ _ encloses pushed _ refused inBody =>
      obtain ⟨entered, enteredSame, isEntered⟩ := encloses.entered_alike pushed same
      obtain ⟨between, done, betweenSame⟩ := (inBody enteredSame).eq_ok
      have poppedSame := sameButStrayOrder_request bracket.requests_pop betweenSame
      rw [refused] at poppedSame
      rw [isEntered, bind_of_ok done]
      exact poppedSame
  | @left _ bracket _ _ _ _ _ encloses pushed _ popped inBody =>
      obtain ⟨entered, enteredSame, isEntered⟩ := encloses.entered_alike pushed same
      obtain ⟨between, done, betweenSame⟩ := (inBody enteredSame).eq_ok
      obtain ⟨inOrder, granted, reordered⟩ := popped.granted
      have poppedSame := sameButStrayOrder_request bracket.requests_pop betweenSame
      rw [bracket.requests_pop.onStore_of_granted granted] at poppedSame
      obtain ⟨next, poppedToo, nextSame⟩ := poppedSame.eq_ok
      rw [isEntered, bind_of_ok done, poppedToo]
      exact .ok ⟨nextSame.store.trans reordered, nextSame.printed, nextSame.echo⟩

/-- The run in the order of the names is one in some order. -/
theorem runsInSomeOrder_execute (commands : List Command) (machine : Machine) :
    RunsInSomeOrder commands machine (execute commands machine) := by
  induction commands, machine using execute_bracketInduction with
  | nil machine =>
      exact .nil
  | cons command rest machine first later =>
      rw [execute_cons]
      cases outcome : execute [command] machine with
      | ok _ between =>
          rw [outcome] at first
          rw [bind_of_ok outcome]
          exact .cons first (later between outcome)
      | error fault stopped =>
          rw [outcome] at first
          rw [bind_of_error outcome]
          exact .stopped first
  | simple command machine isSimple =>
      exact .simple isSimple
  | unknown name actuals position machine missing =>
      rw [execute_call_of_missing missing]
      exact .unknown missing
  | bracket command bracket body machine encloses inside =>
      rw [encloses.execute_eq, Bracket.around]
      cases pushed : onStore bracket.push machine with
      | error fault stopped =>
          rw [bind_of_error pushed]
          exact .notEntered encloses pushed
      | ok _ entered =>
          have insideHere := inside entered pushed
          rw [bind_of_ok pushed]
          cases bodyDone : execute body entered with
          | error fault stopped =>
              rw [bodyDone] at insideHere
              rw [bind_of_error bodyDone]
              exact .stoppedInside encloses pushed insideHere
          | ok _ between =>
              rw [bodyDone] at insideHere
              rw [bind_of_ok bodyDone]
              cases popped : onStore bracket.pop between with
              | error fault stopped =>
                  exact .notLeft encloses pushed insideHere popped
              | ok _ next =>
                  obtain ⟨store, granted, rfl⟩ := bracket.requests_pop.onStore_granted popped
                  exact .left encloses pushed insideHere (granted.popsInSomeOrder bracket.closes_eq)

end RefScript
