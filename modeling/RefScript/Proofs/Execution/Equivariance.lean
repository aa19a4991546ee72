import RefScript.Proofs.Execution.Bystanders
import RefScript.Proofs.Execution.Noninterference
import RefScript.Proofs.Store.Equivariance

namespace RefScript

/-!
# Runs under other names

Commands under other names, executed on a machine under the same other names, do
what the commands do on the machine. They finish where these do, or meet the same
fault, and leave the same machine, but for the names.
-/

/-- The machine under the new names. -/
def Machine.rename (naming : Naming) (machine : Machine) : Machine :=
  { machine with store := machine.store.rename naming }

/-- Where all variables are shown and all names are kept, no more than the functions change. -/
theorem Machine.rename_of_keepsNames
    {naming : Naming}
    (keepsNames : naming.KeepsNames)
    (showsAll : ∀ name, naming.Shows name)
    (keepsFunctions : naming.function = id)
    (machine : Machine) :
    machine.rename naming =
      { machine with
        store := { machine.store with functions := machine.store.functions.rename naming } } := by
  have sameScope : Scope.rename naming = id := by
    funext scope
    exact Scope.rename_eq_self keepsNames fun name _ => showsAll name
  have sameFrame : Frame.rename naming = id := by
    funext frame
    rw [Frame.rename, keepsFunctions, sameScope, List.map_id]
    rfl
  have sameStack : machine.store.stack.rename naming = machine.store.stack := by
    apply CallStack.ext
    change machine.store.stack.frames.map _ = _
    rw [sameFrame, List.map_id]
  rw [rename, Store.rename, sameScope, sameStack]
  rfl

/-- The other machine is the machine under the new names, and has printed the same. -/
structure Machine.Renamed
    (naming : Naming) (ordered : Prop) (machine other : Machine) : Prop where
  store : Store.Renamed naming ordered machine.store other.store
  printed : other.printed = machine.printed
  echo : other.echo = machine.echo

/--
The same outcome under the new names: the same value, or the fault under these
names, in machines so related.
-/
inductive RenamedOutcome
    {α : Type} (naming : Naming) (related : Machine → Machine → Prop) :
    EStateM.Result Fault Machine α → EStateM.Result Fault Machine α → Prop where
  | ok
      {value : α} {next next' : Machine}
      (after : related next next') :
      RenamedOutcome naming related (.ok value next) (.ok value next')
  | error
      {fault : Fault} {stopped stopped' : Machine}
      (after : related stopped stopped') :
      RenamedOutcome naming related (.error fault stopped) (.error (fault.rename naming) stopped')

theorem RenamedOutcome.imp
    {α : Type} {naming : Naming} {related related' : Machine → Machine → Prop}
    {outcome outcome' : EStateM.Result Fault Machine α}
    (same : RenamedOutcome naming related outcome outcome')
    (implies : ∀ next next', related next next' → related' next next') :
    RenamedOutcome naming related' outcome outcome' := by
  cases same with
  | ok after => exact .ok (implies _ _ after)
  | error after => exact .error (implies _ _ after)

/-- Where all names are kept, the fault is the same one too. -/
theorem RenamedOutcome.sameOutcome
    {α : Type} {naming : Naming} {related : Machine → Machine → Prop}
    {outcome outcome' : EStateM.Result Fault Machine α}
    (renamed : RenamedOutcome naming related outcome outcome')
    (keepsNames : naming.name = id)
    (keepsFunctions : naming.function = id) :
    SameOutcome related outcome outcome' := by
  cases renamed with
  | ok after => exact .ok after
  | error after =>
      rw [Fault.rename_eq_self keepsNames keepsFunctions]
      exact .error after

section Simulation

variable {naming : Naming} {ordered : Prop} {machine other : Machine}

/-- With the stray references in the same order, the other machine is the renamed one. -/
theorem Machine.renamed_inOrder_iff :
    machine.Renamed naming True other ↔ other = machine.rename naming := by
  constructor
  · rintro ⟨sameStore, samePrinted, sameEcho⟩
    obtain ⟨store, printed, echo⟩ := other
    dsimp only at sameStore samePrinted sameEcho
    subst samePrinted sameEcho
    cases sameStore with
    | intro reordered inOrder =>
        rw [inOrder trivial]
        rfl
  · rintro rfl
    exact ⟨.intro (.refl _) fun _ => rfl, rfl, rfl⟩

/-- Sequences have the same outcome if their steps have, one after the other. -/
theorem RenamedOutcome.bind
    {α β : Type} {step step' : Execution α} {later later' : α → Execution β}
    {related : Machine → Machine → Prop}
    (first : RenamedOutcome naming related (step machine) (step' other))
    (second :
      ∀ value next next',
        step machine = .ok value next →
          related next next' →
            RenamedOutcome naming related (later value next) (later' value next')) :
    RenamedOutcome naming related
      ((step >>= later) machine) ((step' >>= later') other) := by
  generalize outcome : step machine = result, outcome' : step' other = result' at first
  cases first with
  | ok after =>
      rw [bind_of_ok outcome, bind_of_ok outcome']
      exact second _ _ _ outcome after
  | error after =>
      rw [bind_of_error outcome, bind_of_error outcome']
      exact .error after

/-- A request has the same outcome under the new names. -/
theorem renamedOutcome_request
    {α : Type} {action action' : Store.Action (List Command) α}
    {operation : Operation (List Command)} {reply : α → Reply (List Command)}
    (keeps : ordered → naming.KeepsNames)
    (requests : Store.Requests action operation reply)
    (requests' : Store.Requests action' (operation.rename naming) reply)
    (sameReply : ∀ value, (reply value).rename naming = reply value)
    (shows : ∀ name ∈ operation.variables, naming.Shows name)
    (ends : ∀ scope ∈ machine.store.endedBy operation, scope.OnlyShows naming)
    (renamed : machine.Renamed naming ordered other) :
    RenamedOutcome naming (Machine.Renamed naming ordered)
      (onStore action machine) (onStore action' other) := by
  cases outcome : onStore action machine with
  | ok value next =>
      obtain ⟨store, granted, rfl⟩ := requests.onStore_granted outcome
      obtain ⟨store', grantedToo, after⟩ := granted.rename keeps shows ends renamed.store
      rw [sameReply] at grantedToo
      rw [requests'.onStore_of_granted grantedToo]
      exact .ok ⟨after, renamed.printed, renamed.echo⟩
  | error fault stopped =>
      have refusedToo := (requests.onStore_reason outcome).rename shows renamed.store
      rw [requests.onStore_refused outcome, requests'.onStore_of_refused refusedToo]
      exact .error renamed

/-- A request that moves no scope ends none. -/
private theorem endedBy_of_stays
    {operation : Operation (List Command)}
    (stays : operation.movesScopes = false)
    (store : Store (List Command)) :
    store.endedBy operation = [] := by
  cases operation with
  | popScope | popFrame => contradiction
  | _ => rfl

theorem renamedOutcome_emit
    (value : Word)
    (renamed : machine.Renamed naming ordered other) :
    RenamedOutcome naming (Machine.Renamed naming ordered)
      (emit value machine) (emit value other) := by
  obtain ⟨store, printed, echo⟩ := machine
  obtain ⟨store', printed', echo'⟩ := other
  obtain ⟨sameStore, samePrinted, sameEcho⟩ := renamed
  dsimp only at sameStore samePrinted sameEcho
  subst samePrinted sameEcho
  cases sameStore with
  | intro reordered inOrder =>
      cases echo' with
      | false => exact .ok ⟨.intro reordered inOrder, rfl, rfl⟩
      | true => exact .ok ⟨.intro reordered inOrder, rfl, rfl⟩

/-- The names that are not shown are ignored by the commands. -/
def Naming.HidesIgnored (naming : Naming) (commands : List Command) (machine : Machine) : Prop :=
  ∀ name, ¬ naming.Shows name → Ignores name commands machine

theorem Naming.HidesIgnored.shows
    {command : Command}
    (hides : naming.HidesIgnored [command] machine) :
    ∀ name ∈ command.variables, naming.Shows name := by
  intro name member
  by_contra hidden
  exact (hides name hidden).notVariable member

/-- Commands without a body have the same outcome under the new names. -/
private theorem renamedOutcome_simple
    (keeps : ordered → naming.KeepsNames)
    {command : Command}
    (simple : command.isSimple = true)
    (hides : naming.HidesIgnored [command] machine)
    (renamed : machine.Renamed naming ordered other) :
    RenamedOutcome naming (Machine.Renamed naming ordered)
      (execute [command] machine) (execute (naming.commands [command]) other) := by
  have shows := hides.shows
  have request {α : Type} {action action' : Store.Action (List Command) α}
      {operation : Operation (List Command)} {reply : α → Reply (List Command)}
      (requests : Store.Requests action operation reply)
      (requests' : Store.Requests action' (operation.rename naming) reply)
      (stays : operation.movesScopes = false)
      (sameReply : ∀ value, (reply value).rename naming = reply value)
      (shows : ∀ name ∈ operation.variables, naming.Shows name)
      {machine other : Machine} (renamed : machine.Renamed naming ordered other) :
      RenamedOutcome naming (Machine.Renamed naming ordered)
        (onStore action machine) (onStore action' other) := by
    refine renamedOutcome_request keeps requests requests' sameReply shows ?_ renamed
    rw [endedBy_of_stays stays]
    exact List.forall_mem_nil _
  simp only [Naming.commands, renameAll]
  cases command with
  | declare kind name position =>
      rw [Command.rename, execute_declare, execute_declare]
      exact request (Store.requests_declare name kind)
        (Store.requests_declare (naming.name name) kind) rfl (fun _ => rfl) shows renamed
  | allocate name position =>
      rw [Command.rename, execute_allocate, execute_allocate]
      apply RenamedOutcome.bind
        (request (Store.requests_allocate name)
          (Store.requests_allocate (naming.name name)) rfl (fun _ => rfl) shows renamed)
      intro _ next next' _ after
      exact .ok after
  | assign name value position =>
      rw [Command.rename, execute_assign, execute_assign]
      exact request (Store.requests_write name value)
        (Store.requests_write (naming.name name) value) rfl (fun _ => rfl) shows renamed
  | copy target source position =>
      rw [Command.rename, execute_copy, execute_copy]
      exact request (Store.requests_copy target source)
        (Store.requests_copy (naming.name target) (naming.name source)) rfl (fun _ => rfl)
        shows renamed
  | input name position =>
      rw [Command.rename, execute_input, execute_input]
      apply RenamedOutcome.bind
        (request Store.requests_nextData Store.requests_nextData rfl (fun _ => rfl)
          (List.forall_mem_nil _) renamed)
      intro value next next' _ after
      exact request (Store.requests_write name value)
        (Store.requests_write (naming.name name) value) rfl (fun _ => rfl) shows after
  | print name position =>
      rw [Command.rename, execute_print, execute_print]
      apply RenamedOutcome.bind
        (request (Store.requests_read name)
          (Store.requests_read (naming.name name)) rfl (fun _ => rfl) shows renamed)
      intro value next next' _ after
      exact renamedOutcome_emit value after
  | function name formals body position =>
      rw [Command.rename, execute_function, execute_function]
      exact request (Store.requests_register name formals body)
        (Store.requests_register (naming.function name) (formals.map naming.name)
          (naming.commands body))
        rfl (fun _ => rfl) shows renamed
  | block | frame | call =>
      contradiction

/-! ## Bodies -/

/-- The requests around a body under the new names. -/
def Bracket.rename (naming : Naming) : Bracket → Bracket
  | scope => scope
  | frame => frame
  | call function formals actuals =>
      call (naming.function function) (formals.map naming.name) (actuals.map naming.name)

theorem Bracket.opens_rename (bracket : Bracket) :
    (bracket.rename naming).opens = bracket.opens.rename naming := by
  cases bracket <;> rfl

theorem Bracket.closes_rename (bracket : Bracket) :
    (bracket.rename naming).closes = bracket.closes.rename naming := by
  cases bracket <;> rfl

theorem Bracket.endedBy_opens (bracket : Bracket) (store : Store (List Command)) :
    store.endedBy bracket.opens = [] := by
  cases bracket <;> rfl

/-- A body between two requests has the same outcome, if only what is shown goes out of scope. -/
theorem renamedOutcome_around
    (keeps : ordered → naming.KeepsNames)
    {bracket : Bracket} {body body' : Execution Unit}
    (shows : ∀ name ∈ bracket.opens.variables, naming.Shows name)
    (inside :
      ∀ entered entered',
        onStore bracket.push machine = .ok () entered →
          entered.Renamed naming ordered entered' →
            RenamedOutcome naming (Machine.Renamed naming ordered) (body entered) (body' entered'))
    (ends :
      ∀ entered between,
        onStore bracket.push machine = .ok () entered →
          body entered = .ok () between →
            ∀ scope ∈ between.store.endedBy bracket.closes, scope.OnlyShows naming)
    (renamed : machine.Renamed naming ordered other) :
    RenamedOutcome naming (Machine.Renamed naming ordered)
      (bracket.around body machine) ((bracket.rename naming).around body' other) := by
  have pushes := (bracket.rename naming).requests_push
  have pops := (bracket.rename naming).requests_pop
  rw [bracket.opens_rename] at pushes
  rw [bracket.closes_rename] at pops
  apply RenamedOutcome.bind
  · apply renamedOutcome_request keeps bracket.requests_push pushes (fun _ => rfl) shows _ renamed
    rw [bracket.endedBy_opens]
    exact List.forall_mem_nil _
  intro _ entered entered' pushed enteredRenamed
  apply RenamedOutcome.bind (inside entered entered' pushed enteredRenamed)
  intro _ between between' bodyDone betweenRenamed
  refine renamedOutcome_request keeps bracket.requests_pop pops (fun _ => rfl) ?_
    (ends entered between pushed bodyDone) betweenRenamed
  exact fun name member => (bracket.not_mem_variables_closes name member).elim

/-- The functions of the other machine are those of the machine under the new names. -/
theorem Machine.Renamed.find?_functions
    (renamed : machine.Renamed naming ordered other) (name : String) :
    other.store.functions.find? (naming.function name) =
      (machine.store.functions.find? name).map (.rename naming) := by
  have sameStore := renamed.store
  generalize other.store = store at sameStore
  cases sameStore with
  | intro => exact machine.store.functions.find?_rename name

/-- A command that executes a body executes it under the new names. -/
theorem Encloses.rename
    {command : Command} {bracket : Bracket} {body : List Command}
    (encloses : Encloses machine command bracket body)
    (renamed : machine.Renamed naming ordered other) :
    Encloses other (command.rename naming.name naming.function naming.place)
      (bracket.rename naming) (naming.commands body) := by
  cases encloses with
  | block => exact .block
  | frame => exact .frame
  | @call name actuals position definition found =>
      have foundToo := renamed.find?_functions name
      rw [found, Option.map_some] at foundToo
      exact .call foundToo

/--
Commands have the same outcome under the new names. They have to ignore what is
hidden, and then it is never bound where a scope or a frame ends.
-/
theorem renamedOutcome_execute
    (keeps : ordered → naming.KeepsNames)
    {commands : List Command}
    (hides : naming.HidesIgnored commands machine)
    (renamed : machine.Renamed naming ordered other) :
    RenamedOutcome naming (Machine.Renamed naming ordered)
      (execute commands machine) (execute (naming.commands commands) other) := by
  induction commands, machine using execute_bracketInduction generalizing other with
  | nil machine =>
      exact .ok renamed
  | cons command rest machine first later =>
      have inOrder :
          execute (naming.commands (command :: rest)) =
            (do execute (naming.commands [command])
                execute (naming.commands rest)) :=
        execute_cons _ _
      rw [execute_cons, inOrder]
      apply RenamedOutcome.bind (first (fun name hidden => (hides name hidden).first) renamed)
      intro _ between between' done after
      refine later between done (fun name hidden => ?_) after
      have ignores := hides name hidden
      exact ignores.later ((spares_of_ignores ignores.first).untouched done).apart
  | simple command machine simple =>
      exact renamedOutcome_simple keeps simple hides renamed
  | unknown name actuals position machine missing =>
      have missingToo := renamed.find?_functions name
      rw [missing, Option.map_none] at missingToo
      rw [execute_call_of_missing missing]
      have failedToo :
          execute (naming.commands [.call name actuals position]) other =
            .error (.undefinedFunction (naming.function name)) other :=
        execute_call_of_missing missingToo _ _
      rw [failedToo]
      exact .error renamed
  | bracket command bracket body machine encloses inside =>
      have renamedBody :
          execute (naming.commands [command]) other =
            (bracket.rename naming).around (execute (naming.commands body)) other :=
        (encloses.rename renamed).execute_eq
      rw [encloses.execute_eq, renamedBody]
      -- What is hidden is not bound in the scopes and frames that the body is executed in.
      have opened {name : String} (hidden : ¬ naming.Shows name) {entered : Machine}
          (pushed : onStore bracket.push machine = .ok () entered) :
          bracket.Opened name machine entered ∧ Ignores name body entered := by
        obtain ⟨notOpened, notInBody⟩ := (hides name hidden).enclosed encloses
        have opened := bracket.opened_of_push notOpened (hides name hidden).apart pushed
        exact ⟨opened, notInBody, opened.apart⟩
      apply renamedOutcome_around keeps ?_ ?_ ?_ renamed
      · intro name member
        by_contra hidden
        exact ((hides name hidden).enclosed encloses).1 member
      · intro entered entered' pushed after
        exact inside entered pushed (fun name hidden => (opened hidden pushed).2) after
      · intro entered between pushed bodyDone scope ended name bound
        by_contra hidden
        obtain ⟨opened, ignores⟩ := opened hidden pushed
        have untouched := (spares_of_ignores ignores).untouched bodyDone
        exact bound (opened.unbound_of_ended untouched ended)

/-! ## Scripts -/

theorem functionsFirst_commands (commands : List Command) :
    functionsFirst (naming.commands commands) = naming.commands (functionsFirst commands) := by
  simp only [functionsFirst, Naming.commands, renameAll_eq_map, List.map_append,
    List.filter_map, Function.comp_def, Command.isFunction_rename]

/-- A script has the same outcome under the new names. -/
theorem renamedOutcome_runScript
    (keeps : ordered → naming.KeepsNames)
    {commands : List Command}
    (hides : naming.HidesIgnored commands machine)
    (renamed : machine.Renamed naming ordered other) :
    RenamedOutcome naming (Machine.Renamed naming ordered)
      (runScript commands machine) (runScript (naming.commands commands) other) := by
  rw [runScript_eq, runScript_eq, functionsFirst_commands]
  exact renamedOutcome_execute keeps (fun name hidden => (hides name hidden).functionsFirst) renamed

end Simulation

end RefScript
