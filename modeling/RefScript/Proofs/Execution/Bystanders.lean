import RefScript.Proofs.Execution.Brackets
import RefScript.Proofs.Execution.Reachable
import RefScript.Proofs.Store.Bystanders

namespace RefScript

/-!
# Variables that a run does not use

If neither the commands nor the functions mention a name, the cells of the name
stay what they are. A run that finishes leaves the same cells in the same scopes.
One that meets a fault leaves them too, below the scopes and frames that are still
open, in which the name is not bound.
-/

namespace Store

/--
The cells of a name in frames, before and after scopes that do not bind the name
have been opened in the current frame and frames pushed.
-/
inductive OpenedOver : List (List (Option Cell)) → List (List (Option Cell)) → Prop where
  | unopened
      (cells : List (List (Option Cell))) :
      OpenedOver cells cells
  | scope
      {before callers : List (List (Option Cell))} {current : List (Option Cell)}
      (opened : OpenedOver before (current :: callers)) :
      OpenedOver before ((none :: current) :: callers)
  | frame
      {before after : List (List (Option Cell))}
      (opened : OpenedOver before after) :
      OpenedOver before ([] :: after)

theorem OpenedOver.trans
    {before between after : List (List (Option Cell))}
    (first : OpenedOver before between)
    (second : OpenedOver between after) :
    OpenedOver before after := by
  induction second with
  | unopened => exact first
  | scope _ inductionHypothesis => exact inductionHypothesis.scope
  | frame _ inductionHypothesis => exact inductionHypothesis.frame

/-- All cells of the name are still there, in the globals and in the frames. -/
structure KeepsCells (name : String) (before after : Store (List Command)) : Prop where
  globals : after.globals.find? name = before.globals.find? name
  frames : OpenedOver (before.cellsOf name) (after.cellsOf name)

theorem KeepsCells.trans
    {name : String} {before between after : Store (List Command)}
    (first : KeepsCells name before between)
    (second : KeepsCells name between after) :
    KeepsCells name before after where
  globals := second.globals.trans first.globals
  frames := first.frames.trans second.frames

/-- The cells of the name are the same, and the name is apart from the later store. -/
structure Untouched (name : String) (before after : Store (List Command)) : Prop where
  cells : SameCells name before after
  apart : Apart name after

namespace Untouched

variable {name : String} {before between after : Store (List Command)}

theorem refl (apart : Apart name before) : Untouched name before before :=
  ⟨⟨rfl, rfl⟩, apart⟩

theorem trans
    (first : Untouched name before between)
    (second : Untouched name between after) :
    Untouched name before after :=
  ⟨first.cells.trans second.cells, second.apart⟩

theorem keepsCells (untouched : Untouched name before after) : KeepsCells name before after where
  globals := untouched.cells.globals
  frames := by
    rw [untouched.cells.frames]
    exact .unopened _

end Untouched

end Store

/-! ## Requests before and after a body -/

namespace Bracket

/-- The cells of a name in a machine that has entered a body, and those before. -/
structure Opened (name : String) (bracket : Bracket) (machine entered : Machine) : Prop where
  globals : entered.store.globals.find? name = machine.store.globals.find? name
  frames :
    entered.store.cellsOf name =
      Store.cellsAfter bracket.opens (machine.store.cellsOf name)
  apart : Store.Apart name entered.store

variable {name : String} {machine entered : Machine}

/-- A body that does not use the name is entered with its cells as they were. -/
theorem opened_of_push
    (bracket : Bracket)
    (unused : name ∉ bracket.opens.variables)
    (apart : Store.Apart name machine.store)
    (pushed : onStore bracket.push machine = .ok () entered) :
    bracket.Opened name machine entered := by
  obtain ⟨store, granted, rfl⟩ := bracket.requests_push.onStore_granted pushed
  exact ⟨granted.global_unused unused, granted.cellsOf_unused unused apart.framesScoped,
    granted.apart unused apart⟩

theorem not_mem_variables_closes (bracket : Bracket) (name : String) :
    name ∉ bracket.closes.variables := by
  cases bracket <;> exact List.not_mem_nil

variable (bracket : Bracket) (cells : List (List (Option Cell)))

theorem openedOver_cellsAfter_opens :
    Store.OpenedOver cells (Store.cellsAfter bracket.opens cells) := by
  cases bracket with
  | scope =>
      cases cells with
      | nil => exact .unopened []
      | cons current callers => exact .scope (.unopened _)
  | frame =>
      exact .scope (.frame (.unopened cells))
  | call function formals actuals =>
      exact .scope (.scope (.frame (.unopened cells)))

/-- What is opened before a body is closed after it. -/
theorem cellsAfter_closes :
    Store.cellsAfter bracket.closes (Store.cellsAfter bracket.opens cells) = cells := by
  cases bracket <;> cases cells <;> rfl

/-- The name is not bound in what is opened. -/
theorem cellsEnded_closes
    {cell : Option Cell}
    (ended : cell ∈ Store.cellsEnded bracket.closes (Store.cellsAfter bracket.opens cells)) :
    cell = none := by
  cases bracket with
  | scope =>
      cases cells with
      | nil => exact (List.not_mem_nil ended).elim
      | cons current callers => exact List.mem_singleton.mp ended
  | frame =>
      exact List.mem_singleton.mp ended
  | call function formals actuals =>
      rcases List.mem_cons.mp ended with isNone | isOther
      · exact isNone
      · exact List.mem_singleton.mp isOther

theorem Opened.keepsCells
    {bracket : Bracket}
    (opened : bracket.Opened name machine entered) :
    Store.KeepsCells name machine.store entered.store where
  globals := opened.globals
  frames := by
    rw [opened.frames]
    exact bracket.openedOver_cellsAfter_opens _

/-- After a body that leaves the cells, what is closed does not bind the name. -/
theorem Opened.unbound_of_ended
    {bracket : Bracket} {between : Machine}
    (opened : bracket.Opened name machine entered)
    (untouched : Store.Untouched name entered.store between.store)
    {scope : Scope}
    (ended : scope ∈ between.store.endedBy bracket.closes) :
    scope.find? name = none := by
  apply bracket.cellsEnded_closes (machine.store.cellsOf name)
  rw [← opened.frames, ← untouched.cells.frames, ← Store.map_find?_endedBy]
  exact List.mem_map_of_mem ended

end Bracket

/-! ## Steps that leave the cells of a name -/

/--
A step that leaves the cells of a name: the same ones where it finishes, and
otherwise those and what is still open.
-/
structure Spares {α : Type} (name : String) (step : Execution α) (machine : Machine) : Prop where
  kept : Store.KeepsCells name machine.store (leaves step machine).store
  untouched :
    ∀ {value next},
      step machine = .ok value next → Store.Untouched name machine.store next.store

/-- The commands do not use the name, and it is apart from the store that they run on. -/
structure Ignores (name : String) (commands : List Command) (machine : Machine) : Prop where
  unused : name ∉ variablesIn commands
  apart : Store.Apart name machine.store

section Spares

variable {name : String} {machine : Machine}

namespace Spares

variable {α β : Type}

/-- A step that leaves an untouched store in any case. -/
theorem of_untouched
    {step : Execution α}
    (untouched : Store.Untouched name machine.store (leaves step machine).store) :
    Spares name step machine where
  kept := untouched.keepsCells
  untouched := by
    intro value next done
    rw [leaves_of_ok done] at untouched
    exact untouched

/-- Only what the step does on the machine matters. -/
theorem congr
    {step step' : Execution α}
    (same : step machine = step' machine)
    (spares : Spares name step' machine) :
    Spares name step machine where
  kept := by
    rw [leaves, same]
    exact spares.kept
  untouched := by
    rw [same]
    exact spares.untouched

/-- Two steps, of which the second one starts with the same cells. -/
theorem bind
    {step : Execution α} {later : α → Execution β}
    (first : Spares name step machine)
    (second :
      ∀ value between,
        step machine = .ok value between →
          Store.Apart name between.store → Spares name (later value) between) :
    Spares name (step >>= later) machine where
  kept := by
    refine @leaves_bind _ _ step machine
      (fun later => Store.KeepsCells name machine.store later.store) later first.kept ?_
    intro value between done _
    have untouched := first.untouched done
    exact untouched.keepsCells.trans (second value between done untouched.apart).kept
  untouched := by
    intro value next done
    obtain ⟨_, between, firstDone, laterDone⟩ := bind_eq_ok_iff.mp done
    have untouched := first.untouched firstDone
    exact untouched.trans ((second _ between firstDone untouched.apart).untouched laterDone)

variable {action : Store.Action (List Command) α} {operation : Operation (List Command)}
  {reply : α → Reply (List Command)}

/-- A request that moves no scope and does not use the name. -/
theorem request
    (requests : Store.Requests action operation reply)
    (stays : operation.movesScopes = false)
    (unused : name ∉ operation.variables)
    (apart : Store.Apart name machine.store) :
    Spares name (onStore action) machine := by
  apply of_untouched
  cases outcome : onStore action machine with
  | ok value next =>
      obtain ⟨store, granted, rfl⟩ := requests.onStore_granted outcome
      have frames := granted.cellsOf_unused unused apart.framesScoped
      rw [Store.cellsAfter_of_stays stays] at frames
      rw [leaves_of_ok outcome]
      exact ⟨⟨granted.global_unused unused, frames⟩, granted.apart unused apart⟩
  | error fault stopped =>
      rw [leaves_of_error outcome, requests.onStore_refused outcome]
      exact .refl apart

theorem emit (value : Word) (apart : Store.Apart name machine.store) :
    Spares name (emit value) machine := by
  apply of_untouched
  obtain ⟨store, printed, echo⟩ := machine
  cases echo with
  | false => exact .refl apart
  | true => exact ⟨⟨rfl, rfl⟩, apart.unmentioned, apart.framesScoped⟩

/-- A body between two requests, the second of which takes back what the first one does. -/
theorem around
    {bracket : Bracket} {body : Execution Unit}
    (notOpened : name ∉ bracket.opens.variables)
    (apart : Store.Apart name machine.store)
    (inside :
      ∀ entered,
        onStore bracket.push machine = .ok () entered →
          Store.Apart name entered.store → Spares name body entered) :
    Spares name (bracket.around body) machine := by
  have afterPop {entered between next : Machine}
      (pushed : onStore bracket.push machine = .ok () entered)
      (bodyDone : body entered = .ok () between)
      (popped : onStore bracket.pop between = .ok () next) :
      Store.Untouched name machine.store next.store := by
    have opened := bracket.opened_of_push notOpened apart pushed
    have untouched := (inside entered pushed opened.apart).untouched bodyDone
    have notClosed := bracket.not_mem_variables_closes name
    obtain ⟨store, granted, rfl⟩ := bracket.requests_pop.onStore_granted popped
    refine ⟨⟨?_, ?_⟩, granted.apart notClosed untouched.apart⟩
    · rw [granted.global_unused notClosed, untouched.cells.globals, opened.globals]
    · rw [granted.cellsOf_unused notClosed untouched.apart.framesScoped,
        untouched.cells.frames, opened.frames, bracket.cellsAfter_closes]
  constructor
  · cases outcome : onStore bracket.push machine with
    | error fault stopped =>
        rw [Bracket.around, leaves_of_error (bind_of_error outcome),
          bracket.requests_push.onStore_refused outcome]
        exact (Store.Untouched.refl apart).keepsCells
    | ok _ entered =>
        have opened := bracket.opened_of_push notOpened apart outcome
        rw [Bracket.around, leaves, bind_of_ok outcome]
        refine @leaves_bind _ _ body entered
          (fun later => Store.KeepsCells name machine.store later.store)
          (fun _ => onStore bracket.pop)
          (opened.keepsCells.trans (inside entered outcome opened.apart).kept) ?_
        intro _ between bodyDone keptInside
        cases popOutcome : onStore bracket.pop between with
        | ok _ next =>
            rw [leaves_of_ok popOutcome]
            exact (afterPop outcome bodyDone popOutcome).keepsCells
        | error fault stopped =>
            rw [leaves_of_error popOutcome, bracket.requests_pop.onStore_refused popOutcome]
            exact keptInside
  · intro _ next done
    obtain ⟨_, entered, pushed, restDone⟩ := bind_eq_ok_iff.mp done
    obtain ⟨_, between, bodyDone, popped⟩ := bind_eq_ok_iff.mp restDone
    exact afterPop pushed bodyDone popped

end Spares

/-! ## Commands that ignore a name -/

variable {commands : List Command}

theorem Ignores.first
    {command : Command} {rest : List Command}
    (ignores : Ignores name (command :: rest) machine) :
    Ignores name [command] machine where
  unused member := ignores.unused (List.mem_append_left _ (by simpa [variablesIn] using member))
  apart := ignores.apart

theorem Ignores.later
    {command : Command} {rest : List Command} {next : Machine}
    (ignores : Ignores name (command :: rest) machine)
    (apart : Store.Apart name next.store) :
    Ignores name rest next where
  unused member := ignores.unused (List.mem_append_right _ member)
  apart := apart

/-- A command that is executed alone uses its own variables. -/
theorem Ignores.notVariable
    {command : Command}
    (ignores : Ignores name [command] machine) :
    name ∉ command.variables := by
  simpa [variablesIn] using ignores.unused

/-- In which order commands stand makes no difference to the names they use. -/
theorem Ignores.functionsFirst (ignores : Ignores name commands machine) :
    Ignores name (functionsFirst commands) machine where
  unused := by
    have unused := ignores.unused
    rw [variablesIn_eq_flatMap, List.mem_flatMap] at unused ⊢
    rintro ⟨command, member, uses⟩
    refine unused ⟨command, ?_, uses⟩
    rcases List.mem_append.mp member with isFunction | isOther
    · exact (List.mem_filter.mp isFunction).1
    · exact (List.mem_filter.mp isOther).1
  apart := ignores.apart

private theorem spares_simple
    {command : Command}
    (simple : command.isSimple = true)
    (ignores : Ignores name [command] machine) :
    Spares name (execute [command]) machine := by
  have unused := ignores.notVariable
  have apart := ignores.apart
  cases command with
  | declare kind declared position =>
      rw [execute_declare]
      exact .request (Store.requests_declare declared kind) rfl unused apart
  | allocate allocated position =>
      rw [execute_allocate]
      apply Spares.bind (.request (Store.requests_allocate allocated) rfl unused apart)
      intro _ between _ apartBetween
      exact .of_untouched (.refl apartBetween)
  | assign assigned value position =>
      rw [execute_assign]
      exact .request (Store.requests_write assigned value) rfl unused apart
  | copy target source position =>
      rw [execute_copy]
      exact .request (Store.requests_copy target source) rfl unused apart
  | input read position =>
      rw [execute_input]
      apply Spares.bind (.request Store.requests_nextData rfl List.not_mem_nil apart)
      intro value between _ apartBetween
      exact .request (Store.requests_write read value) rfl unused apartBetween
  | print read position =>
      rw [execute_print]
      apply Spares.bind (.request (Store.requests_read read) rfl unused apart)
      intro value between _ apartBetween
      exact .emit value apartBetween
  | function registered formals body position =>
      rw [execute_function]
      exact .request (Store.requests_register registered formals body) rfl unused apart
  | block | frame | call =>
      contradiction

/-- Where a body is executed, neither the request before it nor the body uses the name. -/
theorem Ignores.enclosed
    {command : Command} {bracket : Bracket} {body : List Command}
    (ignores : Ignores name [command] machine)
    (encloses : Encloses machine command bracket body) :
    name ∉ bracket.opens.variables ∧ name ∉ variablesIn body := by
  have unused := ignores.notVariable
  cases encloses with
  | block | frame =>
      exact ⟨List.not_mem_nil, unused⟩
  | call found =>
      have unmentioned := ignores.apart.unmentioned _ _ found
      have notFormal := fun member => unmentioned (List.mem_append_left _ member)
      have notInBody := fun member => unmentioned (List.mem_append_right _ member)
      exact ⟨List.not_mem_append notFormal unused, notInBody⟩

/-- Commands that ignore a name leave its cells. -/
theorem spares_of_ignores (ignores : Ignores name commands machine) :
    Spares name (execute commands) machine := by
  induction commands, machine using execute_bracketInduction with
  | nil machine =>
      exact .of_untouched (.refl ignores.apart)
  | cons command rest machine first later =>
      rw [execute_cons]
      apply Spares.bind (first ignores.first)
      intro _ between done apart
      exact later between done (ignores.later apart)
  | simple command machine simple =>
      exact spares_simple simple ignores
  | unknown called actuals position machine missing =>
      apply Spares.of_untouched
      rw [leaves_of_error (execute_call_of_missing missing actuals position)]
      exact .refl ignores.apart
  | bracket command bracket body machine encloses inside =>
      obtain ⟨notOpened, notInBody⟩ := ignores.enclosed encloses
      apply Spares.congr encloses.execute_eq
      apply Spares.around notOpened ignores.apart
      intro entered pushed apart
      exact inside entered pushed ⟨notInBody, apart⟩

/-- So do scripts. -/
theorem spares_runScript_of_ignores (ignores : Ignores name commands machine) :
    Spares name (runScript commands) machine := by
  rw [runScript_eq]
  exact spares_of_ignores ignores.functionsFirst

end Spares

end RefScript
