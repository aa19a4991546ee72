import RefScript.Proofs.Execution.Parameters

namespace RefScript

/-!
# How a call is entered

Before the first command of its body, a call looks its function up, has its arguments
and the depth of the call stack checked, binds the parameters and pushes a frame. The
checks come in a fixed order, and each may be the one that refuses the call when the
ones before it have passed, whatever else is wrong. A refused call has done nothing;
an entered one has pushed a frame on the stack as it was, and nothing more.
-/

namespace Store

variable {Body : Type} {store : Store Body} {formals actuals : List String}

/--
The scope that a call has for its parameters. It binds the formal ones, and each of them
to a reference with the raw value of an actual one: the one at its position, and if a
name is repeated among the formal parameters, at the last of its positions.
-/
structure BindsParameters
    (store : Store Body) (formals actuals : List String) (parameters : Scope) : Prop where
  names : ∀ name, (parameters.find? name).isSome ↔ name ∈ formals
  values : ∀ index formal actual,
    formals[index]? = some formal →
      formal ∉ formals.drop (index + 1) →
        actuals[index]? = some actual →
          ∃ cell, store.find? actual = some cell ∧
            parameters.find? formal = some (Cell.rawRef cell.value)

/-- A name in a list has a last position in it. -/
private theorem exists_last_position {name : String} {names : List String} (listed : name ∈ names) :
    ∃ index, names[index]? = some name ∧ name ∉ names.drop (index + 1) := by
  induction names with
  | nil => contradiction
  | cons first rest inductionHypothesis =>
      by_cases again : name ∈ rest
      · obtain ⟨index, isHere, notLater⟩ := inductionHypothesis again
        exact ⟨index + 1, isHere, notLater⟩
      · obtain rfl | inRest := List.mem_cons.mp listed
        · exact ⟨0, rfl, again⟩
        · contradiction

/-- If all actual parameters designate variables, there is a scope of the formal ones. -/
theorem exists_bindActuals
    (sameLength : formals.length = actuals.length)
    (allFound : ∀ actual ∈ actuals, (store.find? actual).isSome) :
    ∃ parameters, store.bindActuals formals actuals Scope.empty = .ok parameters := by
  cases bound : store.bindActuals formals actuals Scope.empty with
  | ok parameters => exact ⟨parameters, rfl⟩
  | error fault =>
      obtain ⟨actual, unbound, -⟩ := (bindActuals_eq_error_iff sameLength).mp bound
      have isFound := allFound actual (List.mem_of_find?_eq_some unbound)
      have isMissing := List.find?_some unbound
      rw [Option.isNone_iff_eq_none] at isMissing
      rw [isMissing] at isFound
      contradiction

/-- The scope that a call makes is the scope of its parameters. -/
theorem bindsParameters_of_bindActuals
    {parameters : Scope}
    (sameLength : formals.length = actuals.length)
    (allFound : ∀ actual ∈ actuals, (store.find? actual).isSome)
    (bound : store.bindActuals formals actuals Scope.empty = .ok parameters) :
    store.BindsParameters formals actuals parameters := by
  have values : ∀ index formal actual,
      formals[index]? = some formal →
        formal ∉ formals.drop (index + 1) →
          actuals[index]? = some actual →
            ∃ cell, store.find? actual = some cell ∧
              parameters.find? formal = some (Cell.rawRef cell.value) := by
    intro index formal actual isFormal isLast isActual
    obtain ⟨cell, found⟩ := Option.isSome_iff_exists.mp
      (allFound actual (List.mem_of_getElem? isActual))
    exact ⟨cell, found, find?_of_passed bound isFormal isLast isActual found⟩
  refine ⟨fun name => ⟨fun isBound => ?_, fun isFormal => ?_⟩, values⟩
  · refine Decidable.byContradiction fun notFormal => ?_
    rw [find?_of_bindActuals bound notFormal, Scope.find?_empty] at isBound
    contradiction
  · obtain ⟨index, isHere, isLast⟩ := exists_last_position isFormal
    obtain ⟨inRange, -⟩ := List.getElem?_eq_some_iff.mp isHere
    obtain ⟨cell, -, isBound⟩ :=
      values index name _ isHere isLast (List.getElem?_eq_getElem (sameLength ▸ inRange))
    rw [isBound]
    rfl

/-- There is only one scope of the parameters. -/
theorem BindsParameters.unique
    {parameters other : Scope}
    (sameLength : formals.length = actuals.length)
    (binds : store.BindsParameters formals actuals parameters)
    (otherBinds : store.BindsParameters formals actuals other) :
    parameters = other := by
  ext1 name
  by_cases isFormal : name ∈ formals
  · obtain ⟨index, isHere, isLast⟩ := exists_last_position isFormal
    obtain ⟨inRange, -⟩ := List.getElem?_eq_some_iff.mp isHere
    have isActual := List.getElem?_eq_getElem (sameLength ▸ inRange : index < actuals.length)
    obtain ⟨cell, found, isBound⟩ := binds.values index name _ isHere isLast isActual
    obtain ⟨_, foundToo, isBoundToo⟩ := otherBinds.values index name _ isHere isLast isActual
    cases found.symm.trans foundToo
    rw [isBound, isBoundToo]
  · have unbound := mt (binds.names name).mp isFormal
    have unboundToo := mt (otherBinds.names name).mp isFormal
    rw [Option.not_isSome_iff_eq_none] at unbound unboundToo
    rw [unbound, unboundToo]

end Store

/-- What a call does before the first command of the body, giving the body. -/
def enterCall (name : String) (actuals : List String) : Execution (List Command) := do
  let formals ← onStore (Store.formalsOf name)
  onStore (Store.pushCallFrame name formals actuals)
  onStore (Store.bodyOf name)

/-- A call is entered, the body is executed, and the frame is popped. -/
theorem execute_call_eq_enterCall (name : String) (actuals : List String) (position : Position) :
    execute [.call name actuals position] =
      (do let body ← enterCall name actuals
          execute body
          onStore Store.popFrame) := by
  rw [execute_call, enterCall]
  simp only [bind_assoc]

/--
What comes of entering a call. The first of these faults is met for which there is a
reason, and the machine is as it was; without any reason for a fault, the call is
entered. Its frame is put on the stack of the machine, with the parameters in the base
scope and a scope for the body that binds nothing.
-/
inductive CallEntry (machine : Machine) (name : String) (actuals : List String) :
    EStateM.Result Fault Machine (List Command) → Prop where
  | undefinedFunction
      (unregistered : machine.store.functions.find? name = none) :
      CallEntry machine name actuals (.error (.undefinedFunction name) machine)
  | argumentCount
      {definition : FunctionDef (List Command)}
      (registered : machine.store.functions.find? name = some definition)
      (lengthsDiffer : definition.formals.length ≠ actuals.length) :
      CallEntry machine name actuals
        (.error (.argumentCount name definition.formals.length actuals.length) machine)
  | callDepth
      {definition : FunctionDef (List Command)}
      (registered : machine.store.functions.find? name = some definition)
      (sameLength : definition.formals.length = actuals.length)
      (full : machine.store.settings.maxCallDepth ≤ machine.store.callDepth) :
      CallEntry machine name actuals
        (.error (.callDepth machine.store.settings.maxCallDepth) machine)
  | undefinedName
      {definition : FunctionDef (List Command)}
      {earlier later : List String} {actual : String}
      (registered : machine.store.functions.find? name = some definition)
      (sameLength : definition.formals.length = actuals.length)
      (room : machine.store.callDepth < machine.store.settings.maxCallDepth)
      (actuals_eq : actuals = earlier ++ actual :: later)
      (earlierFound : ∀ other ∈ earlier, (machine.store.find? other).isSome)
      (missing : machine.store.find? actual = none) :
      CallEntry machine name actuals (.error (.undefinedName actual) machine)
  | entered
      {definition : FunctionDef (List Command)} {parameters : Scope}
      (registered : machine.store.functions.find? name = some definition)
      (sameLength : definition.formals.length = actuals.length)
      (room : machine.store.callDepth < machine.store.settings.maxCallDepth)
      (allFound : ∀ actual ∈ actuals, (machine.store.find? actual).isSome)
      (binds : machine.store.BindsParameters definition.formals actuals parameters) :
      CallEntry machine name actuals
        (.ok definition.body
          { machine with
            store := machine.store.withFrames
              (⟨name, [Scope.empty, parameters]⟩ :: machine.store.stack.frames) })

section Entry

variable {machine : Machine} {name : String} {actuals : List String}

/-- One of the cases is that of the call. -/
theorem exists_callEntry (machine : Machine) (name : String) (actuals : List String) :
    ∃ outcome, CallEntry machine name actuals outcome := by
  cases registered : machine.store.functions.find? name with
  | none => exact ⟨_, .undefinedFunction registered⟩
  | some definition =>
      by_cases sameLength : definition.formals.length = actuals.length
      · rcases Nat.lt_or_ge machine.store.callDepth machine.store.settings.maxCallDepth with
          room | full
        · cases unbound : actuals.find? (fun actual => (machine.store.find? actual).isNone) with
          | some actual =>
              obtain ⟨missing, earlier, later, actuals_eq, earlierFound⟩ :=
                List.find?_eq_some_iff_append.mp unbound
              refine ⟨_, .undefinedName registered sameLength room actuals_eq ?_
                (Option.isNone_iff_eq_none.mp missing)⟩
              simpa using earlierFound
          | none =>
              have allFound : ∀ actual ∈ actuals, (machine.store.find? actual).isSome := by
                simpa [Option.isSome_iff_ne_none] using unbound
              obtain ⟨parameters, bound⟩ := Store.exists_bindActuals sameLength allFound
              exact ⟨_, .entered registered sameLength room allFound
                (Store.bindsParameters_of_bindActuals sameLength allFound bound)⟩
        · exact ⟨_, .callDepth registered sameLength full⟩
      · exact ⟨_, .argumentCount registered sameLength⟩

/-- A registered function is called by pushing the frame; then the body is at hand. -/
private theorem enterCall_of_registered
    {definition : FunctionDef (List Command)}
    (registered : machine.store.functions.find? name = some definition) :
    enterCall name actuals machine =
      (do onStore (Store.pushCallFrame name definition.formals actuals)
          pure definition.body) machine := by
  rw [← enterCall_of_found registered actuals pure, enterCall]
  simp only [bind_pure]

/-- If the push is refused, that is what comes of the call. -/
private theorem enterCall_of_refused
    {definition : FunctionDef (List Command)} {fault : Fault}
    (registered : machine.store.functions.find? name = some definition)
    (refused :
      Store.Refused machine.store
        (.pushCallFrame name definition.formals actuals : Operation (List Command)) fault) :
    enterCall name actuals machine = .error fault machine := by
  rw [enterCall_of_registered registered]
  exact bind_of_error ((Store.requests_pushCallFrame _ _ _).onStore_of_refused refused)

/-- In each of the cases, entering the call does what the case says. -/
theorem CallEntry.enterCall_eq
    {outcome : EStateM.Result Fault Machine (List Command)}
    (entry : CallEntry machine name actuals outcome) :
    enterCall name actuals machine = outcome := by
  cases entry with
  | undefinedFunction unregistered =>
      exact bind_of_error (onStore_formalsOf_of_missing unregistered)
  | argumentCount registered lengthsDiffer =>
      exact enterCall_of_refused registered (.argumentCount lengthsDiffer)
  | callDepth registered sameLength full =>
      exact enterCall_of_refused registered (.callDepth (decide_eq_true sameLength) full)
  | @undefinedName definition earlier later actual registered sameLength room actuals_eq
      earlierFound missing =>
      refine enterCall_of_refused registered (.unboundActual sameLength room ?_)
      refine List.find?_eq_some_iff_append.mpr
        ⟨Option.isNone_iff_eq_none.mpr missing, earlier, later, actuals_eq, ?_⟩
      simpa using earlierFound
  | @entered definition parameters registered sameLength room allFound binds =>
      obtain ⟨scope, bound⟩ := Store.exists_bindActuals sameLength allFound
      have bindsToo := Store.bindsParameters_of_bindActuals sameLength allFound bound
      cases binds.unique sameLength bindsToo
      have pushed :
          onStore (Store.pushCallFrame name definition.formals actuals) machine =
            .ok () { machine with
              store := machine.store.withFrames
                (⟨name, [Scope.empty, parameters]⟩ :: machine.store.stack.frames) } :=
        (Store.requests_pushCallFrame _ _ _).onStore_of_granted
          (.pushCallFrame sameLength room bound)
      rw [enterCall_of_registered registered, bind_of_ok pushed]
      rfl

end Entry

/--
A call with any actual parameters, on any machine. The call is entered, then the body is
executed and the frame popped, and entering it has exactly the outcome of the case that
the machine is in: an unregistered function, a wrong number of arguments, a full call
stack and an argument that designates no variable, in this order, leave the machine as it
is; otherwise one frame is pushed, in which the parameters are bound.
-/
theorem call_is_entered_by_cases (machine : Machine) (name : String) (actuals : List String) :
    (∀ position,
      execute [.call name actuals position] machine =
        (do let body ← enterCall name actuals
            execute body
            onStore Store.popFrame) machine) ∧
    ∀ outcome,
      enterCall name actuals machine = outcome ↔ CallEntry machine name actuals outcome := by
  refine ⟨fun position => congrFun (execute_call_eq_enterCall name actuals position) machine, ?_⟩
  intro outcome
  constructor
  · intro isOutcome
    obtain ⟨other, entry⟩ := exists_callEntry machine name actuals
    rw [← isOutcome, entry.enterCall_eq]
    exact entry
  · exact CallEntry.enterCall_eq

end RefScript
