import RefScript.Proofs.Execution.Reachable

namespace RefScript

/-!
# What a callee sees of its callers

Two machines that differ only in frames below some that they share run in
lockstep: commands have the same outcome on both, and still the machines differ
only below. A call gets there in its first step. It hands the raw values of the
arguments to a frame of its own, and so these, and the number of frames, are
all that it sees of its caller.
-/

namespace Machine

/-- The same machine with other active frames, the current one first. -/
def withFrames (machine : Machine) (frames : List Frame) : Machine :=
  { machine with store := machine.store.withFrames frames }

@[simp] theorem frames_withFrames (machine : Machine) (frames : List Frame) :
    (machine.withFrames frames).store.stack.frames = frames :=
  rfl

/--
Two machines that share some frames, below which the one has the first list of
frames and the other the second one. All else is the same.
-/
inductive SameAbove (below below' : List Frame) : Machine → Machine → Prop where
  | intro
      {machine : Machine} {above : List Frame}
      (frames : machine.store.stack.frames = above ++ below) :
      SameAbove below below' machine (machine.withFrames (above ++ below'))

end Machine

/-- The same outcome: the same value or the same fault, in machines so related. -/
inductive SameOutcome
    {α : Type}
    (related : Machine → Machine → Prop) :
    EStateM.Result Fault Machine α → EStateM.Result Fault Machine α → Prop where
  | ok
      {value : α} {next next' : Machine}
      (after : related next next') :
      SameOutcome related (.ok value next) (.ok value next')
  | error
      {fault : Fault} {stopped stopped' : Machine}
      (after : related stopped stopped') :
      SameOutcome related (.error fault stopped) (.error fault stopped')

theorem SameOutcome.imp
    {α : Type} {related wider : Machine → Machine → Prop}
    {outcome outcome' : EStateM.Result Fault Machine α}
    (same : SameOutcome related outcome outcome')
    (widens : ∀ {next next'}, related next next' → wider next next') :
    SameOutcome wider outcome outcome' := by
  cases same with
  | ok after => exact .ok (widens after)
  | error after => exact .error (widens after)

/-- Outcomes that look the same, in this view of machines, are the same but for what it hides. -/
theorem SameOutcome.of_view
    {α : Type} {view : Machine → Machine} {outcome outcome' seen : EStateM.Result Fault Machine α}
    (first : SameOutcome (fun next next' => next' = view next) outcome seen)
    (second : SameOutcome (fun next next' => next' = view next) outcome' seen) :
    SameOutcome (fun next next' => view next' = view next) outcome outcome' := by
  cases first with
  | ok after =>
      cases second with
      | ok afterToo => exact .ok (afterToo.symm.trans after)
  | error after =>
      cases second with
      | error afterToo => exact .error (afterToo.symm.trans after)

/-- Sequences have the same outcome if their steps have, one after the other. -/
theorem SameOutcome.bind
    {related : Machine → Machine → Prop}
    {α β : Type} {step : Execution α} {later : α → Execution β}
    {machine machine' : Machine}
    (first : SameOutcome related (step machine) (step machine'))
    (second :
      ∀ value next next',
        step machine = .ok value next →
          related next next' →
            SameOutcome related (later value next) (later value next')) :
    SameOutcome related ((step >>= later) machine) ((step >>= later) machine') := by
  cases outcome : step machine with
  | ok value next =>
      cases outcome' : step machine' with
      | ok value' next' =>
          rw [outcome, outcome'] at first
          rw [bind_of_ok outcome, bind_of_ok outcome']
          cases first with
          | ok after => exact second value next next' outcome after
      | error fault' stopped' =>
          rw [outcome, outcome'] at first
          cases first
  | error fault stopped =>
      cases outcome' : step machine' with
      | ok value' next' =>
          rw [outcome, outcome'] at first
          cases first
      | error fault' stopped' =>
          rw [outcome, outcome'] at first
          rw [bind_of_error outcome, bind_of_error outcome']
          cases first with
          | error after => exact .error after

/--
A request has the same outcome on two machines, if what the one grants the other grants
with the same answer, and what the one refuses the other refuses for the same reason.
-/
theorem Store.Requests.sameOutcome
    {related : Machine → Machine → Prop}
    {α : Type}
    {action : Store.Action (List Command) α}
    {operation : Operation (List Command)}
    {reply : α → Reply (List Command)}
    {machine machine' : Machine}
    (requests : Store.Requests action operation reply)
    (granted :
      ∀ {value : α} {store : Store (List Command)},
        Store.Granted machine.store operation (reply value) store →
          ∃ store',
            Store.Granted machine'.store operation (reply value) store' ∧
              related { machine with store := store } { machine' with store := store' })
    (refused :
      ∀ {fault : Fault},
        Store.Refused machine.store operation fault → Store.Refused machine'.store operation fault)
    (before : related machine machine') :
    SameOutcome related (onStore action machine) (onStore action machine') := by
  cases outcome : onStore action machine with
  | ok value next =>
      obtain ⟨store, isGranted, rfl⟩ := requests.onStore_granted outcome
      obtain ⟨store', grantedToo, after⟩ := granted isGranted
      rw [requests.onStore_of_granted grantedToo]
      exact .ok after
  | error fault stopped =>
      have refusedToo := refused (requests.onStore_reason outcome)
      rw [requests.onStore_refused outcome, requests.onStore_of_refused refusedToo]
      exact .error before

section Lockstep

variable {below below' : List Frame} {machine machine' : Machine}

namespace Machine.SameAbove

/-- Machines with as many frames below are as deep as each other. -/
theorem callDepth_eq
    (related : SameAbove below below' machine machine')
    (sameLength : below'.length = below.length) :
    machine'.store.callDepth = machine.store.callDepth := by
  cases related with
  | intro frames =>
      simp only [Store.callDepth_eq, frames_withFrames, frames, List.length_append,
        sameLength]

theorem settings_eq (related : SameAbove below below' machine machine') :
    machine'.store.settings = machine.store.settings := by
  cases related
  rfl

theorem functions_eq (related : SameAbove below below' machine machine') :
    machine'.store.functions = machine.store.functions := by
  cases related
  rfl

/-- Where the current frame is shared, the machines differ in the callers of it. -/
theorem withCallers
    (related : SameAbove below below' machine machine')
    (inside : below.length < machine.store.callDepth) :
    ∃ current rest,
      machine.store.stack.frames = current :: (rest ++ below) ∧
        machine' = { machine with store := machine.store.withCallers (rest ++ below') } := by
  cases related with
  | @intro above frames =>
      cases above with
      | nil =>
          simp [Store.callDepth_eq, frames] at inside
      | cons current rest =>
          refine ⟨current, rest, frames, ?_⟩
          rw [Store.withCallers_of_frames _ _ frames]
          rfl

end Machine.SameAbove

/-- A request that pushes and pops no frame has the same outcome within a shared frame. -/
theorem sameOutcome_request
    {α : Type}
    {action : Store.Action (List Command) α}
    {operation : Operation (List Command)}
    {reply : α → Reply (List Command)}
    (requests : Store.Requests action operation reply)
    (stays : operation.depthChange = 0)
    (related : Machine.SameAbove below below' machine machine')
    (inside : below.length < machine.store.callDepth) :
    SameOutcome (Machine.SameAbove below below')
      (onStore action machine) (onStore action machine') := by
  obtain ⟨current, rest, active, rfl⟩ := related.withCallers inside
  have sees := requests.sees stays machine.store (rest ++ below')
  cases outcome : action machine.store with
  | error fault stopped =>
      cases requests.refused outcome
      rw [outcome] at sees
      rw [onStore_eq_error_iff.mpr ⟨_, outcome, rfl⟩, onStore_eq_error_iff.mpr ⟨_, sees, rfl⟩]
      exact .error related
  | ok value next =>
      obtain ⟨current', activeAfter⟩ := requests.callers_kept stays active outcome
      rw [outcome, Store.mapStore, Store.withCallers_of_frames next _ activeAfter] at sees
      rw [onStore_eq_ok_iff.mpr ⟨_, outcome, rfl⟩, onStore_eq_ok_iff.mpr ⟨_, sees, rfl⟩]
      have lockstep :
          Machine.SameAbove below below' { machine with store := next }
            (Machine.withFrames { machine with store := next } ((current' :: rest) ++ below')) :=
        .intro activeAfter
      exact .ok lockstep

/-- A print has the same outcome, whatever the frames. -/
theorem sameOutcome_emit
    (value : Word)
    (related : Machine.SameAbove below below' machine machine') :
    SameOutcome (Machine.SameAbove below below')
      (emit value machine) (emit value machine') := by
  cases related with
  | @intro above frames =>
      obtain ⟨store, printed, echo⟩ := machine
      cases echo <;> exact .ok (.intro frames)

/-- A push that does the same on both stores pushes a frame that is shared. -/
theorem sameOutcome_push
    {push : Store.Action (List Command) Unit}
    (same : Store.SamePush push machine.store machine'.store)
    (related : Machine.SameAbove below below' machine machine') :
    SameOutcome (Machine.SameAbove below below')
      (onStore push machine) (onStore push machine') := by
  cases same with
  | refused fault onFirst onSecond =>
      rw [onStore_eq_error_iff.mpr ⟨_, onFirst, rfl⟩,
        onStore_eq_error_iff.mpr ⟨_, onSecond, rfl⟩]
      exact .error related
  | pushed frame onFirst onSecond =>
      rw [onStore_eq_ok_iff.mpr ⟨_, onFirst, rfl⟩, onStore_eq_ok_iff.mpr ⟨_, onSecond, rfl⟩]
      cases related with
      | @intro above frames =>
          have shared : frame :: machine.store.stack.frames = (frame :: above) ++ below := by
            rw [frames, List.cons_append]
          have lockstep :
              Machine.SameAbove below below'
                (machine.withFrames (frame :: machine.store.stack.frames))
                (machine.withFrames ((frame :: above) ++ below')) :=
            .intro shared
          exact .ok lockstep

private theorem onStore_popFrame
    {current : Frame} {callers : List Frame}
    (active : machine.store.stack.frames = current :: callers) :
    onStore Store.popFrame machine =
      .ok () (Machine.withFrames
        { machine with store := machine.store.endScopes current.scopes } callers) := by
  have granted := Store.Granted.popFrame active
  rw [Store.endScopes_withFrames] at granted
  exact Store.requests_popFrame.onStore_of_granted granted

/-- The pop of a shared frame has the same outcome. -/
theorem sameOutcome_popFrame
    (related : Machine.SameAbove below below' machine machine')
    (inside : below.length < machine.store.callDepth) :
    SameOutcome (Machine.SameAbove below below')
      (onStore Store.popFrame machine) (onStore Store.popFrame machine') := by
  cases related with
  | @intro above frames =>
      cases above with
      | nil =>
          simp [Store.callDepth_eq, frames] at inside
      | cons current rest =>
          have activeToo :
              (machine.withFrames (current :: rest ++ below')).store.stack.frames =
                current :: (rest ++ below') :=
            rfl
          have ended :
              (machine.withFrames (current :: rest ++ below')).store.endScopes
                  current.scopes =
                (machine.store.endScopes current.scopes).withFrames
                  (current :: rest ++ below') :=
            Store.endScopes_withFrames _ _ _
          rw [onStore_popFrame frames, onStore_popFrame activeToo, ended]
          have lockstep :
              Machine.SameAbove below below'
                (Machine.withFrames
                  { machine with store := machine.store.endScopes current.scopes }
                  (rest ++ below))
                (Machine.withFrames
                  { machine with store := machine.store.endScopes current.scopes }
                  (rest ++ below')) :=
            .intro rfl
          exact .ok lockstep

/-- A step that leaves the depth leaves the shared frames a part of the stack. -/
private theorem inside_of_deepens
    {α : Type} {step : Execution α} {value : α} {next : Machine}
    (deepens : Deepens 0 step)
    (done : step machine = .ok value next)
    (inside : below.length < machine.store.callDepth) :
    below.length < next.store.callDepth := by
  have sameDepth := (deepens done).2
  omega

/-- Commands without a body have the same outcome within a shared frame. -/
private theorem sameOutcome_simple
    {command : Command}
    (simple : command.isSimple = true)
    (related : Machine.SameAbove below below' machine machine')
    (inside : below.length < machine.store.callDepth) :
    SameOutcome (Machine.SameAbove below below')
      (execute [command] machine) (execute [command] machine') := by
  have isStep := simpleStep_of_isSimple simple
  generalize execute [command] = step, command.declaredKind? = declared at isStep ⊢
  cases isStep with
  | request requests stays =>
      apply SameOutcome.bind
        (sameOutcome_request requests (Operation.depthChange_of_movesScopes stays)
          related inside)
      intro _ next next' _ after
      exact .ok after
  | input name =>
      apply SameOutcome.bind
        (sameOutcome_request Store.requests_nextData rfl related inside)
      intro value next next' taken after
      exact sameOutcome_request (Store.requests_write name value) rfl after
        (inside_of_deepens (Deepens.request Store.requests_nextData) taken inside)
  | print name =>
      apply SameOutcome.bind
        (sameOutcome_request (Store.requests_read name) rfl related inside)
      intro value next next' _ after
      exact sameOutcome_emit value after

/--
A body in a frame of its own has the same outcome when its push has, wherever the
machines differ: the frame is shared.
-/
theorem sameOutcome_framed
    {push : Store.Action (List Command) Unit}
    {operation : Operation (List Command)}
    (requests : Store.Requests push operation fun _ => .done)
    (pushes : operation.depthChange = 1)
    (same : Store.SamePush push machine.store machine'.store)
    (related : Machine.SameAbove below below' machine machine')
    (notBelow : below.length ≤ machine.store.callDepth)
    {body : List Command}
    (bodySame :
      ∀ entered entered',
        onStore push machine = .ok () entered →
          Machine.SameAbove below below' entered entered' →
            below.length < entered.store.callDepth →
              SameOutcome (Machine.SameAbove below below')
                (execute body entered) (execute body entered')) :
    SameOutcome (Machine.SameAbove below below')
      ((do onStore push; execute body; onStore Store.popFrame) machine)
      ((do onStore push; execute body; onStore Store.popFrame) machine') := by
  apply SameOutcome.bind (sameOutcome_push same related)
  intro _ entered entered' pushed enteredSame
  have deeper := (Deepens.request requests pushed).2
  have inside : below.length < entered.store.callDepth := by omega
  apply SameOutcome.bind (bodySame entered entered' pushed enteredSame inside)
  intro _ between between' bodyDone betweenSame
  exact sameOutcome_popFrame betweenSame
    (inside_of_deepens (execute_deepens body) bodyDone inside)

/--
A call has the same outcome when the raw values of its arguments are the same,
and if its body has, wherever the machines differ.
-/
theorem sameOutcome_call
    (sameLength : below'.length = below.length)
    (related : Machine.SameAbove below below' machine machine')
    (notBelow : below.length ≤ machine.store.callDepth)
    {name : String} {actuals : List String} {position : Position}
    (sameActuals :
      ∀ actual ∈ actuals,
        (machine.store.find? actual).map Cell.value =
          (machine'.store.find? actual).map Cell.value)
    (bodySame :
      ∀ definition entered entered',
        machine.store.functions.find? name = some definition →
          onStore (Store.pushCallFrame name definition.formals actuals) machine =
              .ok () entered →
            Machine.SameAbove below below' entered entered' →
              below.length < entered.store.callDepth →
                SameOutcome (Machine.SameAbove below below')
                  (execute definition.body entered) (execute definition.body entered')) :
    SameOutcome (Machine.SameAbove below below')
      (execute [.call name actuals position] machine)
      (execute [.call name actuals position] machine') := by
  have sameFunctions := related.functions_eq
  cases found : machine.store.functions.find? name with
  | none =>
      have missingToo : machine'.store.functions.find? name = none := by
        rw [sameFunctions, found]
      rw [execute_call_of_missing found, execute_call_of_missing missingToo]
      exact .error related
  | some definition =>
      have foundToo : machine'.store.functions.find? name = some definition := by
        rw [sameFunctions, found]
      rw [execute_call_of_found found, execute_call_of_found foundToo]
      have same :=
        Store.samePush_pushCallFrame (related.callDepth_eq sameLength) related.settings_eq
          sameActuals name definition.formals
      exact sameOutcome_framed
        (Store.requests_pushCallFrame name definition.formals actuals) rfl same related
        notBelow fun entered entered' pushed => bodySame definition entered entered' found pushed

/-- Commands have the same outcome within a shared frame. -/
theorem sameOutcome_execute
    (sameLength : below'.length = below.length)
    {commands : List Command}
    (related : Machine.SameAbove below below' machine machine')
    (inside : below.length < machine.store.callDepth) :
    SameOutcome (Machine.SameAbove below below')
      (execute commands machine) (execute commands machine') := by
  induction commands, machine using execute_induction generalizing machine' with
  | nil machine =>
      exact .ok related
  | cons command rest machine first later =>
      rw [execute_cons]
      apply SameOutcome.bind (first related inside)
      intro _ between between' done betweenSame
      exact later between done betweenSame
        (inside_of_deepens (execute_deepens [command]) done inside)
  | simple command machine simple =>
      exact sameOutcome_simple simple related inside
  | block body position machine inBody =>
      rw [execute_block]
      apply SameOutcome.bind
        (sameOutcome_request Store.requests_pushScope rfl related inside)
      intro _ entered entered' pushed enteredSame
      have insideBody :=
        inside_of_deepens (Deepens.request Store.requests_pushScope) pushed inside
      apply SameOutcome.bind (inBody entered pushed enteredSame insideBody)
      intro _ between between' bodyDone betweenSame
      exact sameOutcome_request Store.requests_popScope rfl betweenSame
        (inside_of_deepens (execute_deepens body) bodyDone insideBody)
  | frame body position machine inBody =>
      rw [execute_frame]
      have same :=
        Store.samePush_pushFrame (related.callDepth_eq sameLength) related.settings_eq
      exact sameOutcome_framed Store.requests_pushFrame rfl same related
        (Nat.le_of_lt inside)
        fun entered _ pushed enteredSame insideBody =>
          inBody entered pushed enteredSame insideBody
  | call name actuals position machine inBody =>
      apply sameOutcome_call sameLength related (Nat.le_of_lt inside)
      · -- The arguments are looked up in the shared frame.
        obtain ⟨_, _, _, rfl⟩ := related.withCallers inside
        simp
      · intro definition entered _ found pushed enteredSame insideBody
        exact inBody definition entered found pushed enteredSame insideBody

end Lockstep

/--
Two machines with equally many frames that agree in everything but the frames:
a call for which the arguments are bound to the same raw values, of whatever
kinds, or unbound in both, has the same outcome on both. Afterwards they still
agree in everything but the frames there were before, and share those above.
-/
theorem call_sees_raw_values
    {first second : Machine}
    (sameElse : second = first.withFrames second.store.stack.frames)
    (sameDepth : second.store.callDepth = first.store.callDepth)
    {actuals : List String}
    (sameActuals :
      ∀ actual ∈ actuals,
        (first.store.find? actual).map Cell.value =
          (second.store.find? actual).map Cell.value)
    (name : String)
    (position : Position) :
    SameOutcome
      (Machine.SameAbove first.store.stack.frames second.store.stack.frames)
      (execute [.call name actuals position] first)
      (execute [.call name actuals position] second) := by
  have related :
      Machine.SameAbove first.store.stack.frames second.store.stack.frames first second := by
    have frames : first.store.stack.frames = [] ++ first.store.stack.frames := rfl
    rw [sameElse]
    exact .intro frames
  have sameLength :
      second.store.stack.frames.length = first.store.stack.frames.length := by
    rw [← Store.callDepth_eq, ← Store.callDepth_eq, sameDepth]
  apply sameOutcome_call sameLength related (Nat.le_of_eq first.store.callDepth_eq.symm)
    sameActuals
  intro definition entered entered' _ _ enteredSame inside
  exact sameOutcome_execute sameLength enteredSame inside

/-- The abandoned machine with frames in which the argument is an integer. -/
def strangerMachine : Machine :=
  abandonedMachine.withFrames
    [⟨"elsewhere", [Scope.empty.bind "p" ⟨.int, some 0⟩]⟩, ⟨"outermost", []⟩]

/-- Handing on an integer or a reference makes no difference to the callee. -/
theorem repeatedCall_sees_raw_values :
    (abandonedMachine.store.find? "p").map Cell.kind = some .ref ∧
      (strangerMachine.store.find? "p").map Cell.kind = some .int ∧
        SameOutcome
          (Machine.SameAbove abandonedMachine.store.stack.frames
            strangerMachine.store.stack.frames)
          (execute [repeatedCall] abandonedMachine)
          (execute [repeatedCall] strangerMachine) := by
  have sameDepth : strangerMachine.store.callDepth = abandonedMachine.store.callDepth := by
    decide +kernel
  have sameActuals :
      ∀ actual ∈ ["p"],
        (abandonedMachine.store.find? actual).map Cell.value =
          (strangerMachine.store.find? actual).map Cell.value := by
    decide +kernel
  exact ⟨by decide +kernel, by decide +kernel,
    call_sees_raw_values rfl sameDepth sameActuals "show" ⟨1, 1⟩⟩

end RefScript
