import RefScript.Proofs.Execution.StackDiscipline

namespace RefScript

/-!
# The frames of the callers

Whatever a frame of the program or a call does, and however it ends, the frames
that were active before it are at the bottom of the call stack, cell by cell as
they were. If it finishes, nothing is above them. If it meets a fault, nothing
is unwound: above them stand exactly the frames of the bodies in which the
refused request was made.
-/

/-- Whether a command runs a body in a frame of its own. -/
def Command.entersFrame : Command → Bool
  | .frame .. | .call .. => true
  | _ => false

/-- What a command does before any body of it is executed. -/
def Command.opening : Command → Execution Unit
  | .block _ _ => onStore Store.pushScope
  | .frame _ _ => onStore Store.pushFrame
  | .call name actuals _ => do
      let formals ← onStore (Store.formalsOf name)
      onStore (Store.pushCallFrame name formals actuals)
  | command => execute [command]

/--
The commands stop at a fault, in the machine given last, at which they have
arrived with frames open for the functions listed, innermost first. The fault
is that of a command whose opening is refused; the commands before it have
finished, and the bodies around it have been entered and not left.
-/
inductive StopsAt :
    List Command → Machine → List String → Fault → Machine → Prop where
  | refused
      {command : Command} {rest : List Command}
      {machine stopped : Machine} {fault : Fault}
      (failed : command.opening machine = .error fault stopped) :
      StopsAt (command :: rest) machine [] fault stopped
  | later
      {command : Command} {rest : List Command}
      {machine next stopped : Machine} {opened : List String} {fault : Fault}
      (done : execute [command] machine = .ok () next)
      (stops : StopsAt rest next opened fault stopped) :
      StopsAt (command :: rest) machine opened fault stopped
  | inBlock
      {body rest : List Command} {position : Position}
      {machine entered stopped : Machine} {opened : List String} {fault : Fault}
      (pushed : onStore Store.pushScope machine = .ok () entered)
      (stops : StopsAt body entered opened fault stopped) :
      StopsAt (.block body position :: rest) machine opened fault stopped
  | inFrame
      {body rest : List Command} {position : Position}
      {machine entered stopped : Machine} {opened : List String} {fault : Fault}
      (pushed : onStore Store.pushFrame machine = .ok () entered)
      (stops : StopsAt body entered opened fault stopped) :
      StopsAt (.frame body position :: rest) machine
        (opened ++ [Store.blockFrameName]) fault stopped
  | inCall
      {name : String} {actuals : List String} {rest : List Command} {position : Position}
      {definition : FunctionDef (List Command)}
      {machine entered stopped : Machine} {opened : List String} {fault : Fault}
      (found : machine.store.functions.find? name = some definition)
      (pushed :
        onStore (Store.pushCallFrame name definition.formals actuals) machine =
          .ok () entered)
      (stops : StopsAt definition.body entered opened fault stopped) :
      StopsAt (.call name actuals position :: rest) machine
        (opened ++ [name]) fault stopped

/-- Where a command stops does not depend on the commands after it. -/
theorem StopsAt.append
    {command : Command} {machine stopped : Machine}
    {opened : List String} {fault : Fault}
    (stops : StopsAt [command] machine opened fault stopped)
    (rest : List Command) :
    StopsAt (command :: rest) machine opened fault stopped := by
  cases stops with
  | refused failed =>
      exact .refused failed
  | later done stops =>
      cases stops
  | inBlock pushed stops =>
      exact .inBlock pushed stops
  | inFrame pushed stops =>
      exact .inFrame pushed stops
  | inCall found pushed stops =>
      exact .inCall found pushed stops

/--
A command without a body fails at a request that moves no scope, with all frames as
they were before the command.
-/
theorem exists_refused_of_simple
    {command : Command}
    (simple : command.isSimple = true)
    {machine stopped : Machine} {fault : Fault}
    (failed : execute [command] machine = .error fault stopped) :
    ∃ operation : Operation (List Command),
      operation.movesScopes = false ∧
        Store.Refused stopped.store operation fault ∧
        stopped.store.stack = machine.store.stack := by
  have isStep := simpleStep_of_isSimple simple
  generalize execute [command] = step, command.declaredKind? = declared at isStep failed
  cases isStep with
  | request requests stays =>
      rcases bind_eq_error_iff.mp failed with refused | ⟨_, _, _, impossible⟩
      · rw [requests.onStore_refused refused]
        exact ⟨_, stays, requests.onStore_reason refused, rfl⟩
      · cases impossible
  | input name =>
      rcases bind_eq_error_iff.mp failed with refused | ⟨value, _, taken, refused⟩
      · rw [Store.requests_nextData.onStore_refused refused]
        exact ⟨_, rfl, Store.requests_nextData.onStore_reason refused, rfl⟩
      · -- The literal has been taken, but that changes the input alone.
        rw [(Store.requests_write name value).onStore_refused refused]
        refine ⟨_, rfl, (Store.requests_write name value).onStore_reason refused, ?_⟩
        obtain ⟨store, granted, rfl⟩ := Store.requests_nextData.onStore_granted taken
        cases granted
        rfl
  | print name =>
      rcases bind_eq_error_iff.mp failed with refused | ⟨_, _, _, impossible⟩
      · rw [(Store.requests_read name).onStore_refused refused]
        exact ⟨_, rfl, (Store.requests_read name).onStore_reason refused, rfl⟩
      · cases impossible

/--
The commands stop with the given frames at the bottom of the call stack, and
above them the frames of the bodies in which they stop.
-/
def StopsOver
    (below : List Frame)
    (commands : List Command)
    (machine : Machine)
    (fault : Fault)
    (stopped : Machine) : Prop :=
  ∃ opened,
    stopped.store.stack.frames = opened ++ below ∧
      StopsAt commands machine (opened.map Frame.function) fault stopped

/-- Commands that, executed in a frame, leave it and its callers when they meet a fault. -/
def StopInFrame (commands : List Command) (machine : Machine) : Prop :=
  ∀ {current : Frame} {callers : List Frame} {fault : Fault} {stopped : Machine},
    machine.store.stack.frames = current :: callers →
      current.scopes ≠ [] →
        execute commands machine = .error fault stopped →
          ∃ current' : Frame,
            current'.function = current.function ∧
              StopsOver (current' :: callers) commands machine fault stopped

/--
A body in a frame of its own meets a fault at the push or within the body, but
not at the pop: a finished body has left the frame that is popped.
-/
private theorem stopsOver_of_framed
    {push : Store.Action (List Command) Unit}
    {operation : Operation (List Command)}
    (requests : Store.Requests push operation fun _ => .done)
    {function : String}
    (named : operation.frameName? = some function)
    {commands body : List Command}
    {machine stopped : Machine} {fault : Fault}
    (stopInBody :
      ∀ entered, onStore push machine = .ok () entered → StopInFrame body entered)
    (atPush :
      onStore push machine = .error fault stopped →
        StopsAt commands machine [] fault stopped)
    (inBody :
      ∀ entered innermost,
        onStore push machine = .ok () entered →
          StopsAt body entered innermost fault stopped →
            StopsAt commands machine (innermost ++ [function]) fault stopped)
    (failed :
      (do onStore push; execute body; onStore Store.popFrame) machine =
        .error fault stopped) :
    StopsOver machine.store.stack.frames commands machine fault stopped := by
  rcases bind_eq_error_iff.mp failed with refused | ⟨_, entered, pushed, restFailed⟩
  · refine ⟨[], ?_, atPush refused⟩
    rw [requests.onStore_refused refused, List.nil_append]
  · obtain ⟨enteredStore, pushGranted, rfl⟩ := requests.onStore_granted pushed
    obtain ⟨frame, rfl, nonempty, rfl⟩ := pushGranted.frame_of_push named
    rcases bind_eq_error_iff.mp restFailed with
      bodyFailed | ⟨_, between, bodyDone, popFailed⟩
    · obtain ⟨top, sameFunction, innermost, frames, stops⟩ :=
        stopInBody _ pushed rfl nonempty bodyFailed
      refine ⟨innermost ++ [top], ?_, ?_⟩
      · rw [frames, List.append_assoc, List.singleton_append]
      · rw [List.map_append, List.map_singleton, sameFunction]
        exact inBody _ _ pushed stops
    · have bodyKept :=
        stackKept_of_execute (Store.inScope_of_active rfl nonempty) bodyDone
      obtain ⟨top, activeBetween, _⟩ := bodyKept.frames_of_active rfl
      have popped : onStore Store.popFrame between = .ok () _ :=
        Store.requests_popFrame.onStore_of_granted (.popFrame activeBetween)
      rw [popped] at popFailed
      contradiction

/-- A frame of the program that meets a fault leaves the frames there were. -/
private theorem stopsOver_of_frame
    {body : List Command} {position : Position}
    {machine stopped : Machine} {fault : Fault}
    (stopInBody :
      ∀ entered, onStore Store.pushFrame machine = .ok () entered → StopInFrame body entered)
    (failed : execute [.frame body position] machine = .error fault stopped) :
    StopsOver machine.store.stack.frames [.frame body position] machine fault stopped := by
  rw [execute_frame] at failed
  apply stopsOver_of_framed Store.requests_pushFrame rfl stopInBody ?_ ?_ failed
  · intro refused
    exact .refused refused
  · intro entered innermost pushed stops
    exact .inFrame pushed stops

/-- A call that meets a fault leaves the frames there were. -/
private theorem stopsOver_of_call
    {name : String} {actuals : List String} {position : Position}
    {machine stopped : Machine} {fault : Fault}
    (stopInBody :
      ∀ definition entered,
        machine.store.functions.find? name = some definition →
          onStore (Store.pushCallFrame name definition.formals actuals) machine =
              .ok () entered →
            StopInFrame definition.body entered)
    (failed : execute [.call name actuals position] machine = .error fault stopped) :
    StopsOver machine.store.stack.frames [.call name actuals position] machine
      fault stopped := by
  cases found : machine.store.functions.find? name with
  | none =>
      rw [execute_call_of_missing found] at failed
      cases failed
      exact ⟨[], rfl, .refused (bind_of_error (onStore_formalsOf_of_missing found))⟩
  | some definition =>
      rw [execute_call_of_found found] at failed
      apply stopsOver_of_framed
        (Store.requests_pushCallFrame name definition.formals actuals) rfl
        (fun entered pushed => stopInBody definition entered found pushed) ?_ ?_ failed
      · intro refused
        apply StopsAt.refused
        rw [Command.opening, bind_of_ok (onStore_formalsOf_of_found found)]
        exact refused
      · intro entered innermost pushed stops
        exact .inCall found pushed stops

/-- Commands that meet a fault in a frame leave that frame and its callers. -/
theorem stopInFrame_of_execute (commands : List Command) (machine : Machine) :
    StopInFrame commands machine := by
  intro current callers fault stopped active nonempty failed
  induction commands, machine using execute_induction
    generalizing stopped fault current callers with
  | nil machine =>
      cases failed
  | cons command rest machine first later =>
      rw [execute_cons] at failed
      rcases bind_eq_error_iff.mp failed with
        firstFailed | ⟨_, between, firstDone, laterFailed⟩
      · obtain ⟨current', sameFunction, opened, frames, stops⟩ :=
          first active nonempty firstFailed
        exact ⟨current', sameFunction, opened, frames, stops.append rest⟩
      · have kept :=
          stackKept_of_execute (Store.inScope_of_active active nonempty) firstDone
        obtain ⟨top, activeBetween, frame, _⟩ := kept.frames_of_active active
        obtain ⟨current', sameFunction, opened, frames, stops⟩ :=
          later between firstDone activeBetween frame.scopes_ne_nil laterFailed
        exact ⟨current', sameFunction.trans frame.function_eq, opened, frames,
          .later firstDone stops⟩
  | simple command machine simple =>
      obtain ⟨_, _, _, sameStack⟩ := exists_refused_of_simple simple failed
      refine ⟨current, rfl, [], ?_, .refused ?_⟩
      · rw [sameStack, active]
        rfl
      · cases command with
        | block | frame | call =>
            simp [Command.isSimple] at simple
        | _ =>
            exact failed
  | block body position machine inside =>
      rw [execute_block] at failed
      rcases bind_eq_error_iff.mp failed with refused | ⟨_, entered, pushed, restFailed⟩
      · refine ⟨current, rfl, [], ?_, .refused refused⟩
        rw [Store.requests_pushScope.onStore_refused refused, active]
        rfl
      · obtain ⟨enteredStore, pushGranted, rfl⟩ :=
          Store.requests_pushScope.onStore_granted pushed
        cases pushGranted with
        | pushScope active' =>
            rw [active] at active'
            cases active'
            have opensScope : current.pushScope.scopes ≠ [] :=
              current.scopes_pushScope_ne_nil
            rcases bind_eq_error_iff.mp restFailed with
              bodyFailed | ⟨_, between, bodyDone, popFailed⟩
            · obtain ⟨current', sameFunction, opened, frames, stops⟩ :=
                inside _ pushed rfl opensScope bodyFailed
              exact ⟨current', sameFunction, opened, frames, .inBlock pushed stops⟩
            · have bodyKept :=
                stackKept_of_execute (Store.inScope_of_active rfl opensScope) bodyDone
              obtain ⟨top, activeBetween, kept, _⟩ := bodyKept.frames_of_active rfl
              obtain ⟨scope, outer, closes, _⟩ :=
                Frame.popScope?_of_redeclared nonempty kept
              have popped : onStore Store.popScope between = .ok () _ :=
                Store.requests_popScope.onStore_of_granted
                  (.popScope activeBetween closes)
              rw [popped] at popFailed
              contradiction
  | frame body position machine inside =>
      refine ⟨current, rfl, ?_⟩
      rw [← active]
      exact stopsOver_of_frame (fun entered pushed => inside entered pushed) failed
  | call name actuals position machine inside =>
      refine ⟨current, rfl, ?_⟩
      rw [← active]
      exact stopsOver_of_call
        (fun definition entered found pushed => inside definition entered found pushed) failed

/--
A frame of the program or a call, from any machine: if it finishes, the frames
are those from before. If it meets a fault, they are below the frames of the
bodies in which it stops, which are all still open.
-/
theorem frames_survive_callee
    {command : Command}
    (enters : command.entersFrame = true)
    (machine : Machine) :
    (∀ next,
        execute [command] machine = .ok () next →
          next.store.stack.frames = machine.store.stack.frames) ∧
      ∀ fault stopped,
        execute [command] machine = .error fault stopped →
          ∃ opened,
            stopped.store.stack.frames = opened ++ machine.store.stack.frames ∧
              StopsAt [command] machine (opened.map Frame.function) fault stopped := by
  cases command with
  | frame body position =>
      constructor
      · intro next done
        rw [execute_frame] at done
        exact (frames_of_framed Store.requests_pushFrame rfl
          (fun _ _ => stackKept_of_execute) done).1
      · intro fault stopped failed
        exact stopsOver_of_frame (fun entered _ => stopInFrame_of_execute body entered) failed
  | call name actuals position =>
      constructor
      · intro next done
        cases found : machine.store.functions.find? name with
        | none =>
            rw [execute_call_of_missing found] at done
            contradiction
        | some definition =>
            rw [execute_call_of_found found] at done
            exact (frames_of_framed
              (Store.requests_pushCallFrame name definition.formals actuals) rfl
              (fun _ _ => stackKept_of_execute) done).1
      · intro fault stopped failed
        exact stopsOver_of_call
          (fun definition entered _ _ => stopInFrame_of_execute definition.body entered)
          failed
  | _ =>
      contradiction

/-- A repeated call meets a fault too, above the frames of the abandoned one. -/
theorem frames_survive_repeatedCall :
    ∃ fault stopped opened,
      execute [repeatedCall] abandonedMachine = .error fault stopped ∧
        stopped.store.stack.frames = opened ++ abandonedMachine.store.stack.frames ∧
          StopsAt [repeatedCall] abandonedMachine
            (opened.map Frame.function) fault stopped := by
  have isStopped : finishes (execute [repeatedCall]) abandonedMachine = false := by
    decide +kernel
  obtain ⟨fault, stopped, failed⟩ := exists_error_of_not_finishes isStopped
  have entersFrame : repeatedCall.entersFrame = true := rfl
  obtain ⟨opened, frames, stops⟩ :=
    (frames_survive_callee entersFrame abandonedMachine).2 fault stopped failed
  exact ⟨fault, stopped, opened, failed, frames, stops⟩

end RefScript
