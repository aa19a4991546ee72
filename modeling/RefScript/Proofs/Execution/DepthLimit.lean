import RefScript.Proofs.Execution.Output

namespace RefScript

/-!
# Raising the limit on the frames

A run goes in lockstep with the same run under a higher limit until a frame is
refused because of the lower one. If that never happens, both runs have the same
outcome. If it does, the stack is exactly as deep as the lower limit allows, and
what has been put out is the beginning of what the other run puts out.
-/

namespace Store

variable {Body : Type}

/-- The same store with another limit on the number of frames. -/
def withLimit (store : Store Body) (limit : Nat) : Store Body :=
  { store with settings := store.settings.withMaxCallDepth limit }

private theorem detached_withLimit (limit : Nat) :
    Detached fun store : Store Body => store.withLimit limit :=
  fun _ _ _ _ _ => rfl

variable {store next : Store Body} {limit : Nat} {operation : Operation Body}

theorem recount_withLimit (store : Store Body) (limit : Nat) :
    (store.withLimit limit).recount = store.recount.withLimit limit :=
  (detached_withLimit limit).recount store

theorem endScopes_withLimit (store : Store Body) (limit : Nat) (scopes : List Scope) :
    (store.withLimit limit).endScopes scopes = (store.endScopes scopes).withLimit limit :=
  (detached_withLimit limit).endScopes store scopes

theorem assign?_withLimit
    {name : String} {value : Option Word}
    (assigned : store.assign? name value = some next) :
    (store.withLimit limit).assign? name value = some (next.withLimit limit) := by
  simp only [assign?, withLimit] at assigned ⊢
  cases inFrame : store.stack.assign? name value with
  | some stack =>
      rw [inFrame] at assigned
      cases assigned
      rfl
  | none =>
      rw [inFrame] at assigned
      obtain ⟨globals, globalsAssigned, rfl⟩ := Option.map_eq_some_iff.mp assigned
      rw [globalsAssigned]
      rfl

theorem bindActuals_withLimit (formals actuals : List String) (parameters : Scope) :
    (store.withLimit limit).bindActuals formals actuals parameters =
      store.bindActuals formals actuals parameters := by
  apply bindActuals_congr
  intro actual _
  rfl

/-- What is granted under a limit is granted under a higher one, to the same effect. -/
theorem Granted.withLimit
    {reply : Reply Body}
    (granted : Granted store operation reply next)
    (higher : store.settings.maxCallDepth ≤ limit) :
    Granted (store.withLimit limit) operation reply (next.withLimit limit) := by
  cases granted with
  | declareLocal active => exact .declareLocal active
  | declareGlobal outside => exact .declareGlobal outside
  | resolve found => exact .resolve found
  | kindOf found => exact .kindOf found
  | readScalar found isInt => exact .readScalar found isInt
  | readSlot found isRef filled => exact .readSlot found isRef filled
  | writeScalar found isInt assigned =>
      exact .writeScalar found isInt (assign?_withLimit assigned)
  | writeSlot found isRef designated written =>
      exact .writeSlot found isRef designated written
  | @allocate _ _ _ bound found isRef fits assigned =>
      rw [← recount_withLimit]
      show Granted (store.withLimit limit) _ (.handle (bound.withLimit limit).heap.size)
        (bound.withLimit limit).appendSlot.2.recount
      exact .allocate found isRef fits (assign?_withLimit assigned)
  | copy found assigned => exact .copy found (assign?_withLimit assigned)
  | nextData available => exact .nextData available
  | pushScope active => exact .pushScope active
  | popScope active popped =>
      rw [← endScopes_withLimit]
      exact .popScope active popped
  | pushFrame room => exact .pushFrame (Nat.lt_of_lt_of_le room higher)
  | pushCallFrame sameLength room bound =>
      rw [← bindActuals_withLimit] at bound
      exact .pushCallFrame sameLength (Nat.lt_of_lt_of_le room higher) bound
  | popFrame active =>
      rw [← endScopes_withLimit]
      exact .popFrame active
  | register => exact .register
  | formalsOf found => exact .formalsOf found
  | bodyOf found => exact .bodyOf found
  | recount =>
      rw [← recount_withLimit]
      exact .recount

/-- What is refused under a limit, but not because of it, is refused under a higher one. -/
theorem Refused.withLimit
    {fault : Fault}
    (refused : Refused store operation fault)
    (otherFault : ∀ exceeded, fault ≠ .callDepth exceeded)
    (higher : store.settings.maxCallDepth ≤ limit) :
    Refused (store.withLimit limit) operation fault := by
  cases refused with
  | undefinedName needs missing => exact .undefinedName needs missing
  | undefinedTarget found missing => exact .undefinedTarget found missing
  | invalidRead found isRef unfilled => exact .invalidRead found isRef unfilled
  | invalidWrite found isRef noSlot => exact .invalidWrite found isRef noSlot
  | notARef found notRef => exact .notARef found notRef
  | heapExhausted found isRef tooLarge => exact .heapExhausted found isRef tooLarge
  | dataExhausted atEnd => exact .dataExhausted atEnd
  | noFrame needs outside => exact .noFrame needs outside
  | scopeUnderflow active atBase => exact .scopeUnderflow active atBase
  | argumentCount lengthsDiffer => exact .argumentCount lengthsDiffer
  | callDepth => exact (otherFault _ rfl).elim
  | unboundActual sameLength room unbound =>
      exact .unboundActual sameLength (Nat.lt_of_lt_of_le room higher) unbound
  | undefinedFunction needs missing => exact .undefinedFunction needs missing

end Store

namespace Machine

/-- The same machine with another limit on the number of frames. -/
def withLimit (machine : Machine) (limit : Nat) : Machine :=
  { machine with store := machine.store.withLimit limit }

theorem continuedBy_withLimit (machine : Machine) (limit : Nat) :
    machine.ContinuedBy (machine.withLimit limit) :=
  ⟨List.prefix_rfl, .of_unchanged rfl rfl⟩

/-- A machine that runs under the given limit, and has no more frames than that. -/
structure Within (limit : Nat) (machine : Machine) : Prop where
  isLimit : machine.store.settings.maxCallDepth = limit
  depthAllowed : machine.store.callDepth ≤ limit

end Machine

/--
A step of a machine under a limit, and the same step under a higher one. Either
both finish or both meet the same fault, in machines that differ in the limit
alone. Or the lower limit is exceeded: then as many frames are active as it
allows, and under the higher limit nothing that has been put out is taken back.
-/
inductive Raised
    {α : Type} (limit higher : Nat) (step : Execution α) (machine : Machine) : Prop where
  | finished
      {value : α} {next : Machine}
      (done : step machine = .ok value next)
      (within : next.Within limit)
      (doneToo : step (machine.withLimit higher) = .ok value (next.withLimit higher))
  | failed
      {fault : Fault} {stopped : Machine}
      (failed : step machine = .error fault stopped)
      (otherFault : ∀ exceeded, fault ≠ .callDepth exceeded)
      (failedToo :
        step (machine.withLimit higher) = .error fault (stopped.withLimit higher))
  | exceeded
      {stopped : Machine}
      (refused : step machine = .error (.callDepth limit) stopped)
      (full : stopped.store.callDepth = limit)
      (continued : stopped.ContinuedBy (leaves step (machine.withLimit higher)))

namespace Raised

variable {α β : Type} {limit higher : Nat} {machine : Machine}

theorem bind
    {step : Execution α} {later : α → Execution β}
    (first : Raised limit higher step machine)
    (continues : ∀ value, Continues (later value))
    (second :
      ∀ value next,
        step machine = .ok value next →
          next.Within limit → Raised limit higher (later value) next) :
    Raised limit higher (step >>= later) machine := by
  cases first with
  | finished done within doneToo =>
      cases second _ _ done within with
      | finished laterDone laterWithin laterDoneToo =>
          apply Raised.finished _ laterWithin
          · rw [bind_of_ok doneToo, laterDoneToo]
          · rw [bind_of_ok done, laterDone]
      | failed laterFailed otherFault laterFailedToo =>
          apply Raised.failed _ otherFault
          · rw [bind_of_ok doneToo, laterFailedToo]
          · rw [bind_of_ok done, laterFailed]
      | exceeded laterRefused full continued =>
          apply Raised.exceeded _ full
          · rw [leaves, bind_of_ok doneToo]
            exact continued
          · rw [bind_of_ok done, laterRefused]
  | failed failed otherFault failedToo =>
      exact .failed (bind_of_error failed) otherFault (bind_of_error failedToo)
  | exceeded refused full continued =>
      apply Raised.exceeded (bind_of_error refused) full
      apply leaves_bind continued
      intro value between _ continuedBetween
      exact continuedBetween.trans (continues value between)

/-- What is said of a step is said of one that does the same under both limits. -/
theorem congr
    {step step' : Execution α}
    (same : step machine = step' machine)
    (sameToo : step (machine.withLimit higher) = step' (machine.withLimit higher))
    (raised : Raised limit higher step' machine) :
    Raised limit higher step machine := by
  cases raised with
  | finished done within doneToo =>
      exact .finished (same.trans done) within (sameToo.trans doneToo)
  | failed failed otherFault failedToo =>
      exact .failed (same.trans failed) otherFault (sameToo.trans failedToo)
  | exceeded refused full continued =>
      apply Raised.exceeded (same.trans refused) full
      rw [leaves, sameToo]
      exact continued

theorem request
    {action : Store.Action (List Command) α}
    {operation : Operation (List Command)}
    {reply : α → Reply (List Command)}
    (notLower : limit ≤ higher)
    (requests : Store.Requests action operation reply)
    (within : machine.Within limit) :
    Raised limit higher (onStore action) machine := by
  obtain ⟨isLimit, depthAllowed⟩ := within
  rw [← isLimit] at notLower depthAllowed
  cases outcome : onStore action machine with
  | ok value next =>
      obtain ⟨store, granted, rfl⟩ := requests.onStore_granted outcome
      refine .finished outcome ⟨?_, ?_⟩ (requests.onStore_of_granted (granted.withLimit notLower))
      · exact granted.settings_eq ▸ isLimit
      · exact isLimit ▸ granted.depthAllowed depthAllowed
  | error fault stopped =>
      cases requests.onStore_refused outcome
      have reason := requests.onStore_reason outcome
      by_cases exceeds : ∃ exceeded, fault = .callDepth exceeded
      · obtain ⟨exceeded, rfl⟩ := exceeds
        cases reason with
        | callDepth pushes full =>
            have continued := Continues.request requests (machine.withLimit higher)
            rw [isLimit] at outcome full depthAllowed
            exact .exceeded outcome (Nat.le_antisymm depthAllowed full)
              ((machine.continuedBy_withLimit higher).trans continued)
      · have otherFault := not_exists.mp exceeds
        exact .failed outcome otherFault
          (requests.onStore_of_refused (reason.withLimit otherFault notLower))

theorem emit
    (value : Word)
    (within : machine.Within limit) :
    Raised limit higher (emit value) machine := by
  obtain ⟨store, printed, echo⟩ := machine
  cases echo with
  | false => exact .finished rfl ⟨within.isLimit, within.depthAllowed⟩ rfl
  | true => exact .finished rfl ⟨within.isLimit, within.depthAllowed⟩ rfl

private theorem simple
    {command : Command}
    (simple : command.isSimple = true)
    (notLower : limit ≤ higher)
    (within : machine.Within limit) :
    Raised limit higher (RefScript.execute [command]) machine := by
  have isStep := simpleStep_of_isSimple simple
  generalize RefScript.execute [command] = step, command.declaredKind? = declared at isStep ⊢
  cases isStep with
  | request requests stays =>
      apply (request notLower requests within).bind fun _ => .pure ()
      intro _ next _ nextWithin
      exact .finished rfl nextWithin rfl
  | input name =>
      have writes := @Store.requests_write (List Command) name
      apply (request notLower Store.requests_nextData within).bind
        fun value => .request (writes value)
      intro value next _ nextWithin
      exact request notLower (writes value) nextWithin
  | print name =>
      apply (request notLower (Store.requests_read name) within).bind .emit
      intro value next _ nextWithin
      exact emit value nextWithin

/-- A body between two requests, such as the push and the pop of a frame. -/
private theorem enclosed
    {opening closing : Store.Action (List Command) Unit}
    {opens closes : Operation (List Command)}
    (notLower : limit ≤ higher)
    (requestsOpening : Store.Requests opening opens fun _ => .done)
    (requestsClosing : Store.Requests closing closes fun _ => .done)
    (within : machine.Within limit)
    {body : List Command}
    (inside :
      ∀ entered,
        onStore opening machine = .ok () entered →
          entered.Within limit → Raised limit higher (RefScript.execute body) entered) :
    Raised limit higher
      (do onStore opening; RefScript.execute body; onStore closing) machine := by
  apply (request notLower requestsOpening within).bind
    fun _ => (Continues.execute body).bind fun _ => .request requestsClosing
  intro _ entered opened enteredWithin
  apply (inside entered opened enteredWithin).bind fun _ => .request requestsClosing
  intro _ between _ betweenWithin
  exact request notLower requestsClosing betweenWithin

/-- Commands go in lockstep with themselves under a higher limit. -/
theorem execute
    (notLower : limit ≤ higher)
    (commands : List Command)
    (machine : Machine)
    (within : machine.Within limit) :
    Raised limit higher (RefScript.execute commands) machine := by
  induction commands, machine using execute_induction with
  | nil machine =>
      exact .finished rfl within rfl
  | cons command rest machine first later =>
      rw [execute_cons]
      apply (first within).bind fun _ => .execute rest
      intro _ between done betweenWithin
      exact later between done betweenWithin
  | simple command machine isSimple =>
      exact simple isSimple notLower within
  | block body position machine inside =>
      rw [execute_block]
      exact enclosed notLower Store.requests_pushScope Store.requests_popScope within inside
  | frame body position machine inside =>
      rw [execute_frame]
      exact enclosed notLower Store.requests_pushFrame Store.requests_popFrame within inside
  | call name actuals position machine inside =>
      cases found : machine.store.functions.find? name with
      | none =>
          have missingToo : (machine.withLimit higher).store.functions.find? name = none := found
          exact .failed (execute_call_of_missing found actuals position)
            (fun _ => Fault.noConfusion) (execute_call_of_missing missingToo actuals position)
      | some definition =>
          have foundToo :
              (machine.withLimit higher).store.functions.find? name = some definition :=
            found
          apply congr (execute_call_of_found found actuals position)
            (execute_call_of_found foundToo actuals position)
          exact enclosed notLower
            (Store.requests_pushCallFrame name definition.formals actuals)
            Store.requests_popFrame within fun entered => inside definition entered found

section Outcomes

variable {step : Execution α} {next stopped : Machine}

/-- A step that finishes under the lower limit finishes under the higher one. -/
theorem ok_of_ok
    (raised : Raised limit higher step machine)
    {value : α}
    (done : step machine = .ok value next) :
    step (machine.withLimit higher) = .ok value (next.withLimit higher) := by
  cases raised with
  | finished isOk _ doneToo =>
      cases isOk.symm.trans done
      exact doneToo
  | failed isError _ _ =>
      cases isError.symm.trans done
  | exceeded isError _ _ =>
      cases isError.symm.trans done

/-- A step that meets another fault than that of the limit meets it under both. -/
theorem error_of_error
    (raised : Raised limit higher step machine)
    {fault : Fault}
    (failed : step machine = .error fault stopped)
    (otherFault : ∀ exceeded, fault ≠ .callDepth exceeded) :
    step (machine.withLimit higher) = .error fault (stopped.withLimit higher) := by
  cases raised with
  | finished isOk _ _ =>
      cases isOk.symm.trans failed
  | failed isError _ failedToo =>
      cases isError.symm.trans failed
      exact failedToo
  | exceeded isError _ _ =>
      cases isError.symm.trans failed
      exact (otherFault limit rfl).elim

/-- A step that meets the fault of the limit leaves the stack full, and only begins. -/
theorem continued_of_error
    (raised : Raised limit higher step machine)
    {exceeded : Nat}
    (refused : step machine = .error (.callDepth exceeded) stopped) :
    exceeded = limit ∧
      stopped.store.callDepth = limit ∧
        stopped.ContinuedBy (leaves step (machine.withLimit higher)) := by
  cases raised with
  | finished isOk _ _ =>
      cases isOk.symm.trans refused
  | failed isError otherFault _ =>
      cases isError.symm.trans refused
      exact (otherFault exceeded rfl).elim
  | exceeded isError full continued =>
      cases isError.symm.trans refused
      exact ⟨rfl, full, continued⟩

end Outcomes

end Raised

/--
The run of a script from a machine that is not too deep for a limit, and the
same run under a higher limit.

If the first run finishes, or meets any fault but that of the limit, the second
one does the same, and the machines that they leave differ in the limit alone.
If the first run meets the fault of the limit, it does so with exactly as many
frames as the limit allows, and all that it has printed, shown on the console
and reported is the beginning of what the second run puts out.
-/
theorem higher_limit_extends_run
    (script : List Command)
    (machine : Machine)
    {limit higher : Nat}
    (depthAllowed : machine.store.callDepth ≤ limit)
    (notLower : limit ≤ higher) :
    let run := runScript script (machine.withLimit limit)
    let higherRun := runScript script (machine.withLimit higher)
    (∀ next, run = .ok () next → higherRun = .ok () (next.withLimit higher)) ∧
    (∀ fault stopped,
      run = .error fault stopped →
        (∀ exceeded, fault ≠ .callDepth exceeded) →
          higherRun = .error fault (stopped.withLimit higher)) ∧
    (∀ exceeded stopped,
      run = .error (.callDepth exceeded) stopped →
        let final := leaves (runScript script) (machine.withLimit higher)
        exceeded = limit ∧
          stopped.store.callDepth = limit ∧
            stopped.output <+: final.output ∧
              stopped.store.trace <+: final.store.trace ∧
                stopped.store.console.toList <+: final.store.console.toList) := by
  intro run higherRun
  have within : (machine.withLimit limit).Within limit := ⟨rfl, depthAllowed⟩
  have raised : Raised limit higher (runScript script) (machine.withLimit limit) := by
    rw [runScript_eq]
    exact Raised.execute notLower _ _ within
  refine ⟨?_, ?_, ?_⟩
  · intro next done
    exact raised.ok_of_ok done
  · intro fault stopped failed otherFault
    exact raised.error_of_error failed otherFault
  · intro exceeded stopped refused
    obtain ⟨isLimit, full, continued⟩ := raised.continued_of_error refused
    exact ⟨isLimit, full, continued.output, continued.store.trace, continued.store.console⟩

/-- A function that binds a slot, prints a zero and calls itself. -/
def runawayScript : List Command :=
  [.function "again" []
      [.declare .ref "slot" ⟨2, 3⟩, .allocate "slot" ⟨3, 3⟩,
        .declare .int "zero" ⟨4, 3⟩, .print "zero" ⟨5, 3⟩, .call "again" [] ⟨6, 3⟩]
      ⟨1, 1⟩,
    .call "again" [] ⟨8, 1⟩]

/-- A machine that has not run yet, and reports to a list. -/
def bufferingMachine : Machine :=
  Machine.onStore (Store.withReporter Settings.standard Reporter.emptyBuffer)

/-- With two frames that script prints twice, and with four it starts by doing so. -/
theorem higher_limit_extends_runaway :
    let stopped := leaves (runScript runawayScript) (bufferingMachine.withLimit 2)
    let final := leaves (runScript runawayScript) (bufferingMachine.withLimit 4)
    stopped.store.callDepth = 2 ∧
      stopped.store.trace = [1, 2] ∧
        stopped.output <+: final.output ∧ stopped.store.trace <+: final.store.trace := by
  intro stopped final
  have exceeds :
      runScript runawayScript (bufferingMachine.withLimit 2) =
        .error (.callDepth 2) stopped :=
    eq_error_of_fault? (by decide +kernel)
  have extended :=
    higher_limit_extends_run runawayScript bufferingMachine
      (show bufferingMachine.store.callDepth ≤ 2 by decide)
      (show 2 ≤ 4 by decide)
  obtain ⟨_, full, output, trace, _⟩ := extended.2.2 2 stopped exceeds
  exact ⟨full, by decide +kernel, output, trace⟩

end RefScript
