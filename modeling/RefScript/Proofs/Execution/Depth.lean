import RefScript.Proofs.Execution.Steps
import RefScript.Proofs.Store.Frames

namespace RefScript

/-!
# The depth of the call stack during a run

Every finished command leaves the call stack as deep as it was, because each
push of a frame is followed by the pop of one. Since no step changes the
settings either, the room on the call stack is the same before and after.
-/

/-- A step that, when it finishes, has deepened the call stack by the given amount. -/
def Deepens {α : Type} (change : Int) (step : Execution α) : Prop :=
  ∀ {machine next : Machine} {value : α},
    step machine = .ok value next →
      next.store.settings = machine.store.settings ∧
        (next.store.callDepth : Int) = machine.store.callDepth + change

namespace Deepens

variable {α β : Type}

theorem pure (value : α) : Deepens 0 (pure value : Execution α) := by
  intro machine next value' done
  cases done
  simp

theorem bind
    {first second : Int}
    {step : Execution α}
    {later : α → Execution β}
    (deepens : Deepens first step)
    (deepensLater : ∀ value, Deepens second (later value)) :
    Deepens (first + second) (step >>= later) := by
  intro machine next value done
  obtain ⟨_, between, stepDone, laterDone⟩ := bind_eq_ok_iff.mp done
  obtain ⟨settings, depth⟩ := deepens stepDone
  obtain ⟨laterSettings, laterDepth⟩ := deepensLater _ laterDone
  exact ⟨laterSettings.trans settings, by omega⟩

/-- A request deepens the call stack as its operation says. -/
theorem request
    {action : Store.Action (List Command) α}
    {operation : Operation (List Command)}
    {reply : α → Reply (List Command)}
    (requests : Store.Requests action operation reply) :
    Deepens operation.depthChange (onStore action) := by
  intro machine next value done
  obtain ⟨store, granted, rfl⟩ := requests.onStore_granted done
  exact ⟨granted.settings_eq, granted.callDepth_eq⟩

theorem emit (value : Word) : Deepens 0 (emit value) := by
  intro machine next value' done
  obtain ⟨store, printed, echo⟩ := machine
  cases echo <;> cases done <;> simp [Store.callDepth]

end Deepens

mutual

/-- A finished command leaves the call stack as deep as it was. -/
theorem Command.run_deepens
    {enter : List Command → Execution Unit}
    (entered : ∀ body, Deepens 0 (enter body)) :
    ∀ command : Command, Deepens 0 (command.run enter)
  | .declare kind name _ =>
      Deepens.request (Store.requests_declare name kind)
  | .allocate name _ =>
      Deepens.bind (Deepens.request (Store.requests_allocate name)) fun _ => Deepens.pure ()
  | .assign name value _ =>
      Deepens.request (Store.requests_write name value)
  | .copy target source _ =>
      Deepens.request (Store.requests_copy target source)
  | .input name _ =>
      Deepens.bind (Deepens.request Store.requests_nextData) fun value =>
        Deepens.request (Store.requests_write name value)
  | .print name _ =>
      Deepens.bind (Deepens.request (Store.requests_read name)) fun value => Deepens.emit value
  | .block body _ =>
      Deepens.bind (Deepens.request Store.requests_pushScope) fun _ =>
        Deepens.bind (Command.runAll_deepens entered body) fun _ =>
          Deepens.request Store.requests_popScope
  | .frame body _ =>
      Deepens.bind (Deepens.request Store.requests_pushFrame) fun _ =>
        Deepens.bind (entered body) fun _ => Deepens.request Store.requests_popFrame
  | .function name formals body _ =>
      Deepens.request (Store.requests_register name formals body)
  | .call name actuals _ =>
      Deepens.bind (Deepens.request (Store.requests_formalsOf name)) fun formals =>
        Deepens.bind (Deepens.request (Store.requests_pushCallFrame name formals actuals)) fun _ =>
          Deepens.bind (Deepens.request (Store.requests_bodyOf name)) fun body =>
            Deepens.bind (entered body) fun _ => Deepens.request Store.requests_popFrame

/-- Finished commands leave the call stack as deep as it was. -/
theorem Command.runAll_deepens
    {enter : List Command → Execution Unit}
    (entered : ∀ body, Deepens 0 (enter body)) :
    ∀ commands : List Command, Deepens 0 (Command.runAll enter commands)
  | [] => Deepens.pure ()
  | command :: rest =>
      Deepens.bind (Command.run_deepens entered command) fun _ =>
        Command.runAll_deepens entered rest

end

/-- So do bodies, however many frames there is room for. -/
theorem runBody_deepens (room : Nat) (body : List Command) :
    Deepens 0 (runBody room body) := by
  induction room generalizing body with
  | zero =>
      intro machine next value done
      cases done
  | succ room inductionHypothesis =>
      exact Command.runAll_deepens inductionHypothesis body

/-- Commands that finish leave the settings and the depth of the call stack. -/
theorem execute_deepens (commands : List Command) : Deepens 0 (execute commands) := by
  intro machine next value done
  exact Command.runAll_deepens (runBody_deepens machine.room) commands done

/-- A step that leaves the depth leaves the room on the call stack. -/
theorem room_of_deepens
    {α : Type} {step : Execution α} {machine next : Machine} {value : α}
    (deepens : Deepens 0 step)
    (done : step machine = .ok value next) :
    next.room = machine.room := by
  obtain ⟨settings, depth⟩ := deepens done
  unfold Machine.room
  rw [settings]
  omega

end RefScript
