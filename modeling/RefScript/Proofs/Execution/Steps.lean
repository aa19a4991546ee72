import RefScript.Machine
import RefScript.Proofs.Sequencing
import RefScript.Proofs.Store.Requests

namespace RefScript

/-!
# Steps of a machine

How a request to the store becomes a step. The commands without a body are
single requests, up to two of them, or a read and a print.
-/

/-- Whether a step finishes. -/
def finishes {α : Type} (step : Execution α) (machine : Machine) : Bool :=
  match step machine with
  | .ok _ _ => true
  | .error _ _ => false

theorem exists_ok_of_finishes
    {α : Type} {step : Execution α} {machine : Machine}
    (done : finishes step machine = true) :
    ∃ value next, step machine = .ok value next := by
  unfold finishes at done
  cases outcome : step machine with
  | ok value next =>
      exact ⟨value, next, rfl⟩
  | error fault stopped =>
      simp [outcome] at done

theorem exists_error_of_not_finishes
    {α : Type} {step : Execution α} {machine : Machine}
    (failed : finishes step machine = false) :
    ∃ fault stopped, step machine = .error fault stopped := by
  unfold finishes at failed
  cases outcome : step machine with
  | ok value next =>
      simp [outcome] at failed
  | error fault stopped =>
      exact ⟨fault, stopped, rfl⟩

section Requests

variable {α : Type} {action : Store.Action (List Command) α} {machine : Machine}

theorem onStore_eq_ok_iff {value : α} {next : Machine} :
    onStore action machine = .ok value next ↔
      ∃ store,
        action machine.store = .ok value store ∧
          next = { machine with store } := by
  obtain ⟨store, printed, echo⟩ := machine
  simp only [onStore]
  cases action store with
  | ok first reached =>
      simp only [EStateM.Result.ok.injEq]
      constructor
      · rintro ⟨rfl, rfl⟩
        exact ⟨reached, ⟨rfl, rfl⟩, rfl⟩
      · rintro ⟨_, ⟨rfl, rfl⟩, rfl⟩
        exact ⟨rfl, rfl⟩
  | error fault reached =>
      simp

theorem onStore_eq_error_iff {fault : Fault} {stopped : Machine} :
    onStore action machine = .error fault stopped ↔
      ∃ store,
        action machine.store = .error fault store ∧
          stopped = { machine with store } := by
  obtain ⟨store, printed, echo⟩ := machine
  simp only [onStore]
  cases action store with
  | ok first reached =>
      simp
  | error fault' reached =>
      simp only [EStateM.Result.error.injEq]
      constructor
      · rintro ⟨rfl, rfl⟩
        exact ⟨reached, ⟨rfl, rfl⟩, rfl⟩
      · rintro ⟨_, ⟨rfl, rfl⟩, rfl⟩
        exact ⟨rfl, rfl⟩

variable {operation : Operation (List Command)} {reply : α → Reply (List Command)}

/-- A request that a machine makes and gets an answer to. -/
theorem Store.Requests.onStore_granted
    (requests : Store.Requests action operation reply)
    {value : α} {next : Machine}
    (done : onStore action machine = .ok value next) :
    ∃ store,
      Store.Granted machine.store operation (reply value) store ∧
        next = { machine with store } := by
  obtain ⟨store, answered, rfl⟩ := onStore_eq_ok_iff.mp done
  exact ⟨store, requests.granted answered, rfl⟩

/-- A request that can be granted is one that the machine gets an answer to. -/
theorem Store.Requests.onStore_of_granted
    (requests : Store.Requests action operation reply)
    {value : α} {store : Store (List Command)}
    (granted : Store.Granted machine.store operation (reply value) store) :
    onStore action machine = .ok value { machine with store } :=
  onStore_eq_ok_iff.mpr ⟨store, requests.eq_ok_of_granted granted, rfl⟩

/-- A request that a machine gets no answer to has a reason to be refused. -/
theorem Store.Requests.onStore_reason
    (requests : Store.Requests action operation reply)
    {fault : Fault} {stopped : Machine}
    (failed : onStore action machine = .error fault stopped) :
    Store.Refused machine.store operation fault := by
  obtain ⟨store, refused, rfl⟩ := onStore_eq_error_iff.mp failed
  exact requests.reason refused

/-- A request that is refused leaves the machine as it was. -/
theorem Store.Requests.onStore_refused
    (requests : Store.Requests action operation reply)
    {fault : Fault} {stopped : Machine}
    (failed : onStore action machine = .error fault stopped) :
    stopped = machine := by
  obtain ⟨store, refused, rfl⟩ := onStore_eq_error_iff.mp failed
  rw [requests.refused refused]

/-- A request that there is a reason to refuse is one that the machine gets no answer to. -/
theorem Store.Requests.onStore_of_refused
    (requests : Store.Requests action operation reply)
    {fault : Fault}
    (refused : Store.Refused machine.store operation fault) :
    onStore action machine = .error fault machine :=
  onStore_eq_error_iff.mpr ⟨machine.store, requests.eq_error_of_refused refused, rfl⟩

end Requests

/-- Commands that hold no body and call no function. -/
def Command.isSimple : Command → Bool
  | .block .. | .frame .. | .call .. => false
  | _ => true

/-- The name that a command declares, with its kind. -/
def Command.declaredKind? : Command → String → Option CellKind
  | .declare kind name _, other => if name = other then some kind else none
  | _, _ => none

end RefScript
