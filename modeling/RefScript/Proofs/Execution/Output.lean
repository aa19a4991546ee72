import RefScript.Proofs.Execution.Reachable
import RefScript.Proofs.Store.Notifications

namespace RefScript

/-!
# The output of a run

Nothing that has been put out is ever taken back. The printed values, the lines
of the console and the reported counts are appended to, one request or print
after the other, and so what a machine has put out is the beginning of what it
will have put out after any further commands.
-/

namespace Store

variable {Body : Type}

/-- One store has put out what the other one has, and maybe more after it. -/
structure ContinuedBy (earlier later : Store Body) : Prop where
  console : earlier.console.toList <+: later.console.toList
  trace : earlier.trace <+: later.trace

namespace ContinuedBy

variable {earlier between later : Store Body}

theorem of_unchanged
    (console : later.console = earlier.console)
    (reporter : later.reporter = earlier.reporter) :
    ContinuedBy earlier later where
  console := by simp [console]
  trace := by simp [Store.trace, reporter]

/-- What goes on after one store goes on after another one that has put out the same. -/
theorem congr_left
    (continued : ContinuedBy between later)
    (console : between.console = earlier.console)
    (reporter : between.reporter = earlier.reporter) :
    ContinuedBy earlier later where
  console := by
    rw [← console]
    exact continued.console
  trace := by
    rw [Store.trace, ← reporter]
    exact continued.trace

theorem trans
    (first : ContinuedBy earlier between)
    (second : ContinuedBy between later) :
    ContinuedBy earlier later where
  console := first.console.trans second.console
  trace := first.trace.trans second.trace

end ContinuedBy

/-- A report is appended, wherever it goes. -/
theorem continuedBy_notify (store : Store Body) (count : Nat) :
    ContinuedBy store (store.notify count) where
  console := by simp [notify]
  trace := by
    unfold trace notify
    cases store.reporter <;> simp [Reporter.notify, Reporter.captured]

theorem continuedBy_recount (store : Store Body) : ContinuedBy store store.recount := by
  unfold recount
  split
  case h_1 liveness _ =>
    exact .of_unchanged rfl rfl
  case h_2 count liveness _ =>
    exact (continuedBy_notify { store with liveness } count).congr_left rfl rfl

theorem continuedBy_endScopes (store : Store Body) (scopes : List Scope) :
    ContinuedBy store (store.endScopes scopes) := by
  obtain ⟨liveness, strays, released, _⟩ := foldl_release_eq scopes.reverse store
  rw [endScopes, released]
  exact (continuedBy_recount _).congr_left rfl rfl

/-- A granted request takes nothing back. -/
theorem Granted.continuedBy
    {store next : Store Body} {operation : Operation Body} {reply : Reply Body}
    (granted : Granted store operation reply next) :
    ContinuedBy store next := by
  cases granted.recordChange with
  | kept same noHandle endsNone =>
      exact .of_unchanged same.console same.reporter
  | appended same sameHeap answered endsNone =>
      exact (continuedBy_recount _).congr_left same.console same.reporter
  | ended same noHandle pops =>
      exact (continuedBy_endScopes _ _).congr_left same.console same.reporter
  | recounted noHandle endsNone =>
      exact continuedBy_recount store

/-- Neither does any other request. -/
theorem continuedBy_after (store : Store Body) (operation : Operation Body) :
    ContinuedBy store (store.after operation) :=
  after_of_granted (fun granted kept => kept.trans granted.continuedBy) store operation
    (.of_unchanged rfl rfl)

end Store

namespace Machine

/-- One machine has put out what the other one has, and maybe more after it. -/
structure ContinuedBy (earlier later : Machine) : Prop where
  printed : earlier.printed.toList <+: later.printed.toList
  store : Store.ContinuedBy earlier.store later.store

namespace ContinuedBy

variable {earlier between later : Machine}

theorem refl (machine : Machine) : ContinuedBy machine machine where
  printed := List.prefix_rfl
  store := .of_unchanged rfl rfl

theorem trans
    (first : ContinuedBy earlier between)
    (second : ContinuedBy between later) :
    ContinuedBy earlier later where
  printed := first.printed.trans second.printed
  store := first.store.trans second.store

/-- The lines that have been printed are the first ones of those printed later. -/
theorem output (continued : ContinuedBy earlier later) : earlier.output <+: later.output :=
  continued.printed.map Word.decimal

end ContinuedBy

theorem continuedBy_emit (machine : Machine) (value : Word) :
    ContinuedBy machine (leaves (emit value) machine) := by
  obtain ⟨store, printed, echo⟩ := machine
  cases echo with
  | false =>
      exact ⟨by simp [leaves, emit], .of_unchanged rfl rfl⟩
  | true =>
      exact ⟨by simp [leaves, emit], by simp [leaves, emit], List.prefix_rfl⟩

/-- Whatever has been put out, requests and prints only add to it. -/
theorem steady_continuedBy (earlier : Machine) : Steady fun later => ContinuedBy earlier later where
  request machine operation continued :=
    continued.trans ⟨List.prefix_rfl, Store.continuedBy_after machine.store operation⟩
  print machine value continued :=
    continued.trans (continuedBy_emit machine value)

end Machine

/-- A step that takes back nothing of what has been put out. -/
def Continues {α : Type} (step : Execution α) : Prop :=
  ∀ machine : Machine, machine.ContinuedBy (leaves step machine)

namespace Continues

variable {α β : Type}

theorem pure (value : α) : Continues (pure value : Execution α) :=
  fun machine => .refl machine

theorem bind
    {step : Execution α} {later : α → Execution β}
    (continues : Continues step)
    (continuesLater : ∀ value, Continues (later value)) :
    Continues (step >>= later) := by
  intro machine
  apply leaves_bind (continues machine)
  intro value between _ continued
  exact continued.trans (continuesLater value between)

theorem request
    {action : Store.Action (List Command) α}
    {operation : Operation (List Command)}
    {reply : α → Reply (List Command)}
    (requests : Store.Requests action operation reply) :
    Continues (onStore action) :=
  fun machine => (machine.steady_continuedBy).leaves_onStore requests (.refl machine)

theorem emit (value : Word) : Continues (emit value) :=
  fun machine => machine.continuedBy_emit value

theorem execute (commands : List Command) : Continues (execute commands) :=
  fun machine => (machine.steady_continuedBy).leaves_execute commands machine (.refl machine)

end Continues

end RefScript
