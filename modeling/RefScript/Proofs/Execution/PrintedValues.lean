import RefScript.Proofs.Execution.Performances
import RefScript.Proofs.Repetition
import RefScript.Proofs.Text.WrittenNumbers

namespace RefScript

/-!
# What has been printed is a data text

A machine keeps the words that print commands print, in the order in which these are
performed, and gives them out as lines. Whatever a run has printed, its lines can be
read as the data of another run, and the input then holds the same words.
-/

/-! ## What is printed -/

/-- The word that a performance prints, if it is of a print command that can read its variable. -/
def Performance.printed? (performance : Performance) : Option Word :=
  match performance.task with
  | .run (.print name _) => (outcomeOf (Store.read name performance.machine.store)).toOption
  | _ => none

/-- A step that prints nothing, whether it finishes or meets a fault. -/
def PrintsNothing {α : Type} (step : Execution α) : Prop :=
  ∀ machine, (leaves step machine).printed = machine.printed

namespace PrintsNothing

variable {α β : Type}

theorem pure (value : α) : PrintsNothing (pure value : Execution α) :=
  fun _ => rfl

theorem bind
    {step : Execution α} {later : α → Execution β}
    (nothing : PrintsNothing step) (nothingLater : ∀ value, PrintsNothing (later value)) :
    PrintsNothing (step >>= later) := by
  intro machine
  rw [← nothing machine]
  cases outcome : step machine with
  | ok value next =>
      rw [leaves_of_ok outcome, leaves, bind_of_ok outcome]
      exact nothingLater value next
  | error fault stopped =>
      rw [leaves_of_error outcome, leaves_of_error (bind_of_error outcome)]

/-- The store does not know what has been printed. -/
theorem onStore (action : Store.Action (List Command) α) : PrintsNothing (onStore action) := by
  rintro ⟨store, printed, echo⟩
  simp only [leaves, RefScript.onStore]
  cases action store <;> rfl

/-- Tasks other than print commands print nothing. -/
theorem perform
    {task : Task}
    (notPrint : ∀ name position, task ≠ .run (.print name position)) :
    PrintsNothing task.perform := by
  have done {α : Type} (step : Execution α) (nothing : PrintsNothing step) (opened : List Task) :
      PrintsNothing (do let _ ← step; Pure.pure opened) :=
    nothing.bind fun _ => .pure opened
  cases task with
  | run command =>
      cases command with
      | declare => exact done _ (onStore _) []
      | allocate => exact done _ ((onStore _).bind fun _ => .pure ()) []
      | assign => exact done _ (onStore _) []
      | copy => exact done _ (onStore _) []
      | input => exact done _ ((onStore _).bind fun _ => onStore _) []
      | print name position => exact (notPrint name position rfl).elim
      | block => exact done _ (onStore _) _
      | frame => exact done _ (onStore _) _
      | function name formals body => exact done _ (onStore (Store.register name formals body)) []
      | call =>
          exact (onStore _).bind fun _ => (onStore _).bind fun _ => (onStore _).bind fun _ =>
            .pure _
  | closeScope => exact done _ (onStore _) []
  | leaveFrame => exact done _ (onStore _) []

end PrintsNothing

/-- A print command prints the word that it reads, if it can read one. -/
theorem leaves_print (name : String) (position : Position) (machine : Machine) :
    (leaves (Task.run (.print name position)).perform machine).printed.toList =
      machine.printed.toList ++ (outcomeOf (Store.read name machine.store)).toOption.toList := by
  have opened :
      (Task.run (.print name position)).perform machine =
        (onStore (Store.read name) >>= fun value => emit value >>= fun _ => pure []) machine := by
    show
      (do (do let value ← onStore (Store.read name)
              emit value)
          pure []) machine = _
    rw [bind_assoc]
  obtain ⟨store, printed, echo⟩ := machine
  rw [leaves, opened]
  cases outcome : Store.read name store with
  | ok value next =>
      have isRead :
          onStore (Store.read name) ⟨store, printed, echo⟩ = .ok value ⟨next, printed, echo⟩ := by
        simp only [onStore, outcome]
      rw [bind_of_ok isRead]
      exact Array.toList_push
  | error fault stopped =>
      have isRead :
          onStore (Store.read name) ⟨store, printed, echo⟩ =
            .error fault ⟨stopped, printed, echo⟩ := by
        simp only [onStore, outcome]
      rw [bind_of_error isRead]
      exact (List.append_nil printed.toList).symm

/-- A performance adds the word that it prints to those printed before. -/
theorem Performance.printed_left (performance : Performance) :
    performance.left.printed.toList =
      performance.machine.printed.toList ++ performance.printed?.toList := by
  obtain ⟨task, machine⟩ := performance
  have others (notPrint : ∀ name position, task ≠ .run (.print name position)) :
      (leaves task.perform machine).printed.toList = machine.printed.toList ++ [] := by
    rw [PrintsNothing.perform notPrint, List.append_nil]
  cases task with
  | run command =>
      cases command with
      | print name position => exact leaves_print name position machine
      | _ => exact others nofun
  | _ => exact others nofun

/-- What has been printed are the words that the performances have printed, in order. -/
theorem Linked.printed_eq
    {first final : Machine} {performances : List Performance}
    (linked : Linked first performances final) :
    final.printed.toList =
      first.printed.toList ++ performances.filterMap Performance.printed? := by
  induction linked with
  | none =>
      simp
  | @performance performance later final _ inductionHypothesis =>
      rw [inductionHypothesis, performance.printed_left, List.append_assoc, List.filterMap_cons]
      cases performance.printed? <;> rfl

/-! ## What is read back -/

/-- Lines of output with separators between them are a data text of the words printed. -/
theorem Machine.ofText_of_separated
    {machine : Machine} {text : String}
    (separated : Separated (machine.output.map String.toList) text.toList) :
    InputTape.ofText text = .ok (.ofLiterals machine.printed) := by
  rw [Machine.output, List.map_map] at separated
  exact InputTape.ofText_eq_ok_iff.mpr ⟨machine.printed.toList, rfl, separated.dataText⟩

/--
The output of a run is data that is read back as it was printed. What a script has
printed when it has finished, or has been stopped by a fault, are the words printed
before, and then those that its print commands have printed, in order. The lines of
the output are read as these words when they are joined by line feeds, and also with
any other separators between them.
-/
theorem output_is_read_back (commands : List Command) (machine : Machine) :
    (∃ performances,
      Performs ((functionsFirst commands).map .run) machine performances
          (runScript commands machine) ∧
        (leaves (runScript commands) machine).printed.toList =
          machine.printed.toList ++ performances.filterMap Performance.printed?) ∧
    InputTape.ofText ("\n".intercalate (leaves (runScript commands) machine).output) =
      .ok (.ofLiterals (leaves (runScript commands) machine).printed) ∧
    ∀ text : String,
      Separated ((leaves (runScript commands) machine).output.map String.toList) text.toList →
        InputTape.ofText text =
          .ok (.ofLiterals (leaves (runScript commands) machine).printed) := by
  refine ⟨?_, Machine.ofText_of_separated ?_, fun text => Machine.ofText_of_separated⟩
  · obtain ⟨performances, performs⟩ := Performs.exists_execute (functionsFirst commands) machine
    rw [← runScript_eq] at performs
    refine ⟨performances, performs, ?_⟩
    rw [← Outcome.machine_eq]
    exact performs.linked.printed_eq
  · rw [String.toList_intercalate]
    exact separated_intercalate _

end RefScript
