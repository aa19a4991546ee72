import RefScript.Proofs.Execution.Performances
import RefScript.Proofs.Store.Surroundings

namespace RefScript

/-!
# The order in which literals are read

The literals of the input are read one after another by the input commands, in the
order in which these are performed, wherever they stand. An input command has read
its literal also if the write of it then fails; nothing else moves the tape. And
literals that have not been read make no difference.
-/

/-- Whether the task is an input command. -/
def Task.isInput : Task → Bool
  | .run (.input ..) => true
  | _ => false

/-- The same machine with another input. -/
def Machine.withInput (machine : Machine) (input : InputTape) : Machine :=
  { machine with store := machine.store.withInput input }

/-- A tape from which some literals have been read, or all if there are fewer. -/
def InputTape.afterReading (literals : Array Word) (count : Nat) : InputTape :=
  ⟨literals, min count literals.size⟩

namespace InputTape

variable (literals : Array Word) (count : Nat)

theorem afterReading_zero : afterReading literals 0 = ofLiterals literals := by
  rw [afterReading, Nat.zero_min]
  rfl

theorem advance_afterReading :
    (afterReading literals count).advance = afterReading literals (count + 1) := by
  unfold advance afterReading atEnd
  by_cases allRead : literals.size ≤ count
  · have sameCount : min (count + 1) literals.size = min count literals.size := by omega
    simp [allRead, sameCount]
  · have notRead : ¬ literals.size ≤ min count literals.size := by omega
    have oneMore : min count literals.size + 1 = min (count + 1) literals.size := by omega
    simp [notRead, oneMore]

theorem afterReading_of_size_le
    (allRead : literals.size ≤ count) :
    (afterReading literals count).atEnd = true := by
  have isEnd : min count literals.size = literals.size := by omega
  simp [atEnd, afterReading, isEnd]

theorem afterReading_of_lt_size
    (unread : count < literals.size) :
    (afterReading literals count).atEnd = false ∧
      (afterReading literals count).current = literals[count] := by
  have isPosition : min count literals.size = count := by omega
  constructor
  · simp [atEnd, afterReading, isPosition, unread]
  · simp [current, afterReading, isPosition, unread]

end InputTape

/-! ## Steps that leave the input alone -/

/-- A step that does the same with any input, and leaves the input as it is. -/
def Blind {α : Type} (step : Execution α) : Prop :=
  ∀ machine input,
    SameOutcome
      (fun next next' =>
        next.store.input = machine.store.input ∧ next' = next.withInput input)
      (step machine) (step (machine.withInput input))

namespace Blind

variable {α β : Type}

theorem pure (value : α) : Blind (pure value : Execution α) :=
  fun _ _ => .ok ⟨rfl, rfl⟩

theorem bind
    {step : Execution α} {later : α → Execution β}
    (blind : Blind step)
    (blindLater : ∀ value, Blind (later value)) :
    Blind (step >>= later) := by
  intro machine input
  apply SameOutcome.bind (blind machine input)
  rintro value next _ _ ⟨sameInput, rfl⟩
  exact (blindLater value next input).imp fun ⟨sameAgain, isNext⟩ =>
    ⟨sameAgain.trans sameInput, isNext⟩

/-- Requests do not see the input unless they ask for it. -/
theorem request
    {action : Store.Action (List Command) α}
    {operation : Operation (List Command)}
    {reply : α → Reply (List Command)}
    (requests : Store.Requests action operation reply)
    (noInput : operation ≠ .nextData) :
    Blind (onStore action) := by
  intro machine input
  let surroundings : Surroundings := { machine.store.surroundings with input }
  have elsewhere : (machine.withInput input).store = machine.store.within surroundings := rfl
  apply requests.sameOutcome
  · intro value store granted
    obtain ⟨report, reported, grantedThere⟩ := granted.within noInput
    have sameReport : surroundings.report report = { store.surroundings with input } := by
      rw [reported]
      cases report <;> rfl
    refine ⟨_, grantedThere surroundings rfl, Store.input_eq_of_report reported, ?_⟩
    rw [sameReport]
    rfl
  · intro fault refused
    rw [elsewhere]
    exact refused.within noInput rfl
  · exact ⟨rfl, rfl⟩

theorem emit (value : Word) : Blind (emit value) := by
  rintro ⟨store, printed, echo⟩ input
  cases echo <;> exact .ok ⟨rfl, rfl⟩

/-- A task that is no input command does not see the input. -/
theorem perform
    {task : Task}
    (notInput : task.isInput = false) :
    Blind task.perform := by
  have done {α : Type} (step : Execution α) (blind : Blind step) (opened : List Task) :
      Blind (do let _ ← step; Pure.pure opened) :=
    blind.bind fun _ => .pure opened
  cases task with
  | run command =>
      cases command with
      | declare kind name => exact done _ (request (Store.requests_declare name kind) nofun) []
      | allocate name =>
          have allocates := (request (Store.requests_allocate name) nofun).bind fun _ => .pure ()
          exact done _ allocates []
      | assign name value => exact done _ (request (Store.requests_write name value) nofun) []
      | copy target source =>
          exact done _ (request (Store.requests_copy target source) nofun) []
      | input => contradiction
      | print name =>
          exact done _ ((request (Store.requests_read name) nofun).bind emit) []
      | block body => exact done _ (request Store.requests_pushScope nofun) _
      | frame body => exact done _ (request Store.requests_pushFrame nofun) _
      | function name formals body =>
          exact done _ (request (Store.requests_register name formals body) nofun) []
      | call name actuals =>
          apply (request (Store.requests_formalsOf name) nofun).bind
          intro formals
          apply (request (Store.requests_pushCallFrame name formals actuals) nofun).bind
          intro _
          exact (request (Store.requests_bodyOf name) nofun).bind fun body => .pure _
  | closeScope => exact done _ (request Store.requests_popScope nofun) []
  | leaveFrame => exact done _ (request Store.requests_popFrame nofun) []

theorem input_eq
    {step : Execution α}
    (blind : Blind step)
    (machine : Machine) :
    (leaves step machine).store.input = machine.store.input :=
  (blind machine machine.store.input).leaves.1

end Blind

/-! ## Input commands -/

section Reading

variable {literals : Array Word} {count : Nat} {machine : Machine}

/-- The next literal is taken from the tape, if there is one. -/
theorem onStore_nextData (isTape : machine.store.input = .afterReading literals count) :
    onStore Store.nextData machine =
      match literals[count]? with
      | some literal => .ok literal (machine.withInput (.afterReading literals (count + 1)))
      | none => .error .dataExhausted machine := by
  by_cases unread : count < literals.size
  · obtain ⟨notAtEnd, isCurrent⟩ := InputTape.afterReading_of_lt_size literals count unread
    rw [← isTape] at notAtEnd isCurrent
    have taken := Store.requests_nextData.onStore_of_granted (.nextData notAtEnd)
    rw [isCurrent, isTape, InputTape.advance_afterReading] at taken
    rw [Array.getElem?_eq_getElem unread]
    exact taken
  · have allRead := Nat.le_of_not_lt unread
    have atEnd := InputTape.afterReading_of_size_le literals count allRead
    rw [← isTape] at atEnd
    rw [Array.getElem?_eq_none allRead]
    exact Store.requests_nextData.onStore_of_refused (.dataExhausted atEnd)

/--
An input command takes the next literal, if there is one, and then writes it. The
literal is taken whether or not the write is refused.
-/
theorem perform_input
    (isTape : machine.store.input = .afterReading literals count)
    (name : String) (position : Position) :
    (Task.run (.input name position)).perform machine =
      match literals[count]? with
      | some literal =>
          (do onStore (Store.write name literal); pure [])
            (machine.withInput (.afterReading literals (count + 1)))
      | none => .error .dataExhausted machine := by
  have taken := onStore_nextData isTape
  show
    (do (do let value ← onStore Store.nextData
            onStore (Store.write name value))
        pure []) machine = _
  rw [bind_assoc]
  generalize literals[count]? = literal? at taken ⊢
  cases literal? with
  | some literal => exact bind_of_ok taken
  | none => exact bind_of_error taken

/-- The write of a literal does not see the input. -/
theorem blind_write (name : String) (literal : Word) :
    Blind (do onStore (Store.write name literal); pure ([] : List Task)) :=
  (Blind.request (Store.requests_write name literal) nofun).bind fun _ => .pure []

/-- How many input commands there are among performances. -/
def inputsAmong (performances : List Performance) : Nat :=
  performances.countP fun performance => performance.task.isInput

/-- A performance moves the tape by one literal if it is of an input command, and else not at all. -/
theorem Performance.input_left
    (performance : Performance)
    (isTape : performance.machine.store.input = .afterReading literals count) :
    performance.left.store.input =
      .afterReading literals (count + inputsAmong [performance]) := by
  obtain ⟨task, machine⟩ := performance
  dsimp only at isTape
  simp only [inputsAmong, List.countP_singleton, Performance.left]
  cases isInput : task.isInput with
  | false =>
      rw [(Blind.perform isInput).input_eq, isTape]
      rfl
  | true =>
      cases task with
      | run command =>
          cases command with
          | input name position =>
              rw [if_pos rfl, leaves, perform_input isTape]
              by_cases unread : count < literals.size
              · rw [Array.getElem?_eq_getElem unread]
                exact (blind_write name literals[count]).input_eq _
              · have allRead := Nat.le_of_not_lt unread
                rw [Array.getElem?_eq_none allRead]
                have sameCount : min (count + 1) literals.size = min count literals.size := by
                  omega
                rw [InputTape.afterReading, sameCount]
                exact isTape
          | _ => contradiction
      | _ => contradiction

/-- Performances move the tape by as many literals as there are input commands among them. -/
theorem Linked.input_eq
    {first final : Machine} {performances : List Performance}
    (linked : Linked first performances final)
    (isTape : first.store.input = .afterReading literals count) :
    final.store.input = .afterReading literals (count + inputsAmong performances) := by
  induction linked generalizing count with
  | none => exact isTape
  | @performance performance later final _ inductionHypothesis =>
      have moved := inductionHypothesis (performance.input_left isTape)
      have together :
          inputsAmong [performance] + inputsAmong later = inputsAmong (performance :: later) :=
        List.countP_append.symm
      rw [Nat.add_assoc, together] at moved
      exact moved

/-- So the tape is never moved back. -/
theorem Linked.position_le
    {first final : Machine} {performances : List Performance}
    (linked : Linked first performances final)
    (isTape : first.store.input = .afterReading literals count) :
    first.store.input.position ≤ final.store.input.position := by
  rw [linked.input_eq isTape, isTape]
  show min count literals.size ≤ min (count + inputsAmong performances) literals.size
  omega

end Reading

end RefScript
