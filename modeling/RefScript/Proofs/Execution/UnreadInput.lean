import RefScript.Proofs.Execution.InputOrder

namespace RefScript

/-!
# Literals that are read and that are not

A run reads the literals in order, and does not depend on those that it has not read.
With any others in their place it does the same, as long as it does not ask for more
than there are.
-/

/-- The same machine with other literals on the tape, of which as many have been read. -/
def Machine.withLiterals (machine : Machine) (literals : Array Word) : Machine :=
  machine.withInput ⟨literals, machine.store.input.position⟩

section OtherLiterals

variable {literals other : Array Word} {count : Nat} {machine : Machine}

/-- A machine and the same machine with the other literals. -/
def WithOther (other : Array Word) (machine machine' : Machine) : Prop :=
  machine' = machine.withLiterals other

/-- The literals that are read until the tape has the given position are the same. -/
def SameUpTo (literals other : Array Word) (position : Nat) : Prop :=
  ∀ index, index < position → other[index]? = literals[index]?

theorem SameUpTo.of_le
    {position position' : Nat}
    (same : SameUpTo literals other position')
    (notBeyond : position ≤ position') :
    SameUpTo literals other position :=
  fun index read => same index (Nat.lt_of_lt_of_le read notBeyond)

/-- A tape of the other literals from which as many have been read. -/
private theorem afterReading_other
    (enough : count ≤ literals.size)
    (enoughToo : count ≤ other.size) :
    (⟨other, (InputTape.afterReading literals count).position⟩ : InputTape) =
      .afterReading other count := by
  show (⟨other, min count literals.size⟩ : InputTape) = ⟨other, min count other.size⟩
  rw [Nat.min_eq_left enough, Nat.min_eq_left enoughToo]

/-- An input command has the same outcome, if it reads the same literal. -/
private theorem sameOutcome_input
    (isTape : machine.store.input = .afterReading literals count)
    (unread : count < literals.size)
    (isLiteral : other[count]? = some literals[count])
    (name : String) (position : Position) :
    SameOutcome (WithOther other)
      ((Task.run (.input name position)).perform machine)
      ((Task.run (.input name position)).perform (machine.withLiterals other)) := by
  obtain ⟨unreadToo, _⟩ := Array.getElem?_eq_some_iff.mp isLiteral
  have isTapeToo : (machine.withLiterals other).store.input = .afterReading other count := by
    rw [← afterReading_other (Nat.le_of_lt unread) (Nat.le_of_lt unreadToo), ← isTape]
    rfl
  rw [perform_input isTape, perform_input isTapeToo, isLiteral,
    Array.getElem?_eq_getElem unread]
  apply (blind_write name literals[count]
    (machine.withInput (.afterReading literals (count + 1))) (.afterReading other (count + 1))).imp
  rintro next _ ⟨isInput, rfl⟩
  have isNext : next.store.input = .afterReading literals (count + 1) := isInput
  rw [WithOther, Machine.withLiterals, isNext, afterReading_other unread unreadToo]

/-- A task has the same outcome with other literals, if it reads none of those that differ. -/
theorem sameOutcome_perform
    (task : Task)
    (isTape : machine.store.input = .afterReading literals count)
    (notExhausted : ∀ stopped, task.perform machine ≠ .error .dataExhausted stopped)
    (same : SameUpTo literals other (leaves task.perform machine).store.input.position) :
    SameOutcome (WithOther other)
      (task.perform machine) (task.perform (machine.withLiterals other)) := by
  cases isInput : task.isInput with
  | false =>
      apply (Blind.perform isInput machine ⟨other, machine.store.input.position⟩).imp
      rintro next _ ⟨sameInput, rfl⟩
      rw [← sameInput]
      rfl
  | true =>
      cases task with
      | run command =>
          cases command with
          | input name position =>
              by_cases unread : count < literals.size
              · have moved :
                    (leaves (Task.run (.input name position)).perform machine).store.input =
                      .afterReading literals (count + 1) :=
                  Performance.input_left ⟨.run (.input name position), machine⟩ isTape
                have isRead : count < min (count + 1) literals.size := by omega
                rw [moved] at same
                have isLiteral := same count isRead
                rw [Array.getElem?_eq_getElem unread] at isLiteral
                exact sameOutcome_input isTape unread isLiteral name position
              · have exhausted := perform_input isTape name position
                rw [Array.getElem?_eq_none (Nat.le_of_not_lt unread)] at exhausted
                exact absurd exhausted (notExhausted machine)
          | _ => contradiction
      | _ => contradiction

/-- Tasks end in the same way with other literals, if they read none of those that differ. -/
theorem Performs.sameOutcome
    {tasks : List Task} {performances : List Performance} {outcome : Outcome}
    (performs : Performs tasks machine performances outcome)
    (isTape : machine.store.input = .afterReading literals count)
    (notExhausted : ∀ stopped, outcome ≠ .error .dataExhausted stopped)
    (same : SameUpTo literals other outcome.machine.store.input.position) :
    ∃ performances' outcome',
      Performs tasks (machine.withLiterals other) performances' outcome' ∧
        SameOutcome (WithOther other) outcome outcome' := by
  induction performs generalizing count with
  | finished => exact ⟨_, _, .finished, .ok rfl⟩
  | @performed task opened rest machine next _ _ done later inductionHypothesis =>
      have isNext := Performance.input_left ⟨task, machine⟩ isTape
      rw [Performance.left, leaves_of_ok done] at isNext
      have sameFirst := same.of_le (later.linked.position_le isNext)
      rw [← leaves_of_ok done] at sameFirst
      have notFirst : ∀ stopped, task.perform machine ≠ .error .dataExhausted stopped := by
        simp [done]
      have sameStep := sameOutcome_perform task isTape notFirst sameFirst
      generalize doneToo : task.perform (machine.withLiterals other) = result at sameStep
      rw [done] at sameStep
      cases sameStep with
      | ok after =>
          cases after
          obtain ⟨performances', outcome', laterToo, sameLater⟩ :=
            inductionHypothesis isNext notExhausted same
          exact ⟨_, outcome', .performed doneToo laterToo, sameLater⟩
  | @refused task rest machine stopped fault failed =>
      rw [← leaves_of_error failed] at same
      have notFirst : ∀ stopped, task.perform machine ≠ .error .dataExhausted stopped := by
        intro stopped' isExhausted
        cases failed.symm.trans isExhausted
        exact notExhausted stopped rfl
      have sameStep := sameOutcome_perform task isTape notFirst same
      generalize failedToo : task.perform (machine.withLiterals other) = result at sameStep
      rw [failed] at sameStep
      cases sameStep with
      | error after => exact ⟨_, _, .refused failedToo, .error after⟩

/-- So does a script. -/
theorem sameOutcome_script
    (commands : List Command)
    (isTape : machine.store.input = .afterReading literals count)
    (notExhausted : ∀ stopped, runScript commands machine ≠ .error .dataExhausted stopped)
    (same : SameUpTo literals other (leaves (runScript commands) machine).store.input.position) :
    SameOutcome (WithOther other)
      (runScript commands machine) (runScript commands (machine.withLiterals other)) := by
  obtain ⟨_, performs⟩ := Performs.exists_execute (functionsFirst commands) machine
  rw [← Outcome.machine_eq] at same
  rw [runScript_eq] at notExhausted same ⊢
  obtain ⟨_, outcome', performsToo, sameOutcome⟩ := performs.sameOutcome isTape notExhausted same
  rw [performsToo.outcome_eq_execute] at sameOutcome
  exact sameOutcome

/-- And so do scripts that are run one after another. -/
theorem sameOutcomes_scripts
    {scripts : List (List Command)}
    (isTape : machine.store.input = .afterReading literals count)
    (notExhausted :
      ∀ stopped, .error .dataExhausted stopped ∉ outcomes runScript scripts machine)
    (same : SameUpTo literals other (afterScripts scripts machine).store.input.position) :
    List.Forall₂ (SameOutcome (WithOther other))
      (outcomes runScript scripts machine)
      (outcomes runScript scripts (machine.withLiterals other)) := by
  induction scripts generalizing machine count with
  | nil => exact .nil
  | cons commands scripts inductionHypothesis =>
      obtain ⟨first, performs⟩ := Performs.exists_execute (functionsFirst commands) machine
      rw [← runScript_eq] at performs
      have linked := performs.linked
      rw [Outcome.machine_eq] at linked
      have isNext := linked.input_eq isTape
      obtain ⟨_, others⟩ := PerformsScripts.exists_runScript scripts (leaves (runScript commands) machine)
      have sameFirst := same.of_le (others.linked.position_le isNext)
      have notFirst : ∀ stopped, runScript commands machine ≠ .error .dataExhausted stopped :=
        fun stopped isExhausted => notExhausted stopped (isExhausted ▸ List.mem_cons_self)
      have sameScript := sameOutcome_script commands isTape notFirst sameFirst
      have left : leaves (runScript commands) (machine.withLiterals other) =
          (leaves (runScript commands) machine).withLiterals other :=
        sameScript.leaves
      have sameLater :=
        inductionHypothesis isNext
          (fun stopped member => notExhausted stopped (List.mem_cons_of_mem _ member)) same
      rw [← left] at sameLater
      exact .cons sameScript sameLater

end OtherLiterals

/--
What a performance does to the tape of literals, given how many input commands have
been performed before.
-/
structure Performance.ReadsInOrder
    (literals : Array Word) (count : Nat) (performance : Performance) : Prop where
  /-- As many literals have been read by then, or all if there are fewer. -/
  before : performance.machine.store.input = .afterReading literals count
  /-- The literal whose turn it is can be taken, and if there is none, nothing changes. -/
  takes :
    onStore Store.nextData performance.machine =
      match literals[count]? with
      | some literal =>
          .ok literal (performance.machine.withInput (.afterReading literals (count + 1)))
      | none => .error .dataExhausted performance.machine
  /-- An input command takes that literal, before it writes it. -/
  input :
    ∀ name position,
      performance.task = .run (.input name position) →
        performance.task.perform performance.machine =
          match literals[count]? with
          | some literal =>
              (do onStore (Store.write name literal); pure [])
                (performance.machine.withInput (.afterReading literals (count + 1)))
          | none => .error .dataExhausted performance.machine
  /-- The tape is moved by input commands alone, and if the write is refused, too. -/
  after :
    performance.left.store.input =
      .afterReading literals (if performance.task.isInput then count + 1 else count)

/-- Performances from a machine that has read nothing read the literals in order. -/
theorem Linked.readsInOrder
    {literals : Array Word} {first final : Machine} {earlier later : List Performance}
    {performance : Performance}
    (linked : Linked first (earlier ++ performance :: later) final)
    (isTape : first.store.input = .ofLiterals literals) :
    performance.ReadsInOrder literals (inputsAmong earlier) := by
  rw [← InputTape.afterReading_zero] at isTape
  have before := linked.before.input_eq isTape
  rw [Nat.zero_add] at before
  refine ⟨before, onStore_nextData before, ?_, ?_⟩
  · intro name position isInput
    rw [isInput]
    exact perform_input before name position
  · rw [performance.input_left before]
    simp only [inputsAmong, List.countP_singleton]
    cases performance.task.isInput <;> rfl

/-- Literals that start with those that have been read are the same up to there. -/
theorem sameUpTo_of_startsSame
    {literals other : Array Word} {position : Nat}
    (inRange : position ≤ literals.size)
    (startsSame : literals.toList.take position <+: other.toList) :
    SameUpTo literals other position := by
  obtain ⟨rest, isOther⟩ := startsSame
  intro index read
  rw [← Array.getElem?_toList, ← Array.getElem?_toList, ← isOther,
    List.getElem?_append_left (by simp; omega), List.getElem?_take_of_lt read]

/-- The fault that a run has met, if it has met one. -/
def Outcome.fault? : Outcome → Option Fault
  | .ok _ _ => none
  | .error fault _ => some fault

/--
Scripts that are run one after another on a machine with a tape of literals, however
each of them ends: in the order in which input commands are performed, at whatever
depth and in whatever script, each takes the literal that has its turn, and meets a
fault if there is none. The tape is moved by one literal with every input command
that there is a literal for, even if its write is refused, and by nothing else.

If no script has met the fault that there are no more literals, then with any other
literals that start with those that have been read all the outcomes are the same,
and so are the machines, but for the literals that have not been read.
-/
theorem literals_are_read_in_order
    (literals : Array Word)
    (machine : Machine)
    (scripts : List (List Command)) :
    let start := machine.withInput (.ofLiterals literals)
    (∃ performances,
      PerformsScripts scripts start performances (outcomes runScript scripts start)) ∧
    (∀ performances ends,
      PerformsScripts scripts start performances ends →
        ends = outcomes runScript scripts start ∧
          ∀ earlier performance later,
            performances = earlier ++ performance :: later →
              performance.ReadsInOrder literals (inputsAmong earlier)) ∧
    (some .dataExhausted ∉ (outcomes runScript scripts start).map Outcome.fault? →
      ∀ other : Array Word,
        literals.toList.take (afterScripts scripts start).store.input.position <+:
            other.toList →
          List.Forall₂
            (SameOutcome fun next next' => next' = next.withLiterals other)
            (outcomes runScript scripts start)
            (outcomes runScript scripts (machine.withInput (.ofLiterals other)))) := by
  intro start
  refine ⟨PerformsScripts.exists_runScript scripts start, ?_, ?_⟩
  · intro performances ends performs
    refine ⟨performs.ends_eq_outcomes, ?_⟩
    rintro earlier performance later rfl
    exact performs.linked.readsInOrder rfl
  · intro notExhausted other startsSame
    have isTape : start.store.input = .afterReading literals 0 :=
      (InputTape.afterReading_zero literals).symm
    obtain ⟨_, performs⟩ := PerformsScripts.exists_runScript scripts start
    have finalTape := performs.linked.input_eq isTape
    have inRange : (afterScripts scripts start).store.input.position ≤ literals.size := by
      rw [finalTape]
      exact Nat.min_le_right _ _
    apply sameOutcomes_scripts isTape _ (sameUpTo_of_startsSame inRange startsSame)
    intro stopped member
    exact notExhausted (List.mem_map_of_mem member)

/-- An input command that cannot write its literal, and is given up. -/
def failingInput : List Command :=
  [.declare .ref "r" ⟨1, 1⟩, .input "r" ⟨2, 1⟩]

/-- An input command in a block, the literal of which is printed. -/
def printedInput : List Command :=
  [.frame [.declare .int "x" ⟨2, 3⟩, .block [.input "x" ⟨3, 3⟩] ⟨3, 1⟩, .print "x" ⟨4, 3⟩]
    ⟨1, 1⟩]

/-- The second script reads the second literal, and a third one makes no difference. -/
theorem printedInput_reads_second_literal :
    let start := abandonedMachine.withInput (.ofLiterals #[5, 7])
    let scripts := [failingInput, printedInput]
    (outcomes runScript scripts start).map Outcome.fault? = [some (.invalidWrite "r"), none] ∧
      (afterScripts scripts start).output = ["7"] ∧
        List.Forall₂
          (SameOutcome fun next next' => next' = next.withLiterals #[5, 7, 9])
          (outcomes runScript scripts start)
          (outcomes runScript scripts (abandonedMachine.withInput (.ofLiterals #[5, 7, 9]))) := by
  intro start scripts
  have faults :
      (outcomes runScript scripts start).map Outcome.fault? = [some (.invalidWrite "r"), none] := by
    decide +kernel
  have position : (afterScripts scripts start).store.input.position = 2 := by
    decide +kernel
  obtain ⟨_, _, unread⟩ := literals_are_read_in_order #[5, 7] abandonedMachine scripts
  refine ⟨faults, by decide +kernel, unread ?_ #[5, 7, 9] ?_⟩
  · rw [faults]
    decide
  · rw [position]
    exact ⟨[9], rfl⟩

end RefScript
