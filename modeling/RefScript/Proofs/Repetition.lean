namespace RefScript

/-!
# Repeated steps

A scan or a reading that fails leaves a state from which it can be called again.
The states that such calls go through are those of one step repeated, be the
calls successful or not. If every failing call makes something smaller, then one
of the first calls succeeds.
-/

variable {ε σ α : Type}

/-- What comes of a step, a value or a failure, apart from the state that it leaves. -/
def outcomeOf : EStateM.Result ε σ α → Except ε α
  | .ok value _ => .ok value
  | .error failure _ => .error failure

/-- The state that a step leaves, whether it succeeds or fails. -/
def leftBy : EStateM.Result ε σ α → σ
  | .ok _ left => left
  | .error _ left => left

/-- The result of a step that leaves the given state, with the given outcome. -/
def leaving (left : σ) : Except ε α → EStateM.Result ε σ α
  | .ok value => .ok value left
  | .error failure => .error failure left

@[simp] theorem outcomeOf_leaving (left : σ) (outcome : Except ε α) :
    outcomeOf (leaving left outcome) = outcome := by
  cases outcome <;> rfl

@[simp] theorem leftBy_leaving (left : σ) (outcome : Except ε α) :
    leftBy (leaving left outcome) = left := by
  cases outcome <;> rfl

/-- The state after a number of calls of a step, each from where the one before has left it. -/
def afterCalls (step : EStateM ε σ α) (start : σ) : Nat → σ
  | 0 => start
  | calls + 1 => leftBy (step (afterCalls step start calls))

variable {step : EStateM ε σ α} {start : σ}

/-- A state that calls leave as it is, once reached, is that of all later calls. -/
theorem afterCalls_of_unchanged
    {state : σ} {calls later : Nat}
    (unchanged : leftBy (step state) = state)
    (reached : afterCalls step start calls = state)
    (ordered : calls ≤ later) :
    afterCalls step start later = state := by
  induction ordered with
  | refl =>
      exact reached
  | step _ inductionHypothesis =>
      rw [afterCalls, inductionHypothesis, unchanged]

/-- The first so many calls all fail. -/
def AllFail (step : EStateM ε σ α) (start : σ) (calls : Nat) : Prop :=
  ∀ earlier < calls, ∃ failure, outcomeOf (step (afterCalls step start earlier)) = .error failure

/-- The first calls fail, and the call after them is the first one that succeeds. -/
def FirstSucceedsAfter (step : EStateM ε σ α) (start : σ) (failures : Nat) : Prop :=
  AllFail step start failures ∧
    ∃ value, outcomeOf (step (afterCalls step start failures)) = .ok value

/-- Every failing call makes what is measured smaller. -/
def FailuresShrink (step : EStateM ε σ α) (start : σ) (measure : σ → Nat) : Prop :=
  ∀ calls failure,
    outcomeOf (step (afterCalls step start calls)) = .error failure →
      measure (afterCalls step start (calls + 1)) < measure (afterCalls step start calls)

/-- As long as no call has succeeded, each one has made what is measured smaller. -/
private theorem exists_success_or_shrunk
    {measure : σ → Nat}
    (shrink : FailuresShrink step start measure)
    (calls : Nat) :
    (∃ failures < calls, FirstSucceedsAfter step start failures) ∨
      AllFail step start calls ∧
        measure (afterCalls step start calls) + calls ≤ measure start := by
  induction calls with
  | zero =>
      exact Or.inr ⟨fun _ impossible => (Nat.not_lt_zero _ impossible).elim, Nat.le_refl _⟩
  | succ calls inductionHypothesis =>
      rcases inductionHypothesis with ⟨failures, earlier, first⟩ | ⟨allFail, shrunk⟩
      · exact Or.inl ⟨failures, Nat.lt_succ_of_lt earlier, first⟩
      cases outcome : outcomeOf (step (afterCalls step start calls)) with
      | ok value =>
          exact Or.inl ⟨calls, Nat.lt_succ_self calls, allFail, value, outcome⟩
      | error failure =>
          have smaller := shrink calls failure outcome
          refine Or.inr ⟨fun earlier before => ?_, by omega⟩
          rcases Nat.lt_succ_iff_lt_or_eq.mp before with before | rfl
          · exact allFail earlier before
          · exact ⟨failure, outcome⟩

/-- One of the first calls succeeds: there are no more failures before it than can shrink. -/
theorem exists_firstSucceedsAfter
    {measure : σ → Nat}
    (shrink : FailuresShrink step start measure) :
    ∃ failures ≤ measure start, FirstSucceedsAfter step start failures := by
  rcases exists_success_or_shrunk shrink (measure start + 1) with
    ⟨failures, bounded, first⟩ | ⟨_, shrunk⟩
  · exact ⟨failures, Nat.le_of_lt_succ bounded, first⟩
  · omega

end RefScript
