namespace RefScript

/-!
# Sequences of steps

When two steps, one after the other, give a value and when they fail. The
readers of scripts and the machine both are made of such steps.
-/

variable {ε σ α β : Type} {step : EStateM ε σ α} {later : α → EStateM ε σ β}
  {state : σ}

/-- Two steps give a value when the first one does and then the second one does. -/
theorem bind_eq_ok_iff {value : β} {next : σ} :
    (step >>= later) state = .ok value next ↔
      ∃ first between,
        step state = .ok first between ∧
          later first between = .ok value next := by
  simp only [bind, EStateM.bind]
  cases step state with
  | ok first between =>
      constructor
      · intro done
        exact ⟨first, between, rfl, done⟩
      · rintro ⟨_, _, same, done⟩
        cases same
        exact done
  | error failure stopped =>
      simp

/-- Two steps fail in the first one, or after it in the second one. -/
theorem bind_eq_error_iff {failure : ε} {stopped : σ} :
    (step >>= later) state = .error failure stopped ↔
      step state = .error failure stopped ∨
        ∃ first between,
          step state = .ok first between ∧
            later first between = .error failure stopped := by
  simp only [bind, EStateM.bind]
  cases step state with
  | ok first between =>
      constructor
      · intro failed
        exact Or.inr ⟨first, between, rfl, failed⟩
      · rintro (impossible | ⟨_, _, same, failed⟩)
        · cases impossible
        · cases same
          exact failed
  | error failure' stopped' =>
      simp

/-- What follows a finished step starts where that step has ended. -/
theorem bind_of_ok
    {first : α} {between : σ}
    (done : step state = .ok first between) :
    (step >>= later) state = later first between := by
  simp only [bind, EStateM.bind, done]

/-- What follows a failure is left out. -/
theorem bind_of_error
    {failure : ε} {stopped : σ}
    (failed : step state = .error failure stopped) :
    (step >>= later) state = .error failure stopped := by
  simp only [bind, EStateM.bind, failed]

/-- Two sequences do the same if their first steps do, and what then follows does. -/
theorem bind_congr_of_ok
    {step' : EStateM ε σ α} {later' : α → EStateM ε σ β}
    (sameStep : step state = step' state)
    (sameLater :
      ∀ first between,
        step state = .ok first between →
          later first between = later' first between) :
    (step >>= later) state = (step' >>= later') state := by
  simp only [bind, EStateM.bind]
  rw [← sameStep]
  cases outcome : step state with
  | ok first between =>
      exact sameLater first between outcome
  | error failure stopped =>
      rfl

end RefScript
