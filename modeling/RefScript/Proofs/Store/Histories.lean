import RefScript.Proofs.Store.Requests

namespace RefScript

/-!
# Histories under a rule

Some facts about a store hold only as long as no request breaks a rule. A rule
may look at the store that a request is made to, so that a history abides by it
request by request. What the requests that abide by a rule keep holds at the
end of every history that does; and what a request can bring about and a later
one can end holds at the end if and only if it was brought about at some time
and not ended since.
-/

namespace Store

variable {Body : Type}

/-- Every request of the history abides by the rule, on the store that it is made to. -/
def Abides (rule : Store Body → Operation Body → Prop) :
    Store Body → List (Operation Body) → Prop
  | _, [] => True
  | store, operation :: rest => rule store operation ∧ Abides rule (store.after operation) rest

/-- A history can be checked against a rule that can be checked. -/
instance decidableAbides
    (rule : Store Body → Operation Body → Prop)
    [∀ store operation, Decidable (rule store operation)] :
    (store : Store Body) → (operations : List (Operation Body)) →
      Decidable (Abides rule store operations)
  | _, [] => isTrue trivial
  | store, operation :: rest =>
      have := decidableAbides rule (store.after operation) rest
      inferInstanceAs (Decidable (rule store operation ∧ Abides rule (store.after operation) rest))

variable {rule : Store Body → Operation Body → Prop}

/-- A history abides by a rule if every request does, on the store that the ones before it leave. -/
theorem abides_iff {store : Store Body} {operations : List (Operation Body)} :
    Abides rule store operations ↔
      ∀ earlier operation later, operations = earlier ++ operation :: later →
        rule (store.afterAll earlier) operation := by
  induction operations generalizing store with
  | nil =>
      simp [Abides]
  | cons first rest inductionHypothesis =>
      rw [Abides, inductionHypothesis]
      constructor
      · rintro ⟨abidesFirst, others⟩ earlier operation later split
        cases earlier with
        | nil =>
            cases split
            exact abidesFirst
        | cons head middle =>
            cases split
            exact others middle operation later rfl
      · intro abides
        refine ⟨abides [] first rest rfl, ?_⟩
        rintro earlier operation later rfl
        exact abides (first :: earlier) operation later rfl

/-- What every granted request that abides by the rule keeps holds after a history that does. -/
theorem afterAll_of_abides
    (holds : Store Body → Prop)
    (kept :
      ∀ {store next : Store Body} {operation : Operation Body} {reply : Reply Body},
        rule store operation → Granted store operation reply next → holds store → holds next)
    {store : Store Body}
    {operations : List (Operation Body)}
    (abides : Abides rule store operations)
    (before : holds store) :
    holds (store.afterAll operations) := by
  induction operations generalizing store with
  | nil =>
      exact before
  | cons operation rest inductionHypothesis =>
      have afterFirst : holds (store.after operation) :=
        holds_after (fun granted => kept abides.1 granted before) before
      exact inductionHypothesis abides.2 afterFirst

/--
If a request leaves a fact true exactly by bringing it about, or by keeping it
when it was true before, then the fact holds after a history if and only if it
held before and was kept, or some request brought it about and the later ones
kept it. It is enough if requests do so on stores for which an invariant holds.
-/
theorem holds_afterAll_iff_of_invariant
    (invariant : Store Body → Prop)
    (preserved : ∀ store operation, invariant store → invariant (store.after operation))
    (holds : Store Body → Prop)
    (brings keeps : Store Body → Operation Body → Prop)
    (step :
      ∀ store operation, invariant store →
        (holds (store.after operation) ↔
          brings store operation ∨ holds store ∧ keeps store operation))
    {store : Store Body}
    (before : invariant store)
    (operations : List (Operation Body)) :
    holds (store.afterAll operations) ↔
      (holds store ∧ Abides keeps store operations) ∨
        ∃ earlier request later,
          operations = earlier ++ request :: later ∧
            brings (store.afterAll earlier) request ∧
            Abides keeps ((store.afterAll earlier).after request) later := by
  induction operations generalizing store with
  | nil =>
      simp [Abides]
  | cons operation rest inductionHypothesis =>
      rw [afterAll_cons, inductionHypothesis (preserved store operation before),
        step store operation before]
      constructor
      · rintro (⟨brought | ⟨held, kept⟩, keptLater⟩ | inRest)
        · exact Or.inr ⟨[], operation, rest, rfl, brought, keptLater⟩
        · exact Or.inl ⟨held, kept, keptLater⟩
        · obtain ⟨earlier, request, later, rfl, brought, keptLater⟩ := inRest
          exact Or.inr ⟨operation :: earlier, request, later, rfl, brought, keptLater⟩
      · rintro (⟨held, kept, keptLater⟩ | ⟨earlier, request, later, split, brought, keptLater⟩)
        · exact Or.inl ⟨Or.inr ⟨held, kept⟩, keptLater⟩
        · cases earlier with
          | nil =>
              cases split
              exact Or.inl ⟨Or.inl brought, keptLater⟩
          | cons first middle =>
              cases split
              exact Or.inr ⟨middle, request, later, rfl, brought, keptLater⟩

/-- The same for requests that bring a fact about or keep it on every store. -/
theorem holds_afterAll_iff
    (holds : Store Body → Prop)
    (brings keeps : Store Body → Operation Body → Prop)
    (step :
      ∀ store operation,
        holds (store.after operation) ↔
          brings store operation ∨ holds store ∧ keeps store operation)
    (store : Store Body)
    (operations : List (Operation Body)) :
    holds (store.afterAll operations) ↔
      (holds store ∧ Abides keeps store operations) ∨
        ∃ earlier request later,
          operations = earlier ++ request :: later ∧
            brings (store.afterAll earlier) request ∧
            Abides keeps ((store.afterAll earlier).after request) later :=
  holds_afterAll_iff_of_invariant (fun _ => True) (fun _ _ _ => trivial) holds brings keeps
    (fun store operation _ => step store operation) trivial operations

end Store

end RefScript
