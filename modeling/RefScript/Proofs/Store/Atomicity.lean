import RefScript.Proofs.Store.Requests

namespace RefScript

/-!
# Refused requests leave no trace

Several requests can fail after part of their work: a call with some of its
arguments bound, an allocation with its variable found, the end of a scope that
turns out to be the base scope. None of them has changed the store by then, and
so a history comes to the same store without the requests that were refused.
-/

namespace Store

variable {Body : Type}

/-- The requests of a history that are granted, in order. -/
def grantedAmong (store : Store Body) : List (Operation Body) → List (Operation Body)
  | [] => []
  | operation :: rest =>
      match perform operation store with
      | .ok _ next => operation :: grantedAmong next rest
      | .error _ next => grantedAmong next rest

/-- A request is refused exactly for the reasons listed, and then changes nothing. -/
theorem perform_eq_error_iff
    {store next : Store Body}
    {operation : Operation Body}
    {fault : Fault} :
    perform operation store = .error fault next ↔
      Refused store operation fault ∧ next = store := by
  constructor
  · intro failed
    exact ⟨refused_of_perform failed, eq_of_perform_error failed⟩
  · rintro ⟨reason, rfl⟩
    exact perform_of_refused reason

theorem after_of_ok
    {store next : Store Body}
    {operation : Operation Body}
    {reply : Reply Body}
    (answered : perform operation store = .ok reply next) :
    store.after operation = next := by
  rw [after, answered]

theorem after_of_error
    {store next : Store Body}
    {operation : Operation Body}
    {fault : Fault}
    (failed : perform operation store = .error fault next) :
    store.after operation = store := by
  rw [after, failed]
  exact eq_of_perform_error failed

/-- The granted requests of a history come to the same store as all of them. -/
theorem afterAll_grantedAmong
    (store : Store Body)
    (operations : List (Operation Body)) :
    store.afterAll (store.grantedAmong operations) = store.afterAll operations := by
  induction operations generalizing store with
  | nil =>
      rfl
  | cons operation rest inductionHypothesis =>
      unfold grantedAmong
      cases outcome : perform operation store with
      | ok reply next =>
          simp only [afterAll_cons, after_of_ok outcome, inductionHypothesis]
      | error fault next =>
          rw [afterAll_cons, after_of_error outcome, eq_of_perform_error outcome]
          exact inductionHypothesis store

/--
After every history of requests to a new store, whatever is then requested: if
it is refused, the whole store is as it was before, with its variables, frames,
heap, flags, reports, functions, input and list of stray references. So the
refused requests of the history itself have contributed nothing to the store
that it has led to.
-/
theorem refused_requests_leave_no_trace
    (settings : Settings)
    (reporter : Reporter)
    (input : InputTape)
    (operations : List (Operation Body)) :
    let fresh := (withReporter settings reporter : Store Body).withInput input
    let reached := fresh.afterAll operations
    (∀ operation fault next,
      perform operation reached = .error fault next ↔
        Refused reached operation fault ∧ next = reached) ∧
    fresh.afterAll (fresh.grantedAmong operations) = reached := by
  intro fresh reached
  constructor
  · intro operation fault next
    exact perform_eq_error_iff
  · exact afterAll_grantedAmong fresh operations

end Store

end RefScript
