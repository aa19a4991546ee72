import Mathlib.Data.List.Chain
import RefScript.Proofs.Store.Lifetime

namespace RefScript

/-!
# The trace of live counts

A request reports at most one count, and only if the number of live handles is
another than before: an allocation reports one more, the end of scopes reports
once, when all their references have been released, and nothing else reports
at all. The list of reported counts therefore starts with one, never repeats a
count at once, and ends with the count that is current.
-/

/-- The reporter after a request that took the number of live handles from one to another. -/
def Reporter.afterChange (reporter : Reporter) (before after : Nat) : Reporter :=
  if after = before then reporter else reporter.notify after

@[simp] theorem Reporter.afterChange_self (reporter : Reporter) (count : Nat) :
    reporter.afterChange count count = reporter :=
  if_pos rfl

namespace Liveness

theorem liveCount_of_push
    {liveness later : Liveness}
    (appended : later.flags = liveness.flags.push true) :
    later.liveCount = liveness.liveCount + 1 := by
  simp [liveCount, appended]

/-- Tracking a handle leaves the count that was reported last. -/
theorem reachable_trackLive (liveness : Liveness) (handle : Handle) :
    (liveness.trackLive handle).reachable = liveness.reachable := by
  unfold trackLive
  split
  · rfl
  · split <;> rfl

/-- Clearing a flag raises no other. -/
theorem liveCount_of_markDead?
    {liveness cleared : Liveness}
    {raw : Word}
    (tracked : liveness.markDead? raw = some cleared) :
    cleared.liveCount ≤ liveness.liveCount := by
  unfold markDead? at tracked
  cases spelled : Word.toHandle? raw with
  | none =>
      simp [spelled] at tracked
  | some handle =>
      simp only [spelled, Option.ite_none_right_eq_some, Option.some.injEq] at tracked
      obtain ⟨inRange, rfl⟩ := tracked
      have inFlags : handle < liveness.flags.size := inRange
      simp [liveCount, Array.setIfInBounds, inFlags, Array.count_set]

end Liveness

namespace Store

variable {Body : Type}

/-- A recount reports the live count if it is not the one reported last. -/
theorem reporter_recount (store : Store Body) :
    store.recount.reporter =
      store.reporter.afterChange store.liveness.reachable store.liveness.liveCount := by
  unfold recount Liveness.recount Reporter.afterChange
  by_cases current : store.liveness.liveCount = store.liveness.reachable
  · simp [current]
  · simp [current, notify]

theorem liveCount_recount (store : Store Body) :
    store.recount.liveness.liveCount = store.liveness.liveCount := by
  rw [liveness_recount]
  rfl

/-- The end of scopes reports once, after all their references have been released. -/
theorem reporter_endScopes (store : Store Body) (scopes : List Scope) :
    (store.endScopes scopes).reporter =
      store.reporter.afterChange store.liveness.reachable
        (store.endScopes scopes).liveness.liveCount := by
  have sameCount :
      (scopes.reverse.foldl release store).liveness.reachable = store.liveness.reachable :=
    liveness_foldl_release
      (fun cleared kept => (Liveness.markDead?_eq_some cleared).2.trans kept)
      scopes.reverse store rfl
  have sameReporter : (scopes.reverse.foldl release store).reporter = store.reporter := by
    obtain ⟨liveness, strays, released, _⟩ := foldl_release_eq scopes.reverse store
    rw [released]
  rw [endScopes, reporter_recount, liveCount_recount, sameCount, sameReporter]

/-- The end of scopes makes no handle live. -/
theorem liveCount_endScopes_le (store : Store Body) (scopes : List Scope) :
    (store.endScopes scopes).liveness.liveCount ≤ store.liveness.liveCount := by
  rw [endScopes, liveCount_recount]
  exact liveness_foldl_release
    (fun cleared fewer => Nat.le_trans (Liveness.liveCount_of_markDead? cleared) fewer)
    scopes.reverse store (Nat.le_refl _)

/-- A granted request reports the live count exactly if it has changed it. -/
theorem Granted.reporter_eq
    {store next : Store Body}
    {operation : Operation Body}
    {reply : Reply Body}
    (granted : Granted store operation reply next)
    (consistent : Consistent store) :
    next.reporter =
      store.reporter.afterChange store.liveness.liveCount next.liveness.liveCount := by
  have current := consistent.countCurrent
  cases granted.recordChange with
  | kept same noHandle endsNone =>
      rw [same.reporter, same.liveness, Reporter.afterChange_self]
  | @appended bound same sameHeap answered endsNone =>
      have sameReporter : bound.appendSlot.2.reporter = store.reporter := same.reporter
      have sameCount : bound.appendSlot.2.liveness.reachable = store.liveness.liveCount := by
        rw [← current, ← same.liveness]
        exact Liveness.reachable_trackLive _ _
      rw [reporter_recount, liveCount_recount, sameReporter, sameCount]
  | ended same noHandle pops =>
      rw [reporter_endScopes, same.reporter, same.liveness, current]
  | recounted noHandle endsNone =>
      rw [recount_of_current current, Reporter.afterChange_self]

/-- Only allocations and the end of scopes touch the flags. -/
theorem Granted.liveness_eq
    {store next : Store Body}
    {operation : Operation Body}
    {reply : Reply Body}
    (granted : Granted store operation reply next)
    (consistent : Consistent store)
    (noHandle : ∀ handle, reply ≠ .handle handle)
    (notScope : operation ≠ .popScope)
    (notFrame : operation ≠ .popFrame) :
    next.liveness = store.liveness := by
  cases granted.recordChange with
  | kept same noHandle endsNone =>
      exact same.liveness
  | appended same sameHeap answered endsNone =>
      exact (noHandle _ answered).elim
  | ended same noHandle pops =>
      exact (pops.elim notScope notFrame).elim
  | recounted noHandle endsNone =>
      rw [recount_of_current consistent.countCurrent]

/-- The end of scopes makes no handle live. -/
theorem Granted.liveCount_le
    {store next : Store Body}
    {operation : Operation Body}
    {reply : Reply Body}
    (granted : Granted store operation reply next)
    (ends : operation = .popScope ∨ operation = .popFrame) :
    next.liveness.liveCount ≤ store.liveness.liveCount := by
  rcases ends with rfl | rfl
  · cases granted with
    | popScope active popped =>
        exact liveCount_endScopes_le _ _
  · cases granted with
    | popFrame active =>
        exact liveCount_endScopes_le _ _

/-- The counts that the store has reported to a list, in order. -/
def trace (store : Store Body) : List Nat :=
  store.reporter.captured.toList

namespace Consistent

variable {store : Store Body}

/-- Every request reports the live count exactly if it has changed it. -/
theorem reporter_after
    (consistent : Consistent store)
    (operation : Operation Body) :
    (store.after operation).reporter =
      store.reporter.afterChange store.liveness.liveCount
        (store.after operation).liveness.liveCount := by
  unfold Store.after
  cases outcome : perform operation store with
  | ok reply next =>
      exact (granted_of_perform outcome).reporter_eq consistent
  | error fault next =>
      simp [eq_of_perform_error outcome]

/-- An allocation makes one more handle live. -/
theorem liveCount_of_allocates
    (consistent : Consistent store)
    {operation : Operation Body}
    {handle : Handle}
    (allocates : store.Allocates operation handle) :
    (store.after operation).liveness.liveCount = store.liveness.liveCount + 1 := by
  obtain ⟨name, next, rfl, answered⟩ := allocates
  have allocated : allocate name store = .ok handle next :=
    (requests_allocate name).eq_ok_of_granted (granted_of_perform answered)
  simp only [Store.after, answered]
  exact Liveness.liveCount_of_push (consistent.allocate_appends allocated).2

/-- A refused request, and one of another kind, leaves the flags. -/
theorem liveness_after_of_other
    (consistent : Consistent store)
    {operation : Operation Body}
    (noHandle : ∀ handle, ¬ store.Allocates operation handle)
    (notScope : operation ≠ .popScope)
    (notFrame : operation ≠ .popFrame) :
    (store.after operation).liveness = store.liveness := by
  unfold Store.after
  cases outcome : perform operation store with
  | ok reply next =>
      have granted := granted_of_perform outcome
      refine granted.liveness_eq consistent ?_ notScope notFrame
      rintro handle rfl
      cases granted with
      | allocate =>
          exact noHandle _ ⟨_, _, rfl, outcome⟩
  | error fault next =>
      rw [eq_of_perform_error outcome]

theorem liveCount_after_le_of_ends
    {operation : Operation Body}
    (ends : operation = .popScope ∨ operation = .popFrame) :
    (store.after operation).liveness.liveCount ≤ store.liveness.liveCount := by
  unfold Store.after
  cases outcome : perform operation store with
  | ok reply next =>
      exact (granted_of_perform outcome).liveCount_le ends
  | error fault next =>
      rw [eq_of_perform_error outcome]

/-- No request makes more than one handle live. -/
theorem liveCount_after_le
    (consistent : Consistent store)
    (operation : Operation Body) :
    (store.after operation).liveness.liveCount ≤ store.liveness.liveCount + 1 := by
  by_cases ends : operation = .popScope ∨ operation = .popFrame
  · exact Nat.le_succ_of_le (liveCount_after_le_of_ends ends)
  · by_cases allocates : ∃ handle, store.Allocates operation handle
    · obtain ⟨handle, allocated⟩ := allocates
      exact Nat.le_of_eq (consistent.liveCount_of_allocates allocated)
    · rw [not_or] at ends
      rw [consistent.liveness_after_of_other (not_exists.mp allocates) ends.1 ends.2]
      exact Nat.le_succ _

end Consistent

/-- A list of reported counts that ends with the current one. -/
structure ReportsUpTo (counts : List Nat) (current : Nat) : Prop where
  neighboursDiffer : counts.IsChain (· ≠ ·)
  firstIsOne : ∀ first, counts.head? = some first → first = 1
  lastIsCurrent : counts.getLastD 0 = current

/-- A further count has to differ from the current one, and is at most one greater. -/
theorem ReportsUpTo.append
    {counts : List Nat}
    {current next : Nat}
    (reports : ReportsUpTo counts current)
    (changed : next ≠ current)
    (oneMore : next ≤ current + 1) :
    ReportsUpTo (counts ++ [next]) next := by
  obtain ⟨neighboursDiffer, firstIsOne, lastIsCurrent⟩ := reports
  refine ⟨?_, ?_, by simp⟩
  · refine neighboursDiffer.append (.singleton next) ?_
    intro last isLast first isFirst
    have lastEq : last = current := by
      rw [← lastIsCurrent, List.getLastD_eq_getLast?, Option.mem_def.mp isLast]
      rfl
    have firstEq : first = next := by
      simpa using isFirst.symm
    rw [lastEq, firstEq]
    exact changed.symm
  · intro first isFirst
    cases counts with
    | nil =>
        have zero : current = 0 := lastIsCurrent.symm
        have firstEq : first = next := by
          simpa using isFirst.symm
        omega
    | cons head tail =>
        exact firstIsOne first (by simpa using isFirst)

/-- A store that reports to a list in which the live count is current. -/
def Traced (store : Store Body) : Prop :=
  ∃ counts, store.reporter = .buffer counts ∧
    ReportsUpTo counts.toList store.liveness.liveCount

theorem Traced.after
    {store : Store Body}
    (traced : Traced store)
    (consistent : Consistent store)
    (operation : Operation Body) :
    Traced (store.after operation) := by
  obtain ⟨counts, isBuffer, reports⟩ := traced
  have reported := consistent.reporter_after operation
  have oneMore := consistent.liveCount_after_le operation
  rw [isBuffer] at reported
  by_cases changed : (store.after operation).liveness.liveCount = store.liveness.liveCount
  · refine ⟨counts, ?_, ?_⟩
    · rw [reported, changed, Reporter.afterChange_self]
    · rw [changed]
      exact reports
  · refine ⟨counts.push (store.after operation).liveness.liveCount, ?_, ?_⟩
    · rw [reported, Reporter.afterChange, if_neg changed]
      rfl
    · rw [Array.toList_push]
      exact reports.append changed oneMore

/-- Every store that a history of requests brings about has a current trace. -/
theorem Traced.afterAll
    {store : Store Body}
    (traced : Traced store)
    (consistent : Consistent store)
    (operations : List (Operation Body)) :
    Traced (store.afterAll operations) := by
  have kept (store : Store Body) (operation : Operation Body)
      (before : Consistent store ∧ Traced store) :
      Consistent (store.after operation) ∧ Traced (store.after operation) :=
    ⟨before.1.after operation, before.2.after before.1 operation⟩
  exact (afterAll_of_after kept operations store ⟨consistent, traced⟩).2

/-- A request adds the live count to the trace exactly if it has changed it. -/
theorem Traced.trace_after
    {store : Store Body}
    (traced : Traced store)
    (consistent : Consistent store)
    (operation : Operation Body) :
    (store.after operation).trace =
      store.trace ++
        if (store.after operation).liveness.liveCount = store.liveness.liveCount then
          []
        else
          [(store.after operation).liveness.liveCount] := by
  obtain ⟨counts, isBuffer, _⟩ := traced
  rw [trace, trace, consistent.reporter_after operation, isBuffer, Reporter.afterChange]
  split <;> simp [Reporter.notify, Reporter.captured]

/--
After every history of requests to a new store that reports to an empty list,
a further request adds the number of live handles to the list if that number
has changed, and nothing otherwise.

An allocation adds the previous number plus one; the end of a scope or a frame
adds nothing or one smaller number; every other request adds nothing. So no
two neighbours in the list are equal, the list starts with one if it is not
empty, and it ends with the current count, which is zero if it is empty.
-/
theorem trace_law
    (settings : Settings)
    (input : InputTape)
    (operations : List (Operation Body)) :
    let fresh := (withReporter settings Reporter.emptyBuffer : Store Body).withInput input
    let reached := fresh.afterAll operations
    (∀ operation,
      let next := reached.after operation
      (next.trace =
        reached.trace ++
          if next.liveness.liveCount = reached.liveness.liveCount then
            []
          else
            [next.liveness.liveCount]) ∧
      ((∃ handle, reached.Allocates operation handle) →
        next.trace = reached.trace ++ [reached.liveness.liveCount + 1]) ∧
      (operation = .popScope ∨ operation = .popFrame →
        next.trace = reached.trace ∨
          ∃ count < reached.liveness.liveCount, next.trace = reached.trace ++ [count]) ∧
      ((∀ handle, ¬ reached.Allocates operation handle) →
        operation ≠ .popScope → operation ≠ .popFrame → next.trace = reached.trace)) ∧
    reached.trace.IsChain (· ≠ ·) ∧
    (∀ first, reached.trace.head? = some first → first = 1) ∧
    reached.trace.getLastD 0 = reached.liveness.reachable := by
  intro fresh reached
  have consistentFresh : Consistent fresh :=
    consistent_fresh settings Reporter.emptyBuffer input
  have tracedFresh : Traced fresh :=
    ⟨#[], rfl, .nil, by simp, rfl⟩
  have consistent : Consistent reached :=
    consistentFresh.afterAll operations
  have traced : Traced reached :=
    tracedFresh.afterAll consistentFresh operations
  have ⟨counts, isBuffer, reports⟩ := traced
  have traceEq : reached.trace = counts.toList := by
    rw [trace, isBuffer]
    rfl
  refine ⟨?_, ?_, ?_, ?_⟩
  · intro operation next
    have added : next.trace = reached.trace ++ _ := traced.trace_after consistent operation
    refine ⟨added, ?_, ?_, ?_⟩
    · rintro ⟨handle, allocates⟩
      have oneMore : next.liveness.liveCount = reached.liveness.liveCount + 1 :=
        consistent.liveCount_of_allocates allocates
      rw [added]
      simp [next, oneMore]
    · intro ends
      have fewer : next.liveness.liveCount ≤ reached.liveness.liveCount :=
        Consistent.liveCount_after_le_of_ends ends
      by_cases changed : next.liveness.liveCount = reached.liveness.liveCount
      · exact Or.inl (by rw [added]; simp [next, changed])
      · exact Or.inr ⟨next.liveness.liveCount, Nat.lt_of_le_of_ne fewer changed, by
          rw [added]
          simp [next, changed]⟩
    · intro noHandle notScope notFrame
      have sameFlags : next.liveness = reached.liveness :=
        consistent.liveness_after_of_other noHandle notScope notFrame
      rw [added]
      simp [next, sameFlags]
  · rw [traceEq]
    exact reports.neighboursDiffer
  · rw [traceEq]
    exact reports.firstIsOne
  · rw [traceEq, consistent.countCurrent]
    exact reports.lastIsCurrent

end Store

end RefScript
