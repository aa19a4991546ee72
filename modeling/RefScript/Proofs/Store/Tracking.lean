import Mathlib.Data.List.Induction
import Mathlib.Order.Bounds.Defs
import RefScript.Proofs.Store.Notifications
import RefScript.Proofs.Store.Ownership

namespace RefScript

/-!
# Tracked handles as a set

The table of flags stands for a finite set of handles, whatever handles it is
asked to track and in whichever order. Tracking a handle puts it into the set,
a raw value that spells it takes it out, and a recount answers with the size of
the set if it is another than the size answered last. The length of the table
shows only in which raw values are stray.
-/

namespace Liveness

/-- A request to the table of flags. -/
inductive Request where
  | trackLive (handle : Handle)
  | markDead (raw : Word)
  | recount
  deriving DecidableEq, Repr

/-- What is answered to a request to the table of flags. -/
inductive Answer where
  | done
  /-- The raw value designates no tracked handle, so that no flag is cleared. -/
  | stray (ref : StrayRef)
  /-- The number of live handles, if it is not the one answered last. -/
  | recounted (count : Option Nat)
  deriving DecidableEq, Repr

/-- The number of live handles that an answer gives. -/
def Answer.count? : Answer → Option Nat
  | .recounted count => count
  | .done | .stray _ => none

/-- Perform a request. -/
def perform (liveness : Liveness) : Request → Answer × Liveness
  | .trackLive handle => (.done, liveness.trackLive handle)
  | .markDead raw =>
      match liveness.markDead? raw with
      | some cleared => (.done, cleared)
      | none => (.stray ⟨raw, liveness.size⟩, liveness)
  | .recount => (.recounted liveness.recount.1, liveness.recount.2)

/-- The table after a history of requests. -/
def afterAll (liveness : Liveness) (requests : List Request) : Liveness :=
  requests.foldl (fun reached request => (reached.perform request).2) liveness

/-- The answers to a history of requests, in order. -/
def answers (liveness : Liveness) : List Request → List Answer
  | [] => []
  | request :: rest =>
      (liveness.perform request).1 :: (liveness.perform request).2.answers rest

/-- The number of live handles that was answered last; zero if none was. -/
def lastCount (answers : List Answer) : Nat :=
  (answers.filterMap Answer.count?).getLastD 0

/-- The request clears the flag of the handle, if it is raised. -/
def Request.Clears (request : Request) (handle : Handle) : Prop :=
  ∃ raw, request = .markDead raw ∧ raw.toInt = handle

/-- The handle is tracked at some time, and not cleared after the last time that it is. -/
def TrackedAndKept (requests : List Request) (handle : Handle) : Prop :=
  ∃ earlier later,
    requests = earlier ++ .trackLive handle :: later ∧
      .trackLive handle ∉ later ∧
      ∀ raw, .markDead raw ∈ later → raw.toInt ≠ (handle : Int)

variable {liveness : Liveness}

theorem afterAll_concat (liveness : Liveness) (requests : List Request) (request : Request) :
    liveness.afterAll (requests ++ [request]) =
      ((liveness.afterAll requests).perform request).2 := by
  simp [afterAll]

theorem answers_concat (liveness : Liveness) (requests : List Request) (request : Request) :
    liveness.answers (requests ++ [request]) =
      liveness.answers requests ++ [((liveness.afterAll requests).perform request).1] := by
  induction requests generalizing liveness with
  | nil =>
      rfl
  | cons first rest inductionHypothesis =>
      simp only [List.cons_append, answers, inductionHypothesis]
      rfl

/-! ## One request -/

/-- The table reaches up to every handle that it has been asked to track. -/
theorem size_trackLive (liveness : Liveness) (handle : Handle) :
    (liveness.trackLive handle).size = max liveness.size (handle + 1) := by
  unfold trackLive
  split
  case isTrue isNext =>
    subst isNext
    simp [size]
  case isFalse notNext =>
    split
    case isTrue inRange =>
      rw [Nat.max_eq_left inRange]
      simp [size]
    case isFalse beyond =>
      have skipped : liveness.flags.size + (handle - liveness.flags.size) = handle :=
        Nat.add_sub_cancel' (Nat.not_lt.mp beyond)
      rw [Nat.max_eq_right (Nat.le_succ_of_le (Nat.not_lt.mp beyond))]
      simp [size, ← Nat.add_assoc, skipped]

/-- Flags that are down may be appended without a change of the live handles. -/
private theorem isLive_append_replicate (liveness : Liveness) (gap : Nat) (handle : Handle) :
    ({ liveness with flags := liveness.flags ++ Array.replicate gap false } : Liveness).isLive
        handle =
      liveness.isLive handle := by
  simp only [isLive_eq, Array.getElem?_append, Array.getElem?_replicate]
  split
  case isTrue =>
    rfl
  case isFalse outside =>
    rw [Array.getElem?_eq_none (Nat.not_lt.mp outside)]
    split <;> rfl

/-- Tracking a handle raises its flag and leaves the others, be there a gap before it or not. -/
theorem isLive_trackLive (liveness : Liveness) (tracked handle : Handle) :
    (liveness.trackLive tracked).isLive handle ↔ tracked = handle ∨ liveness.isLive handle := by
  unfold trackLive
  split
  case isTrue isNext =>
    subst isNext
    exact isLive_of_push rfl handle
  case isFalse notNext =>
    split
    case isTrue inRange =>
      have inFlags : tracked < liveness.flags.size := inRange
      simp only [isLive_eq, Array.getElem?_setIfInBounds]
      by_cases sameHandle : tracked = handle
      · subst sameHandle
        simp [inFlags]
      · simp [sameHandle]
    case isFalse beyond =>
      -- Once the gap is filled, the handle is the next one in order.
      let filled : Liveness :=
        { liveness with flags := liveness.flags ++ Array.replicate (tracked - liveness.size) false }
      have filledSize : filled.size = tracked := by
        have skipped : liveness.size + (tracked - liveness.size) = tracked :=
          Nat.add_sub_cancel' (Nat.not_lt.mp beyond)
        simpa [filled, size] using skipped
      have appended : (Liveness.mk (filled.flags.push true) liveness.reachable).flags =
          filled.flags.push true := rfl
      rw [isLive_of_push appended, filledSize, isLive_append_replicate]

theorem perform_markDead_of_some
    {raw : Word} {cleared : Liveness}
    (tracked : liveness.markDead? raw = some cleared) :
    liveness.perform (.markDead raw) = (.done, cleared) := by
  simp only [perform, tracked]

theorem perform_markDead_of_none
    {raw : Word}
    (stray : liveness.markDead? raw = none) :
    liveness.perform (.markDead raw) = (.stray ⟨raw, liveness.size⟩, liveness) := by
  simp only [perform, stray]

/-- A raw value is answered as stray if it is negative, or at least the length of the table. -/
theorem perform_markDead_fst (liveness : Liveness) (raw : Word) :
    (liveness.perform (.markDead raw)).1 =
      if raw.toInt < 0 ∨ (liveness.size : Int) ≤ raw.toInt then .stray ⟨raw, liveness.size⟩
      else .done := by
  cases cleared : liveness.markDead? raw with
  | some next =>
      have notStray : ¬ (raw.toInt < 0 ∨ (liveness.size : Int) ≤ raw.toInt) := by
        rw [← markDead?_eq_none_iff, cleared]
        exact Option.some_ne_none next
      rw [perform_markDead_of_some cleared, if_neg notStray]
  | none =>
      rw [perform_markDead_of_none cleared, if_pos (markDead?_eq_none_iff.mp cleared)]

/-- A raw value clears a flag or changes nothing. -/
theorem perform_markDead_snd (liveness : Liveness) (raw : Word) :
    (liveness.perform (.markDead raw)).2 = (liveness.markDead? raw).getD liveness := by
  cases cleared : liveness.markDead? raw with
  | some next => rw [perform_markDead_of_some cleared, Option.getD_some]
  | none => rw [perform_markDead_of_none cleared, Option.getD_none]

/-- A recount is answered with the number of live handles if that is not the reported count. -/
theorem perform_recount_fst (liveness : Liveness) :
    (liveness.perform .recount).1 =
      .recounted
        (if liveness.liveHandles.card = liveness.reachable then none
          else some liveness.liveHandles.card) := by
  rw [card_liveHandles]
  simp only [perform, recount]
  split <;> rfl

/-- After a request, a handle is live if the request tracks it, or if it was live and stays so. -/
theorem isLive_perform (liveness : Liveness) (request : Request) (handle : Handle) :
    (liveness.perform request).2.isLive handle ↔
      request = .trackLive handle ∨ liveness.isLive handle ∧ ¬ request.Clears handle := by
  cases request with
  | trackLive tracked =>
      simp [perform, isLive_trackLive, Request.Clears]
  | markDead raw =>
      have clears : (Request.markDead raw).Clears handle ↔ raw.toInt = handle := by
        simp [Request.Clears]
      simp only [clears, reduceCtorEq, false_or]
      rw [perform_markDead_snd]
      exact isLive_getD_markDead? liveness raw handle
  | recount =>
      simp [perform, recount_snd, isLive_eq, Request.Clears]

/-- After a request, the table reaches up to where it did before, and to the handle it tracks. -/
theorem lt_size_perform (liveness : Liveness) (request : Request) (bound : Nat) :
    bound < (liveness.perform request).2.size ↔
      bound < liveness.size ∨ ∃ handle, request = .trackLive handle ∧ bound ≤ handle := by
  cases request with
  | trackLive handle =>
      simp only [perform, size_trackLive, lt_max_iff, Nat.lt_succ_iff, Request.trackLive.injEq,
        exists_eq_left']
  | markDead raw =>
      cases cleared : liveness.markDead? raw with
      | some next =>
          simp [perform_markDead_of_some cleared, (markDead?_eq_some cleared).1]
      | none =>
          simp [perform_markDead_of_none cleared]
  | recount =>
      simp [perform, recount_snd, size]

/-- A request leaves the reported count, unless it answers with another. -/
theorem reachable_perform (liveness : Liveness) (request : Request) :
    (liveness.perform request).2.reachable =
      (liveness.perform request).1.count?.getD liveness.reachable := by
  cases request with
  | trackLive handle =>
      exact liveness.reachable_trackLive handle
  | markDead raw =>
      cases cleared : liveness.markDead? raw with
      | some next =>
          rw [perform_markDead_of_some cleared]
          exact (markDead?_eq_some cleared).2
      | none =>
          rw [perform_markDead_of_none cleared]
          rfl
  | recount =>
      simp only [perform, Answer.count?, recount]
      split <;> rfl

/-! ## A history of requests -/

/-- What a further request does to the handles that are tracked and not cleared since. -/
theorem trackedAndKept_concat_iff {requests : List Request} {request : Request} {handle : Handle} :
    TrackedAndKept (requests ++ [request]) handle ↔
      request = .trackLive handle ∨ TrackedAndKept requests handle ∧ ¬ request.Clears handle := by
  constructor
  · rintro ⟨earlier, later, split, notLater, kept⟩
    rcases List.eq_nil_or_concat' later with rfl | ⟨between, final, rfl⟩
    · obtain ⟨_, same⟩ := List.append_inj' split rfl
      exact Or.inl (List.singleton_inj.mp same)
    · rw [← List.cons_append, ← List.append_assoc] at split
      obtain ⟨rfl, same⟩ := List.append_inj' split rfl
      cases List.singleton_inj.mp same
      refine Or.inr ⟨⟨earlier, between, rfl, ?_, ?_⟩, ?_⟩
      · exact fun member => notLater (List.mem_append_left _ member)
      · exact fun raw member => kept raw (List.mem_append_left _ member)
      · rintro ⟨raw, rfl, spells⟩
        exact kept raw (by simp) spells
  · intro tracked
    by_cases isLast : request = .trackLive handle
    · subst isLast
      exact ⟨requests, [], rfl, by simp, by simp⟩
    · obtain ⟨⟨earlier, later, rfl, notLater, kept⟩, notCleared⟩ := tracked.resolve_left isLast
      refine ⟨earlier, later ++ [request], by simp, ?_, ?_⟩
      · simp [notLater, Ne.symm isLast]
      · intro raw member
        rcases List.mem_append.mp member with isLater | isFinal
        · exact kept raw isLater
        · exact fun same => notCleared ⟨raw, (List.mem_singleton.mp isFinal).symm, same⟩

/-- The live handles are those that are tracked and not cleared since. -/
theorem isLive_afterAll_empty (requests : List Request) (handle : Handle) :
    (empty.afterAll requests).isLive handle ↔ TrackedAndKept requests handle := by
  induction requests using List.reverseRecOn with
  | nil =>
      simp [afterAll, empty, isLive_eq, TrackedAndKept]
  | append_singleton requests request inductionHypothesis =>
      rw [afterAll_concat, isLive_perform, inductionHypothesis, trackedAndKept_concat_iff]

/-- The table reaches up to the handles that it has been asked to track, and no further. -/
theorem lt_size_afterAll_empty (requests : List Request) (bound : Nat) :
    bound < (empty.afterAll requests).size ↔
      ∃ handle, .trackLive handle ∈ requests ∧ bound ≤ handle := by
  induction requests using List.reverseRecOn with
  | nil =>
      simp [afterAll, empty, size]
  | append_singleton requests request inductionHypothesis =>
      rw [afterAll_concat, lt_size_perform, inductionHypothesis]
      simp only [List.mem_append, List.mem_singleton, or_and_right, exists_or, eq_comm]

/-- The table reaches just beyond the greatest handle that it has been asked to track. -/
theorem size_afterAll_empty (requests : List Request) :
    (∀ handle, .trackLive handle ∉ requests) ∧ (empty.afterAll requests).size = 0 ∨
      ∃ greatest,
        IsGreatest {handle | .trackLive handle ∈ requests} greatest ∧
          (empty.afterAll requests).size = greatest + 1 := by
  have reaches {handle : Handle} (tracked : .trackLive handle ∈ requests) :
      handle < (empty.afterAll requests).size :=
    (lt_size_afterAll_empty requests handle).mpr ⟨handle, tracked, Nat.le_refl handle⟩
  cases length : (empty.afterAll requests).size with
  | zero =>
      refine Or.inl ⟨?_, rfl⟩
      intro handle tracked
      have inTable := reaches tracked
      simp [length] at inTable
  | succ greatest =>
      have bounds : greatest ∈ upperBounds {handle | .trackLive handle ∈ requests} := by
        intro handle tracked
        have inTable := reaches tracked
        rw [length] at inTable
        exact Nat.le_of_lt_succ inTable
      obtain ⟨handle, tracked, above⟩ :=
        (lt_size_afterAll_empty requests greatest).mp (by simp [length])
      have same : handle = greatest := Nat.le_antisymm (bounds tracked) above
      exact Or.inr ⟨greatest, ⟨same ▸ tracked, bounds⟩, rfl⟩

/-- A further answer gives the last count, or leaves it. -/
theorem lastCount_concat (answers : List Answer) (answer : Answer) :
    lastCount (answers ++ [answer]) = answer.count?.getD (lastCount answers) := by
  unfold lastCount
  cases given : answer.count? with
  | none => simp [given]
  | some count => simp [given]

/-- The reported count is the one that was answered last. -/
theorem reachable_afterAll_empty (requests : List Request) :
    (empty.afterAll requests).reachable = lastCount (empty.answers requests) := by
  induction requests using List.reverseRecOn with
  | nil =>
      rfl
  | append_singleton requests request inductionHypothesis =>
      rw [afterAll_concat, answers_concat, lastCount_concat, reachable_perform,
        inductionHypothesis]

/--
After every history of requests to an empty table, whatever handles it has been
asked to track and in whichever order: the live handles are those that some
request has tracked and no later one has cleared since the last of these. The
table reaches just beyond the greatest handle tracked, and is empty if none was.
A raw value is stray if and only if it is negative or at least the length of the
table. A recount answers with the number of live handles if it is not the number
answered last, which is zero at first and is the count reported.
-/
theorem flags_stand_for_finite_set (requests : List Request) :
    let reached := empty.afterAll requests
    (∀ handle, reached.isLive handle ↔ TrackedAndKept requests handle) ∧
    ((∀ handle, .trackLive handle ∉ requests) ∧ reached.size = 0 ∨
      ∃ greatest,
        IsGreatest {handle | .trackLive handle ∈ requests} greatest ∧
          reached.size = greatest + 1) ∧
    (∀ raw,
      (reached.perform (.markDead raw)).1 =
        if raw.toInt < 0 ∨ (reached.size : Int) ≤ raw.toInt then .stray ⟨raw, reached.size⟩
        else .done) ∧
    (∃ live : Finset Handle,
      (∀ handle, handle ∈ live ↔ reached.isLive handle) ∧
        (reached.perform .recount).1 =
          .recounted
            (if live.card = lastCount (empty.answers requests) then none else some live.card)) ∧
    reached.reachable = lastCount (empty.answers requests) := by
  intro reached
  have reported : reached.reachable = lastCount (empty.answers requests) :=
    reachable_afterAll_empty requests
  refine ⟨isLive_afterAll_empty requests, size_afterAll_empty requests,
    reached.perform_markDead_fst, ⟨reached.liveHandles, fun _ => mem_liveHandles, ?_⟩, reported⟩
  rw [← reported]
  exact reached.perform_recount_fst

/-- A handle beyond a gap is tracked, strays are ignored, and a second recount has no news. -/
example :
    empty.answers
        [.trackLive 2, .recount, .markDead 3, .markDead (-1), .markDead 1, .markDead 2, .recount,
          .recount] =
      [.done, .recounted (some 1), .stray ⟨3, 3⟩, .stray ⟨-1, 3⟩, .done, .done,
        .recounted (some 0), .recounted none] := by
  decide

end Liveness

end RefScript
