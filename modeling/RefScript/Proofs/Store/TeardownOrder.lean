import Mathlib.Data.List.Perm.Basic
import RefScript.Proofs.Store.Teardown

namespace RefScript

/-!
# The order in which references are released

Where scopes end, their references are released one after the other. In which
order that is makes no difference but to the order in which stray references are
noted: the flags that are cleared are the same, and so is all that is reported.
-/

namespace Liveness

/-- The flags after a raw value is released, be it stray or not. -/
def release (liveness : Liveness) (raw : Word) : Liveness :=
  (liveness.markDead? raw).getD liveness

theorem release_eq (liveness : Liveness) (raw : Word) :
    liveness.release raw =
      match Word.toHandle? raw with
      | none => liveness
      | some handle =>
          { liveness with flags := liveness.flags.setIfInBounds handle false } := by
  unfold release markDead?
  cases Word.toHandle? raw with
  | none =>
      rfl
  | some handle =>
      by_cases tracked : handle < liveness.size
      · simp only [tracked, ↓reduceIte, Option.getD_some]
      · simp only [tracked, ↓reduceIte, Option.getD_none]
        rw [Array.setIfInBounds_eq_of_size_le (Nat.le_of_not_lt tracked)]

/-- Two raw values can be released in either order. -/
theorem release_right_comm (liveness : Liveness) (first second : Word) :
    (liveness.release first).release second = (liveness.release second).release first := by
  simp only [release_eq]
  cases Word.toHandle? first with
  | none => rfl
  | some handle =>
      cases Word.toHandle? second with
      | none => rfl
      | some other =>
          simp only [mk.injEq, and_true]
          by_cases sameHandle : handle = other
          · rw [sameHandle]
          · exact Array.setIfInBounds_comm _ _ sameHandle

end Liveness

namespace Store

variable {Body : Type}

/-- The stores agree, and so do the stray references but for their order. -/
structure SameButStrayOrder (store other : Store Body) : Prop where
  strays : other.strays.toList.Perm store.strays.toList
  others : other = { store with strays := other.strays }

theorem recount_withStrays (store : Store Body) (strays : Array StrayRef) :
    { store with strays }.recount = { store.recount with strays } := by
  unfold recount notify
  dsimp only
  split <;> rfl

theorem foldl_retire_eq_release (raws : List Word) (store : Store Body) :
    raws.foldl retire store =
      { store with
        liveness := raws.foldl Liveness.release store.liveness
        strays := (raws.foldl retire store).strays } := by
  induction raws generalizing store with
  | nil =>
      rfl
  | cons raw rest inductionHypothesis =>
      rw [List.foldl_cons, inductionHypothesis, List.foldl_cons]
      unfold retire Liveness.release
      cases store.liveness.markDead? raw <;> rfl

namespace SameButStrayOrder

theorem refl (store : Store Body) : SameButStrayOrder store store :=
  ⟨.refl _, rfl⟩

theorem trans
    {store between other : Store Body}
    (first : SameButStrayOrder store between)
    (second : SameButStrayOrder between other) :
    SameButStrayOrder store other where
  strays := second.strays.trans first.strays
  others := by rw [second.others, first.others]

/-- What is released in another order, in stores that agree, leaves stores that agree. -/
theorem released
    {store other : Store Body} (same : SameButStrayOrder store other)
    {raws raws' : List Word} (reordered : raws'.Perm raws) :
    SameButStrayOrder (raws.foldl retire store).recount (raws'.foldl retire other).recount := by
  have sameLiveness : other.liveness = store.liveness := by rw [same.others]
  have sameFlags :
      raws'.foldl Liveness.release store.liveness = raws.foldl Liveness.release store.liveness :=
    reordered.foldl_eq' (fun first _ second _ liveness =>
      liveness.release_right_comm first second) _
  refine ⟨?_, ?_⟩
  · rw [strays_recount, strays_recount, strays_foldl_retire, strays_foldl_retire, sameLiveness]
    exact same.strays.append ((reordered.filter _).map _)
  · rw [strays_recount, ← recount_withStrays]
    congr 1
    rw [foldl_retire_eq_release raws', foldl_retire_eq_release raws, sameLiveness, sameFlags,
      same.others]

end SameButStrayOrder

/-- Scopes may end with their references released in any order. -/
theorem sameButStrayOrder_endScopes
    (store : Store Body) (scopes : List Scope) {raws : List Word}
    (reordered : raws.Perm (scopes.flatMap Scope.boundRefs)) :
    SameButStrayOrder (store.endScopes scopes) (raws.foldl retire store).recount := by
  have sameRefs :
      (scopes.reverse.flatMap Scope.boundRefs).Perm (scopes.flatMap Scope.boundRefs) :=
    scopes.reverse_perm.flatMap_right _
  rw [endScopes_eq_foldl_retire]
  exact (SameButStrayOrder.refl store).released (reordered.trans sameRefs.symm)

/-- What a pop leaves that releases the references in some order. -/
inductive PopsInSomeOrder {Body : Type} (store : Store Body) :
    Operation Body → Store Body → Prop where
  | scope
      {frame outer : Frame} {callers : List Frame} {scope : Scope} {raws : List Word}
      (active : store.stack.frames = frame :: callers)
      (popped : frame.popScope? = some (scope, outer))
      (reordered : raws.Perm scope.boundRefs) :
      PopsInSomeOrder store .popScope
        (raws.foldl retire (store.withFrames (outer :: callers))).recount
  | frame
      {frame : Frame} {callers : List Frame} {raws : List Word}
      (active : store.stack.frames = frame :: callers)
      (reordered : raws.Perm (frame.scopes.flatMap Scope.boundRefs)) :
      PopsInSomeOrder store .popFrame (raws.foldl retire (store.withFrames callers)).recount

variable {store next : Store Body} {operation : Operation Body} {reply : Reply Body}

/-- The pop leaves the same as the one that is granted, but for the order of stray references. -/
theorem PopsInSomeOrder.granted (popped : PopsInSomeOrder store operation next) :
    ∃ inOrder, Granted store operation .done inOrder ∧ SameButStrayOrder inOrder next := by
  cases popped with
  | @scope frame outer callers scope raws active popped reordered =>
      refine ⟨_, .popScope active popped, ?_⟩
      apply sameButStrayOrder_endScopes
      rwa [List.flatMap_singleton]
  | frame active reordered =>
      exact ⟨_, .popFrame active, sameButStrayOrder_endScopes _ _ reordered⟩

/-- The pop that is granted releases the references in some order. -/
theorem Granted.popsInSomeOrder
    (granted : Granted store operation reply next)
    (ends : operation = .popScope ∨ operation = .popFrame) :
    PopsInSomeOrder store operation next := by
  rcases ends with rfl | rfl
  · cases granted with
    | popScope active popped => exact .scope active popped (.refl _)
  · cases granted with
    | @popFrame frame callers active =>
        rw [endScopes_eq_foldl_retire]
        exact .frame active (frame.scopes.reverse_perm.flatMap_right _)

end Store

end RefScript
