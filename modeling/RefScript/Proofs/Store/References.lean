import Mathlib.Algebra.Order.Group.Multiset
import RefScript.Proofs.Store.Lifetime

namespace RefScript

/-!
# The references of a store

The raw values of the bound references, in the globals and in all scopes of all
frames, form a multiset: a value occurs in it as often as there are references
that hold it. For every granted request, what is in this multiset afterwards
and what the request takes out of it are together what was in it before and
what the request puts into it. Allocations, copies to references and calls put
values in; the end of scopes, and a new value or a new declaration for a bound
reference, take values out. Nothing else moves.
-/

namespace Scope

theorem nodup_toList (scope : Scope) : scope.toList.Nodup := by
  refine Std.ExtTreeMap.distinct_keys_toList.imp ?_
  rintro first second distinct rfl
  exact distinct Std.ReflCmp.compare_self

/-- The bindings under other names than the given one. -/
private def others (scope : Scope) (name : String) : List (String × Cell) :=
  scope.toList.filter fun binding => binding.1 ≠ name

/-- The listing of a scope is the binding of a name, if there is one, and the others. -/
private theorem toList_perm (scope : Scope) (name : String) :
    scope.toList.Perm
      (((scope.find? name).map fun cell => (name, cell)).toList ++ scope.others name) := by
  have named :
      (scope.toList.filter fun binding => binding.1 = name).Perm
        ((scope.find? name).map fun cell => (name, cell)).toList := by
    apply (List.perm_ext_iff_of_nodup (scope.nodup_toList.filter _) ?_).mpr
    · rintro ⟨other, cell⟩
      simp only [List.mem_filter, mem_toList, decide_eq_true_eq, Option.mem_toList,
        Option.map_eq_some_iff, Prod.mk.injEq]
      grind
    · cases scope.find? name <;> simp
  have split := List.filter_append_perm (fun binding => binding.1 = name) scope.toList
  simpa [others] using split.symm.trans (named.append_right _)

/-- A binding of one name leaves the others. -/
private theorem others_bind_perm (scope : Scope) (name : String) (cell : Cell) :
    ((scope.bind name cell).others name).Perm (scope.others name) := by
  apply (List.perm_ext_iff_of_nodup ((scope.bind name cell).nodup_toList.filter _)
    (scope.nodup_toList.filter _)).mpr
  rintro ⟨other, found⟩
  simp only [List.mem_filter, mem_toList, find?_bind]
  by_cases sameName : other = name
  · simp [sameName]
  · simp [sameName, Ne.symm sameName]

/-- The bound references of a scope are the one of a name, if there is one, and the others. -/
private theorem boundRefs_perm (scope : Scope) (name : String) :
    scope.boundRefs.Perm
      (((scope.find? name).bind Cell.boundRef?).toList ++
        (scope.others name).filterMap fun binding => binding.2.boundRef?) := by
  have split := (scope.toList_perm name).filterMap fun binding => binding.2.boundRef?
  rw [List.filterMap_append] at split
  refine split.trans (List.Perm.append_right _ (.of_eq ?_))
  cases scope.find? name with
  | none => rfl
  | some cell => cases bound : cell.boundRef? <;> simp [bound]

/--
The raw values of the bound references in scopes, each as often as there are
references that hold it.
-/
def boundIn (scopes : List Scope) : Multiset Word :=
  scopes.flatMap boundRefs

@[simp] theorem boundIn_nil : boundIn [] = 0 :=
  rfl

@[simp] theorem boundIn_cons (scope : Scope) (scopes : List Scope) :
    boundIn (scope :: scopes) = scope.boundRefs + boundIn scopes := by
  simp [boundIn, Multiset.coe_add]

@[simp] theorem boundIn_append (inner outer : List Scope) :
    boundIn (inner ++ outer) = boundIn inner + boundIn outer := by
  simp [boundIn, Multiset.coe_add]

/-- A value is among the bound references if a reference in one of the scopes holds it. -/
theorem mem_boundIn {scopes : List Scope} {raw : Word} :
    raw ∈ boundIn scopes ↔
      ∃ scope ∈ scopes, ∃ name, scope.find? name = some ⟨.ref, some raw⟩ := by
  simp [boundIn, mem_boundRefs]

/-- A scope that is empty binds no reference. -/
@[simp] theorem boundRefs_empty : empty.boundRefs = [] := by
  rw [List.eq_nil_iff_forall_not_mem]
  simp [mem_boundRefs]

/-- A binding takes out the value of the cell that it replaces, and puts in that of the new one. -/
theorem boundRefs_bind (scope : Scope) (name : String) (cell : Cell) :
    ((scope.bind name cell).boundRefs : Multiset Word) +
        ((scope.find? name).bind Cell.boundRef?).toList =
      scope.boundRefs + cell.boundRef?.toList := by
  have here : (scope.bind name cell).find? name = some cell := by
    simp [find?_bind]
  have others := (scope.others_bind_perm name cell).filterMap fun binding => binding.2.boundRef?
  rw [Multiset.coe_eq_coe.mpr ((scope.bind name cell).boundRefs_perm name),
    Multiset.coe_eq_coe.mpr (scope.boundRefs_perm name), here]
  simp only [← Multiset.coe_add, Multiset.coe_eq_coe.mpr others, Option.bind_some]
  rw [add_comm, ← add_assoc, add_right_comm]

/-- A declaration takes out the value of the reference that it replaces, and puts in none. -/
theorem boundRefs_declare (scope : Scope) (name : String) (kind : CellKind) :
    ((scope.declare name kind).boundRefs : Multiset Word) +
        ((scope.find? name).bind Cell.boundRef?).toList =
      scope.boundRefs := by
  have replaced := scope.boundRefs_bind name (Cell.fresh kind)
  have bindsNone : (Cell.fresh kind).boundRef? = none := by
    cases kind <;> rfl
  rw [bindsNone, Option.toList_none, Multiset.coe_nil, add_zero] at replaced
  exact replaced

end Scope

/-- A declaration in a frame replaces a variable of its innermost scope. -/
theorem Frame.boundIn_declare (frame : Frame) (name : String) (kind : CellKind) :
    Scope.boundIn (frame.declare name kind).scopes +
        (((frame.scopes.headD Scope.empty).find? name).bind Cell.boundRef?).toList =
      Scope.boundIn frame.scopes := by
  obtain ⟨function, scopes⟩ := frame
  cases scopes with
  | nil =>
      simpa [declare] using Scope.empty.boundRefs_declare name kind
  | cons innermost outer =>
      simp only [declare, List.headD_cons, Scope.boundIn_cons]
      rw [add_right_comm, innermost.boundRefs_declare]

namespace Store

variable {Body : Type}

/-- All scopes of a store, in the order of the frames, the current one first; the globals last. -/
def scopes (store : Store Body) : List Scope :=
  store.stack.frames.flatMap Frame.scopes ++ [store.globals]

/-- The raw values of all bound references. -/
def boundRefs (store : Store Body) : Multiset Word :=
  Scope.boundIn store.scopes

/-- The scope that a declaration goes to. -/
def declarationScope (store : Store Body) : Scope :=
  match store.stack.current? with
  | some frame => frame.scopes.headD Scope.empty
  | none => store.globals

/--
The variable that a request declares again, binds to a new slot or copies to. A
write is not among these, because it leaves the raw value of a reference.
-/
def targeted? (store : Store Body) : Operation Body → Option Cell
  | .declare name _ => store.declarationScope.find? name
  | .allocate name => store.find? name
  | .copy target _ => store.find? target
  | _ => none

/-- The raw value that a bound reference loses to a new value or a new declaration. -/
def overwritten? (store : Store Body) (operation : Operation Body) : Option Word :=
  (store.targeted? operation).bind Cell.boundRef?

/-- The raw values that references lose by a request, when it is granted. -/
def lostBy (store : Store Body) (operation : Operation Body) : Multiset Word :=
  Scope.boundIn (store.endedBy operation) + (store.overwritten? operation).toList

/-- The raw values that references gain by a request, when it is granted. -/
def gainedBy (store : Store Body) : Operation Body → Multiset Word
  | .allocate _ => (Word.ofHandle? store.heap.size).toList
  | .copy target source =>
      match store.find? target, store.find? source with
      | some cell, some origin => (cell.assign origin.value).boundRef?.toList
      | _, _ => 0
  | .pushCallFrame _ formals actuals =>
      match store.bindActuals formals actuals Scope.empty with
      | .ok parameters => parameters.boundRefs
      | .error _ => 0
  | _ => 0

@[simp] theorem scopes_withFrames (store : Store Body) (frames : List Frame) :
    (store.withFrames frames).scopes = frames.flatMap Frame.scopes ++ [store.globals] :=
  rfl

/-- The bound references are those of the frames and those of the globals. -/
theorem boundRefs_of_frames
    {store : Store Body}
    {frames : List Frame}
    (active : store.stack.frames = frames) :
    store.boundRefs =
      Scope.boundIn (frames.flatMap Frame.scopes) + store.globals.boundRefs := by
  simp [boundRefs, scopes, active]

theorem boundRefs_withFrames (store : Store Body) (frames : List Frame) :
    (store.withFrames frames).boundRefs =
      Scope.boundIn (frames.flatMap Frame.scopes) + store.globals.boundRefs :=
  boundRefs_of_frames rfl

/-- Nothing is bound in a new store. -/
theorem boundRefs_fresh (settings : Settings) (reporter : Reporter) (input : InputTape) :
    ((withReporter settings reporter : Store Body).withInput input).boundRefs = 0 := by
  simp [boundRefs, scopes, withInput, withReporter, CallStack.empty, CallStack.ofFrames]

theorem SameStorage.boundRefs_eq
    {before after : Store Body}
    (same : SameStorage before after) :
    after.boundRefs = before.boundRefs := by
  rw [boundRefs_of_frames rfl, boundRefs_of_frames rfl, same.stack, same.globals]

/-- An assignment changes one cell: the one that the name designates. -/
theorem exists_scope_of_assign?
    {store next : Store Body}
    {name : String}
    {value : Option Word}
    (assigned : store.assign? name value = some next) :
    ∃ inner scope outer cell,
      store.scopes = inner ++ scope :: outer ∧
        store.find? name = some cell ∧
        scope.find? name = some cell ∧
        next.scopes = inner ++ scope.bind name (cell.assign value) :: outer := by
  rcases assign?_eq_some assigned with inFrame | inGlobals
  · obtain ⟨current, callers, frame, active, frameAssigned, rfl⟩ := inFrame
    simp only [Frame.assign?, Option.map_eq_some_iff] at frameAssigned
    obtain ⟨_, scopesAssigned, rfl⟩ := frameAssigned
    obtain ⟨inner, scope, outer, cell, shape, unbound, found, rfl⟩ :=
      Frame.assignIn?_eq_some scopesAssigned
    refine ⟨inner, scope, outer ++ (callers.flatMap Frame.scopes ++ [store.globals]), cell,
      ?_, ?_, found, ?_⟩
    · simp [scopes, active, shape]
    · have inCurrent : current.find? name = some cell := by
        rw [Frame.find?, shape, List.findSome?_append, List.findSome?_eq_none_iff.mpr unbound]
        simp [found]
      simp [find?, CallStack.find?, CallStack.current?_of_frames active, inCurrent]
    · simp
  · obtain ⟨notInFrame, globals, globalsAssigned, rfl⟩ := inGlobals
    have unbound : store.stack.find? name = none := CallStack.assign?_eq_none_iff.mp notInFrame
    unfold Scope.assign? at globalsAssigned
    cases found : store.globals.find? name with
    | none =>
        simp [found] at globalsAssigned
    | some cell =>
        simp only [found, Option.some.injEq] at globalsAssigned
        subst globalsAssigned
        refine ⟨store.stack.frames.flatMap Frame.scopes, store.globals, [], cell,
          rfl, ?_, found, rfl⟩
        simp [find?, unbound, found]

/-- A name designates a variable of one of the scopes. -/
theorem exists_scope_of_find?
    {store : Store Body} {name : String} {cell : Cell}
    (found : store.find? name = some cell) :
    ∃ scope ∈ store.scopes, scope.find? name = some cell := by
  rw [find?, Option.or_eq_some_iff] at found
  rcases found with inFrame | ⟨_, inGlobals⟩
  · obtain ⟨frame, isCurrent, foundInFrame⟩ := Option.bind_eq_some_iff.mp inFrame
    obtain ⟨callers, active⟩ := CallStack.current?_eq_some_iff.mp isCurrent
    obtain ⟨scope, isScope, here⟩ := List.exists_of_findSome?_eq_some foundInFrame
    exact ⟨scope, by simp [scopes, active, isScope], here⟩
  · exact ⟨store.globals, by simp [scopes], inGlobals⟩

/-- An assignment takes out the value that the cell had as a reference, and puts in the new one. -/
theorem boundRefs_of_assign?
    {store next : Store Body} {name : String} {value : Option Word} {cell : Cell}
    (assigned : store.assign? name value = some next)
    (found : store.find? name = some cell) :
    next.boundRefs + cell.boundRef?.toList =
      store.boundRefs + (cell.assign value).boundRef?.toList := by
  obtain ⟨inner, scope, outer, other, before, foundToo, here, after⟩ :=
    exists_scope_of_assign? assigned
  rw [found] at foundToo
  cases foundToo
  have law := scope.boundRefs_bind name (cell.assign value)
  rw [here, Option.bind_some] at law
  rw [boundRefs, boundRefs, before, after]
  simp only [Scope.boundIn_append, Scope.boundIn_cons]
  calc
    _ = Scope.boundIn inner + Scope.boundIn outer +
          ((scope.bind name (cell.assign value)).boundRefs + cell.boundRef?.toList) := by
      ac_rfl
    _ = Scope.boundIn inner + Scope.boundIn outer +
          (scope.boundRefs + (cell.assign value).boundRef?.toList) := by
      rw [law]
    _ = _ := by
      ac_rfl

/--
What the references of a store hold after a granted request and what they lose
by it are together what they held before and what they gain by it.
-/
theorem Granted.boundRefs_eq
    {store next : Store Body}
    {operation : Operation Body}
    {reply : Reply Body}
    (granted : Granted store operation reply next) :
    next.boundRefs + store.lostBy operation = store.boundRefs + store.gainedBy operation := by
  cases granted with
  | @declareLocal name kind frame callers active =>
      have replaced := frame.boundIn_declare name kind
      rw [boundRefs_withFrames, boundRefs_of_frames active]
      simp only [lostBy, overwritten?, targeted?, declarationScope, endedBy, gainedBy,
        CallStack.current?_of_frames active, List.flatMap_cons, Scope.boundIn_append,
        Scope.boundIn_nil, zero_add, add_zero]
      rw [← replaced]
      ac_rfl
  | @declareGlobal name kind outside =>
      have replaced := store.globals.boundRefs_declare name kind
      have boundAfter :
          { store with globals := store.globals.declare name kind }.boundRefs =
            ((store.globals.declare name kind).boundRefs : Multiset Word) := by
        simp [boundRefs, scopes, outside]
      rw [boundAfter, boundRefs_of_frames outside]
      simpa [lostBy, overwritten?, targeted?, declarationScope, endedBy, gainedBy,
        CallStack.current?_eq_none_iff.mpr outside] using replaced
  | writeScalar found isInt assigned =>
      have replaced := boundRefs_of_assign? assigned found
      simpa [Cell.boundRef?, Cell.assign, isInt, lostBy, overwritten?, targeted?, endedBy,
        gainedBy] using replaced
  | @allocate name cell word bound found isRef fits assigned =>
      have replaced := boundRefs_of_assign? assigned found
      have isRefKind : cell.kind = .ref := of_decide_eq_true isRef
      have newBound : (cell.assign (some word)).boundRef? = some word := by
        simp [Cell.boundRef?, Cell.assign, isRefKind]
      have appended : bound.appendSlot.2.boundRefs = bound.boundRefs := rfl
      rw [(sameStorage_recount _).boundRefs_eq, appended]
      simpa [newBound, lostBy, overwritten?, targeted?, endedBy, gainedBy, found, fits]
        using replaced
  | @copy target source origin _ found assigned =>
      cases foundTarget : store.find? target with
      | none =>
          rw [assign?_eq_none_iff.mpr foundTarget] at assigned
          contradiction
      | some cell =>
          have replaced := boundRefs_of_assign? assigned foundTarget
          simpa [lostBy, overwritten?, targeted?, endedBy, gainedBy, found, foundTarget]
            using replaced
  | pushScope active =>
      rw [boundRefs_withFrames, boundRefs_of_frames active]
      simp [Frame.pushScope, lostBy, endedBy, overwritten?, targeted?, gainedBy]
  | @popScope frame outer callers scope active popped =>
      obtain ⟨rfl, _⟩ := Frame.popScope?_eq_some_iff.mp popped
      rw [(sameStorage_endScopes _ _).boundRefs_eq, boundRefs_withFrames,
        boundRefs_of_frames active]
      simp only [List.flatMap_cons, Scope.boundIn_append, Scope.boundIn_cons, Scope.boundIn_nil,
        lostBy, endedBy, currentScopes_of_active active, List.take_succ_cons, List.take_zero,
        overwritten?, targeted?, gainedBy, Option.bind_none, Option.toList_none,
        Multiset.coe_nil, add_zero]
      ac_rfl
  | pushFrame room =>
      rw [boundRefs_withFrames, boundRefs_of_frames rfl]
      simp [Frame.withEmptyScope, Frame.withScope, lostBy, endedBy, overwritten?, targeted?,
        gainedBy]
  | @pushCallFrame function formals actuals parameters sameLength room bound =>
      have pushed :
          Scope.boundIn (Frame.withScope function parameters).pushScope.scopes =
            parameters.boundRefs := by
        simp [Frame.pushScope, Frame.withScope]
      rw [boundRefs_withFrames, boundRefs_of_frames rfl]
      simp only [List.flatMap_cons, Scope.boundIn_append, pushed, lostBy, endedBy, overwritten?,
        targeted?, gainedBy, bound, Scope.boundIn_nil, Option.bind_none, Option.toList_none,
        Multiset.coe_nil, add_zero]
      ac_rfl
  | @popFrame frame callers active =>
      rw [(sameStorage_endScopes _ _).boundRefs_eq, boundRefs_withFrames,
        boundRefs_of_frames active]
      simp only [List.flatMap_cons, Scope.boundIn_append, lostBy, endedBy,
        currentScopes_of_active active, overwritten?, targeted?, gainedBy, Option.bind_none,
        Option.toList_none, Multiset.coe_nil, add_zero]
      ac_rfl
  | recount =>
      rw [(sameStorage_recount _).boundRefs_eq]
      simp [lostBy, overwritten?, targeted?, endedBy, gainedBy]
  | _ =>
      rfl

/-- A reference that a name designates is among the bound references. -/
theorem mem_boundRefs_of_find?
    {store : Store Body} {name : String} {raw : Word}
    (found : store.find? name = some ⟨.ref, some raw⟩) :
    raw ∈ store.boundRefs := by
  obtain ⟨scope, isScope, here⟩ := exists_scope_of_find? found
  exact Scope.mem_boundIn.mpr ⟨scope, isScope, name, here⟩

/-- A request ends scopes of the store alone. -/
theorem mem_scopes_of_mem_endedBy
    {store : Store Body} {operation : Operation Body} {scope : Scope}
    (ended : scope ∈ store.endedBy operation) :
    scope ∈ store.scopes := by
  have current : scope ∈ store.currentScopes := by
    cases operation with
    | popScope => exact List.mem_of_mem_take ended
    | popFrame => exact ended
    | _ => contradiction
  unfold currentScopes at current
  cases isCurrent : store.stack.current? with
  | none =>
      simp [isCurrent] at current
  | some frame =>
      obtain ⟨callers, active⟩ := CallStack.current?_eq_some_iff.mp isCurrent
      simp only [isCurrent, Option.map_some, Option.getD_some] at current
      simp [scopes, active, current]

/-- Where a raw value comes from that a reference gains by a request. -/
inductive Origin (store : Store Body) : Operation Body → Word → Prop where
  | slot
      {name : String} {raw : Word}
      (next : Word.ofHandle? store.heap.size = some raw) :
      Origin store (.allocate name) raw
  | copied
      {target source : String} {cell origin : Cell} {raw : Word}
      (foundTarget : store.find? target = some cell)
      (isRef : cell.kind = .ref)
      (found : store.find? source = some origin)
      (holds : origin.value = some raw) :
      Origin store (.copy target source) raw
  | passed
      {function actual : String} {formals actuals : List String} {cell : Cell} {raw : Word}
      (isActual : actual ∈ actuals)
      (found : store.find? actual = some cell)
      (holds : cell.value = some raw) :
      Origin store (.pushCallFrame function formals actuals) raw

/-- The parameters of a call hold raw values of its arguments. -/
theorem mem_boundRefs_of_bindActuals
    {store : Store Body} {formals actuals : List String} {parameters bound : Scope} {raw : Word}
    (done : store.bindActuals formals actuals parameters = .ok bound)
    (member : raw ∈ bound.boundRefs) :
    raw ∈ parameters.boundRefs ∨
      ∃ actual ∈ actuals, ∃ cell, store.find? actual = some cell ∧ cell.value = some raw := by
  induction actuals generalizing formals parameters with
  | nil =>
      cases formals <;> cases done <;> exact Or.inl member
  | cons actual later inductionHypothesis =>
      cases formals with
      | nil =>
          cases done
          exact Or.inl member
      | cons formal formals =>
          unfold bindActuals at done
          cases found : store.find? actual with
          | none =>
              simp [found] at done
          | some cell =>
              simp only [found] at done
              rcases inductionHypothesis done with inParameters | ⟨other, isLater, passed⟩
              · obtain ⟨name, boundThere⟩ := Scope.mem_boundRefs.mp inParameters
                rw [Scope.find?_bind] at boundThere
                by_cases sameName : formal = name
                · simp only [sameName, ↓reduceIte, Cell.rawRef, Option.some.injEq,
                    Cell.mk.injEq, true_and] at boundThere
                  exact Or.inr ⟨actual, List.mem_cons_self, cell, found, boundThere⟩
                · rw [if_neg sameName] at boundThere
                  exact Or.inl (Scope.mem_boundRefs.mpr ⟨name, boundThere⟩)
              · exact Or.inr ⟨other, List.mem_cons_of_mem actual isLater, passed⟩

/-- What references gain comes from the slot that is appended, or from another variable. -/
theorem origin_of_mem_gainedBy
    {store : Store Body} {operation : Operation Body} {raw : Word}
    (gained : raw ∈ store.gainedBy operation) :
    Origin store operation raw := by
  cases operation with
  | allocate name =>
      exact .slot (by simpa [gainedBy] using gained)
  | copy target source =>
      simp only [gainedBy] at gained
      cases foundTarget : store.find? target with
      | none =>
          simp [foundTarget] at gained
      | some cell =>
          cases found : store.find? source with
          | none =>
              simp [foundTarget, found] at gained
          | some origin =>
              obtain ⟨kind, value⟩ := cell
              cases kind with
              | int => simp [foundTarget, found, Cell.assign, Cell.boundRef?] at gained
              | ref =>
                  simp only [foundTarget, found, Cell.assign, Cell.boundRef?,
                    Multiset.mem_coe, Option.mem_toList] at gained
                  exact .copied foundTarget rfl found gained
  | pushCallFrame function formals actuals =>
      simp only [gainedBy] at gained
      cases bound : store.bindActuals formals actuals Scope.empty with
      | error fault =>
          simp [bound] at gained
      | ok parameters =>
          simp only [bound, Multiset.mem_coe] at gained
          rcases mem_boundRefs_of_bindActuals bound gained with inEmpty | passed
          · simp at inEmpty
          · obtain ⟨actual, isActual, cell, found, holds⟩ := passed
            exact .passed isActual found holds
  | _ =>
      simp [gainedBy] at gained

/-- What a reference holds after a granted request, it held before or gains by the request. -/
theorem Granted.mem_boundRefs
    {store next : Store Body} {operation : Operation Body} {reply : Reply Body} {raw : Word}
    (granted : Granted store operation reply next)
    (member : raw ∈ next.boundRefs) :
    raw ∈ store.boundRefs ∨ Origin store operation raw := by
  have inBoth : raw ∈ next.boundRefs + store.lostBy operation :=
    Multiset.mem_add.mpr (Or.inl member)
  rw [granted.boundRefs_eq, Multiset.mem_add] at inBoth
  exact inBoth.imp_right origin_of_mem_gainedBy

end Store

end RefScript
