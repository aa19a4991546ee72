import RefScript.Proofs.Store.Forgeries

namespace RefScript

/-!
# No reference dangles

Raw values are copied whatever the kinds of the variables, so that a reference
can come to hold the value of an integer, which need not be a handle. As long
as references get their values from references alone, this does not happen:
every bound reference then designates a slot of the heap. The end of a scope
then finds no stray reference, and an access through a reference fails only if
it is unbound, or, for reading, if its slot has never been written.
-/

namespace Store

variable {Body : Type} {store next : Store Body} {operation : Operation Body}
  {reply : Reply Body}

/-- Whether references get their values from references alone: by a copy, and by a call. -/
def respectsKinds (store : Store Body) : Operation Body → Bool
  | .copy target source =>
      (store.find? target).all fun cell => !cell.isRef || (store.find? source).all Cell.isRef
  | .pushCallFrame _ _ actuals =>
      actuals.all fun actual => (store.find? actual).all Cell.isRef
  | _ => true

/-- Every bound reference designates a slot of the heap. -/
def NoneDangles (store : Store Body) : Prop :=
  ∀ raw ∈ store.boundRefs, 0 ≤ raw.toInt ∧ raw.toInt < store.heap.size

/-- That no reference dangles is the case in which no value outside the heap is allowed. -/
theorem noneDangles_iff : NoneDangles store ↔ DanglesWithin (fun _ => False) store := by
  simp [NoneDangles, DanglesWithin]

/-- Where kinds are respected, no reference gains the value of an integer. -/
theorem not_forges_of_respectsKinds
    (respects : store.respectsKinds operation = true)
    (raw : Word) :
    ¬ Forges store operation raw := by
  intro forges
  cases forges with
  | copied foundTarget found =>
      simp [respectsKinds, foundTarget, found, Cell.isRef] at respects
  | passed isActual found =>
      have isRef := List.all_eq_true.mp respects _ isActual
      simp [found, Cell.isRef] at isRef

/-- Where kinds are respected, no reference gains a value that designates no slot. -/
theorem NoneDangles.of_granted
    (sound : NoneDangles store)
    (respects : store.respectsKinds operation = true)
    (granted : Granted store operation reply next) :
    NoneDangles next := by
  rw [noneDangles_iff] at sound ⊢
  exact sound.of_granted (not_forges_of_respectsKinds respects) granted

/-- While no reference dangles, no granted request finds a stray reference. -/
theorem NoneDangles.strays_of_granted
    (sound : NoneDangles store)
    (consistent : Consistent store)
    (granted : Granted store operation reply next) :
    next.strays = store.strays := by
  have noStray :
      straysAmong store.liveness.size
        ((store.endedBy operation).reverse.flatMap Scope.boundRefs) = [] := by
    rw [List.eq_nil_iff_forall_not_mem]
    intro stray noted
    exact (noneDangles_iff.mp sound).allowed_of_ended consistent noted
  have noted := granted.strays_eq
  rw [noStray, List.append_nil] at noted
  exact Array.toList_inj.mp noted

/-- A bound reference that does not dangle designates a slot that is there. -/
theorem NoneDangles.exists_handle
    (sound : NoneDangles store)
    {name : String} {raw : Word}
    (found : store.find? name = some ⟨.ref, some raw⟩) :
    ∃ handle : Handle, raw.toInt = handle ∧ handle < store.heap.size := by
  obtain ⟨lower, upper⟩ := sound raw (mem_boundRefs_of_find? found)
  exact ⟨raw.toInt.toNat, (Int.toNat_of_nonneg lower).symm, (Int.toNat_lt lower).mpr upper⟩

/-- While no reference dangles, a write through a reference fails only if it is unbound. -/
theorem NoneDangles.write_fails_iff
    (sound : NoneDangles store)
    {name : String} {bound : Option Word}
    (found : store.find? name = some ⟨.ref, bound⟩)
    (value : Word) :
    (∃ fault next, perform (.write name value) store = .error fault next) ↔ bound = none := by
  cases bound with
  | none =>
      have noSlot : Refused store (.write name value) (.invalidWrite name) :=
        .invalidWrite found rfl nofun
      exact ⟨fun _ => rfl, fun _ => ⟨_, _, perform_of_refused noSlot⟩⟩
  | some raw =>
      obtain ⟨handle, holds, present⟩ := sound.exists_handle found
      have designated : (Cell.mk .ref (some raw)).handle? = some handle :=
        Cell.handle?_eq_some_iff.mpr ⟨raw, rfl, holds⟩
      have written := perform_of_granted
        (.writeSlot found rfl designated (if_pos present) : Granted store (.write name value) _ _)
      simp [written]

/-- A read through a reference fails if and only if it designates no slot that holds a word. -/
theorem read_fails_iff_of_ref
    {name : String} {cell : Cell}
    (found : store.find? name = some cell)
    (isRef : cell.kind = .ref) :
    (∃ fault next, perform (.read name) store = .error fault next) ↔
      cell.handle?.bind store.heap.read? = none := by
  constructor
  · rintro ⟨fault, next, failed⟩
    cases contents : cell.handle?.bind store.heap.read? with
    | none =>
        rfl
    | some value =>
        have answered := perform_of_granted (.readSlot found isRef contents)
        rw [answered] at failed
        contradiction
  · intro empty
    exact ⟨_, _, perform_of_refused (.invalidRead found isRef empty)⟩

/--
While no reference dangles, a read through a reference fails only if it is
unbound or its slot is empty.
-/
theorem NoneDangles.read_fails_iff
    (sound : NoneDangles store)
    {name : String} {bound : Option Word}
    (found : store.find? name = some ⟨.ref, bound⟩) :
    (∃ fault next, perform (.read name) store = .error fault next) ↔
      bound = none ∨
        ∃ raw, ∃ handle : Handle,
          bound = some raw ∧ raw.toInt = handle ∧ store.heap.read? handle = none := by
  rw [read_fails_iff_of_ref found rfl]
  cases bound with
  | none =>
      simp [Cell.handle?]
  | some raw =>
      obtain ⟨handle, holds, _⟩ := sound.exists_handle found
      have designated : (Cell.mk .ref (some raw)).handle? = some handle :=
        Cell.handle?_eq_some_iff.mpr ⟨raw, rfl, holds⟩
      rw [designated, Option.bind_some]
      constructor
      · intro empty
        exact Or.inr ⟨raw, handle, rfl, holds, empty⟩
      · rintro (impossible | ⟨_, other, same, holdsToo, empty⟩)
        · contradiction
        · cases same
          have sameHandle : other = handle := Int.ofNat.inj (holdsToo.symm.trans holds)
          rw [← sameHandle]
          exact empty

/--
After every history of requests to a new store in which references get their
values from references alone: every bound reference, global or in any scope of
any frame, holds the handle of a slot. So no end of a scope or a frame has found
a stray reference; a write through a reference fails if and only if it is
unbound; and a read through one fails if and only if it is unbound or its slot
has never been written.
-/
theorem no_reference_dangles
    (settings : Settings)
    (reporter : Reporter)
    (input : InputTape)
    (operations : List (Operation Body))
    (respects :
      Abides (fun store operation => store.respectsKinds operation)
        ((withReporter settings reporter).withInput input) operations) :
    let fresh := (withReporter settings reporter : Store Body).withInput input
    let reached := fresh.afterAll operations
    (∀ scope ∈ reached.scopes, ∀ name raw,
      scope.find? name = some ⟨.ref, some raw⟩ →
        0 ≤ raw.toInt ∧ raw.toInt < reached.heap.size) ∧
    reached.strays = #[] ∧
    (∀ name bound, reached.find? name = some ⟨.ref, bound⟩ →
      (∀ value,
        (∃ fault next, perform (.write name value) reached = .error fault next) ↔
          bound = none) ∧
      ((∃ fault next, perform (.read name) reached = .error fault next) ↔
        bound = none ∨
          ∃ raw, ∃ handle : Handle,
            bound = some raw ∧ raw.toInt = handle ∧
              Abides (LeavesSlot handle) fresh operations)) := by
  intro fresh reached
  have invariant : Consistent reached ∧ NoneDangles reached ∧ reached.strays = #[] := by
    refine afterAll_of_abides
      (fun store => Consistent store ∧ NoneDangles store ∧ store.strays = #[]) ?_ respects ?_
    · rintro store next operation reply respects granted ⟨consistent, sound, noStrays⟩
      exact ⟨granted.consistent consistent, sound.of_granted respects granted,
        (sound.strays_of_granted consistent granted).trans noStrays⟩
    · have noneBound : fresh.boundRefs = 0 := boundRefs_fresh settings reporter input
      exact ⟨consistent_fresh settings reporter input, by simp [NoneDangles, noneBound], rfl⟩
  obtain ⟨_, sound, noStrays⟩ := invariant
  have neverWritten (handle : Handle) :
      reached.heap.read? handle = none ↔ Abides (LeavesSlot handle) fresh operations := by
    rw [read?_afterAll_eq_none_iff]
    exact and_iff_right rfl
  refine ⟨?_, noStrays, ?_⟩
  · intro scope isScope name raw found
    exact sound raw (Scope.mem_boundIn.mpr ⟨scope, isScope, name, found⟩)
  · intro name bound found
    refine ⟨sound.write_fails_iff found, ?_⟩
    simpa only [neverWritten] using sound.read_fails_iff found

/--
A slot that two references, an integer and a parameter share: the parameter has
been written to, and its frame has ended.
-/
def sharingHistory : List (Operation Unit) :=
  [.declare "shared" .ref, .allocate "shared", .pushFrame, .declare "alias" .ref,
    .declare "number" .int, .copy "alias" "shared", .copy "number" "alias",
    .pushCallFrame "fill" ["slot", "slot"] ["shared", "alias"], .write "slot" 7, .popFrame,
    .declare "unbound" .ref]

/-- The alias designates the slot still, and the other reference none. -/
theorem sharing_leaves_no_dangling_alias :
    let fresh := (withReporter Settings.standard .silent : Store Unit).withInput .empty
    let reached := fresh.afterAll sharingHistory
    Abides (fun store operation => store.respectsKinds operation) fresh sharingHistory ∧
      reached.find? "alias" = some ⟨.ref, some 0⟩ ∧
      reached.find? "unbound" = some ⟨.ref, none⟩ ∧
      reached.strays = #[] ∧
      (¬ ∃ fault next, perform (.write "alias" 8) reached = .error fault next) ∧
      ∃ fault next, perform (.read "unbound") reached = .error fault next := by
  intro fresh reached
  have respects :
      Abides (fun store operation => store.respectsKinds operation) fresh sharingHistory := by
    decide +kernel
  have aliasBound : reached.find? "alias" = some ⟨.ref, some 0⟩ := by
    decide +kernel
  have otherUnbound : reached.find? "unbound" = some ⟨.ref, none⟩ := by
    decide +kernel
  obtain ⟨_, noStrays, accesses⟩ := no_reference_dangles _ _ _ sharingHistory respects
  refine ⟨respects, aliasBound, otherUnbound, noStrays, ?_, ?_⟩
  · rw [(accesses "alias" _ aliasBound).1]
    exact Option.some_ne_none 0
  · exact (accesses "unbound" _ otherUnbound).2.mpr (Or.inl rfl)

end Store

end RefScript
