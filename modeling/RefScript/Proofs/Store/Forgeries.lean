import RefScript.Proofs.Store.References
import RefScript.Proofs.Store.Slots

namespace RefScript

/-!
# Forged handles

A raw value is copied whatever the kinds of the variables. A reference that
gets the value of an integer may thus come to hold what is no handle, and hand
it on to other references. Integers are the only source of such values: each
one that a reference holds, and each stray reference noted at the end of a
scope, has been taken from an integer that held it, by a copy or as an argument
of a call.
-/

namespace Store

variable {Body : Type} {store next : Store Body} {operation : Operation Body}
  {reply : Reply Body}

/-- The request gives a reference the raw value of an integer: by a copy, or as a parameter. -/
inductive Forges (store : Store Body) : Operation Body → Word → Prop where
  | copied
      {target source : String} {bound : Option Word} {raw : Word}
      (foundTarget : store.find? target = some ⟨.ref, bound⟩)
      (found : store.find? source = some ⟨.int, some raw⟩) :
      Forges store (.copy target source) raw
  | passed
      {function actual : String} {formals actuals : List String} {raw : Word}
      (isActual : actual ∈ actuals)
      (found : store.find? actual = some ⟨.int, some raw⟩) :
      Forges store (.pushCallFrame function formals actuals) raw

/-- Some request of the history gives a reference this raw value of an integer. -/
def ForgedBy (store : Store Body) (operations : List (Operation Body)) (raw : Word) : Prop :=
  ∃ earlier request later,
    operations = earlier ++ request :: later ∧ Forges (store.afterAll earlier) request raw

/-- Every bound reference designates a slot of the heap, or holds one of the allowed values. -/
def DanglesWithin (allowed : Word → Prop) (store : Store Body) : Prop :=
  ∀ raw ∈ store.boundRefs, (0 ≤ raw.toInt ∧ raw.toInt < store.heap.size) ∨ allowed raw

variable {allowed : Word → Prop}

/-- A request adds to the values outside the heap only what it takes from an integer. -/
theorem DanglesWithin.of_granted
    (within : DanglesWithin allowed store)
    (forgesAllowed : ∀ raw, Forges store operation raw → allowed raw)
    (granted : Granted store operation reply next) :
    DanglesWithin allowed next := by
  have larger : store.heap.size ≤ next.heap.size := by
    have grown := size_heap_le_after store operation
    rwa [after_of_ok (perform_of_granted granted)] at grown
  have kept {raw : Word} (member : raw ∈ store.boundRefs) :
      (0 ≤ raw.toInt ∧ raw.toInt < next.heap.size) ∨ allowed raw := by
    rcases within raw member with ⟨lower, upper⟩ | isAllowed
    · exact Or.inl ⟨lower, by omega⟩
    · exact Or.inr isAllowed
  intro raw member
  rcases granted.mem_boundRefs member with before | gained
  · exact kept before
  · cases gained with
    | slot newest =>
        refine Or.inl ?_
        rw [Word.toInt_of_ofHandle? newest, granted.size_heap_of_allocate]
        omega
    | @copied target source cell origin _ foundTarget isRef found holds =>
        obtain ⟨targetKind, bound⟩ := cell
        obtain ⟨kind, value⟩ := origin
        subst isRef holds
        cases kind with
        | int => exact Or.inr (forgesAllowed raw (.copied foundTarget found))
        | ref => exact kept (mem_boundRefs_of_find? found)
    | @passed function actual formals actuals cell _ isActual found holds =>
        obtain ⟨kind, value⟩ := cell
        subst holds
        cases kind with
        | int => exact Or.inr (forgesAllowed raw (.passed isActual found))
        | ref => exact kept (mem_boundRefs_of_find? found)

/-- The stray references that a granted request notes are those of the scopes that it ends. -/
theorem Granted.strays_eq (granted : Granted store operation reply next) :
    next.strays.toList =
      store.strays.toList ++
        straysAmong store.liveness.size
          ((store.endedBy operation).reverse.flatMap Scope.boundRefs) := by
  cases granted.recordChange with
  | kept same noHandle endsNone =>
      simp [same.strays, endsNone, straysAmong]
  | @appended bound same sameHeap answered endsNone =>
      have sameStrays : bound.appendSlot.2.strays = store.strays := same.strays
      simp [strays_recount, sameStrays, endsNone, straysAmong]
  | ended same noHandle pops =>
      rw [strays_endScopes, same.strays, same.liveness]
  | recounted noHandle endsNone =>
      simp [strays_recount, endsNone, straysAmong]

/-- The stray references of the scopes that a request ends hold allowed values. -/
theorem DanglesWithin.allowed_of_ended
    (within : DanglesWithin allowed store)
    (consistent : Consistent store)
    {stray : StrayRef}
    (noted :
      stray ∈
        straysAmong store.liveness.size
          ((store.endedBy operation).reverse.flatMap Scope.boundRefs)) :
    allowed stray.raw := by
  simp only [straysAmong, List.mem_map, List.mem_filter, List.mem_flatMap, List.mem_reverse,
    decide_eq_true_eq] at noted
  obtain ⟨raw, ⟨⟨scope, ended, bound⟩, outside⟩, rfl⟩ := noted
  obtain ⟨name, found⟩ := Scope.mem_boundRefs.mp bound
  have member : raw ∈ store.boundRefs :=
    Scope.mem_boundIn.mpr ⟨scope, mem_scopes_of_mem_endedBy ended, name, found⟩
  rw [consistent.flagPerSlot] at outside
  rcases within raw member with ⟨lower, upper⟩ | isAllowed
  · omega
  · exact isAllowed

/-- A request notes no stray reference but those with allowed values. -/
theorem DanglesWithin.strays_of_granted
    (within : DanglesWithin allowed store)
    (consistent : Consistent store)
    (straysAllowed : ∀ stray ∈ store.strays, allowed stray.raw)
    (granted : Granted store operation reply next) :
    ∀ stray ∈ next.strays, allowed stray.raw := by
  intro stray noted
  rw [← Array.mem_toList_iff, granted.strays_eq, List.mem_append] at noted
  rcases noted with before | ended
  · exact straysAllowed stray (Array.mem_toList_iff.mp before)
  · exact within.allowed_of_ended consistent ended

/--
Whatever values outside the heap references hold after a history of requests to
a new store, and have held at the end of their scopes, the history has taken
them from integers.
-/
theorem forged_of_afterAll
    (settings : Settings)
    (reporter : Reporter)
    (input : InputTape)
    (operations : List (Operation Body)) :
    let fresh := (withReporter settings reporter : Store Body).withInput input
    DanglesWithin (fresh.ForgedBy operations) (fresh.afterAll operations) ∧
      ∀ stray ∈ (fresh.afterAll operations).strays, fresh.ForgedBy operations stray.raw := by
  intro fresh
  have abides :
      Abides (fun store operation => ∀ raw, Forges store operation raw →
        fresh.ForgedBy operations raw) fresh operations := by
    rw [abides_iff]
    intro earlier request later split raw forges
    exact ⟨earlier, request, later, split, forges⟩
  have invariant :
      Consistent (fresh.afterAll operations) ∧
        DanglesWithin (fresh.ForgedBy operations) (fresh.afterAll operations) ∧
        ∀ stray ∈ (fresh.afterAll operations).strays, fresh.ForgedBy operations stray.raw := by
    refine afterAll_of_abides
      (fun store =>
        Consistent store ∧ DanglesWithin (fresh.ForgedBy operations) store ∧
          ∀ stray ∈ store.strays, fresh.ForgedBy operations stray.raw) ?_ abides ?_
    · rintro store next operation reply forgesAllowed granted ⟨consistent, within, strays⟩
      exact ⟨granted.consistent consistent, within.of_granted forgesAllowed granted,
        within.strays_of_granted consistent strays granted⟩
    · have noneBound : fresh.boundRefs = 0 := boundRefs_fresh settings reporter input
      refine ⟨consistent_fresh settings reporter input, by simp [DanglesWithin, noneBound], ?_⟩
      simp [fresh, withInput, withReporter]
  exact invariant.2

/-- Whether the request is no call with an integer among its arguments. -/
def passesNoInteger (store : Store Body) : Operation Body → Bool
  | .pushCallFrame _ _ actuals => actuals.all fun actual => (store.find? actual).all Cell.isRef
  | _ => true

/-- Some request of the history copies this raw value from an integer to a reference. -/
def CopiesInteger (store : Store Body) (operations : List (Operation Body)) (raw : Word) : Prop :=
  ∃ earlier target source later,
    operations = earlier ++ .copy target source :: later ∧
      (store.afterAll earlier).find? source = some ⟨.int, some raw⟩ ∧
      ∃ bound, (store.afterAll earlier).find? target = some ⟨.ref, bound⟩

/-- Where no call is given an integer, forged values have been copied. -/
theorem copiesInteger_of_forgedBy
    {operations : List (Operation Body)} {raw : Word}
    (passesNone : Abides (fun store operation => store.passesNoInteger operation) store operations)
    (forged : store.ForgedBy operations raw) :
    store.CopiesInteger operations raw := by
  obtain ⟨earlier, request, later, split, forges⟩ := forged
  cases forges with
  | copied foundTarget found =>
      exact ⟨earlier, _, _, later, split, found, _, foundTarget⟩
  | passed isActual found =>
      have passesRefs := abides_iff.mp passesNone earlier _ later split
      have isRef := List.all_eq_true.mp passesRefs _ isActual
      simp [found, Cell.isRef] at isRef

/--
After every history of requests to a new store in which no call is given an
integer as an argument: a reference, global or in a scope of some frame, holds
a negative value or one beyond the heap only if that value has been copied from
an integer to a reference, and the same goes for every stray reference that has
been noted at the end of a scope or a frame.

So, as long as no integer has been copied to a reference, no reference holds
such a value and no end of a scope or a frame has found a stray reference.
-/
theorem forged_handles_are_copied_integers
    (settings : Settings)
    (reporter : Reporter)
    (input : InputTape)
    (operations : List (Operation Body))
    (passesNone :
      Abides (fun store operation => store.passesNoInteger operation)
        ((withReporter settings reporter).withInput input) operations) :
    let fresh := (withReporter settings reporter : Store Body).withInput input
    let reached := fresh.afterAll operations
    (∀ scope ∈ reached.scopes, ∀ name raw,
      scope.find? name = some ⟨.ref, some raw⟩ →
        raw.toInt < 0 ∨ (reached.heap.size : Int) ≤ raw.toInt →
          fresh.CopiesInteger operations raw) ∧
    (∀ stray ∈ reached.strays, fresh.CopiesInteger operations stray.raw) ∧
    ((∀ raw, ¬ fresh.CopiesInteger operations raw) →
      (∀ scope ∈ reached.scopes, ∀ name raw,
        scope.find? name = some ⟨.ref, some raw⟩ →
          0 ≤ raw.toInt ∧ raw.toInt < reached.heap.size) ∧
      reached.strays = #[]) := by
  intro fresh reached
  obtain ⟨within, straysForged⟩ := forged_of_afterAll settings reporter input operations
  have held :
      ∀ scope ∈ reached.scopes, ∀ name raw,
        scope.find? name = some ⟨.ref, some raw⟩ →
          (0 ≤ raw.toInt ∧ raw.toInt < reached.heap.size) ∨
            fresh.CopiesInteger operations raw := by
    intro scope isScope name raw found
    have member : raw ∈ reached.boundRefs :=
      Scope.mem_boundIn.mpr ⟨scope, isScope, name, found⟩
    exact (within raw member).imp_right (copiesInteger_of_forgedBy passesNone)
  have straysCopied : ∀ stray ∈ reached.strays, fresh.CopiesInteger operations stray.raw :=
    fun stray noted => copiesInteger_of_forgedBy passesNone (straysForged stray noted)
  refine ⟨?_, straysCopied, ?_⟩
  · intro scope isScope name raw found outside
    rcases held scope isScope name raw found with ⟨lower, upper⟩ | copied
    · omega
    · exact copied
  · intro noneCopied
    constructor
    · intro scope isScope name raw found
      exact (held scope isScope name raw found).resolve_right (noneCopied raw)
    · rw [Array.eq_empty_iff_forall_not_mem]
      intro stray noted
      exact noneCopied stray.raw (straysCopied stray noted)

/-- A negative integer is copied to a reference of a frame. -/
def copyingHistory : List (Operation Unit) :=
  [.declare "number" .int, .write "number" (-5), .pushFrame, .declare "alias" .ref,
    .copy "alias" "number"]

/-- A call that is given the reference notes a stray one: the copied integer. -/
theorem passed_alias_holds_copied_integer :
    let fresh := (withReporter Settings.standard .silent : Store Unit).withInput .empty
    let operations :=
      copyingHistory ++ [.pushCallFrame "function" ["parameter"] ["alias"], .popFrame]
    Abides (fun store operation => store.passesNoInteger operation) fresh operations ∧
      (fresh.afterAll operations).strays = #[⟨-5, 0⟩] ∧
      fresh.CopiesInteger operations (-5) := by
  intro fresh operations
  have passesNone :
      Abides (fun store operation => store.passesNoInteger operation) fresh operations := by
    decide +kernel
  have noted : (fresh.afterAll operations).strays = #[⟨-5, 0⟩] := by
    decide +kernel
  obtain ⟨_, straysCopied, _⟩ := forged_handles_are_copied_integers _ _ _ operations passesNone
  exact ⟨passesNone, noted, straysCopied ⟨-5, 0⟩ (by rw [noted]; exact Array.mem_singleton_self _)⟩

/-- Without any call, a reference holds a negative value, and its frame ends with a stray one. -/
theorem copied_integer_is_no_handle :
    Abides (fun store operation => store.passesNoInteger operation)
        ((withReporter Settings.standard .silent).withInput .empty)
        (copyingHistory ++ [.popFrame]) ∧
      (((withReporter Settings.standard .silent).withInput .empty).afterAll
          copyingHistory).find? "alias" = some ⟨.ref, some (-5)⟩ ∧
      (((withReporter Settings.standard .silent).withInput .empty).afterAll
          (copyingHistory ++ [.popFrame])).strays = #[⟨-5, 0⟩] := by
  refine ⟨?_, ?_, ?_⟩ <;> decide +kernel

end Store

end RefScript
