import RefScript.Proofs.Store.Places
import RefScript.Proofs.Store.Slots

namespace RefScript

/-!
# Aliases

Two references that hold the same raw value share a slot. What is written
through one of them is read through the other, whatever their names, as long as
nothing else is written to the slot; and a write is seen through no other name
than these and the one that it is made through.
-/

namespace Frame

/-- After an assignment a look-up gives the reassigned cell, and every other one as before. -/
theorem find?_of_assign?
    {frame assigned : Frame} {name : String} {value : Option Word}
    (done : frame.assign? name value = some assigned)
    (other : String) :
    assigned.find? other =
      if name = other then (frame.find? name).map fun cell => cell.assign value
      else frame.find? other := by
  obtain ⟨scopes, scopesAssigned, rfl⟩ := Option.map_eq_some_iff.mp done
  obtain ⟨inner, scope, outer, cell, shape, unbound, found, rfl⟩ :=
    assignIn?_eq_some scopesAssigned
  have skipsInner := List.findSome?_eq_none_iff.mpr unbound
  simp only [find?, shape, List.findSome?_append, List.findSome?_cons, Scope.find?_bind]
  by_cases sameName : name = other
  · subst sameName
    simp [skipsInner, found]
  · simp [sameName]

end Frame

namespace Store

variable {Body : Type} {store next : Store Body} {name other : String}

theorem find?_of_active
    {frame : Frame} {callers : List Frame}
    (active : store.stack.frames = frame :: callers)
    (name : String) :
    store.find? name = (frame.find? name).or (store.globals.find? name) := by
  rw [find?, CallStack.find?, CallStack.current?_of_frames active, Option.bind_some]

/-- After an assignment a look-up gives the reassigned cell, and every other one as before. -/
theorem find?_of_assign?
    {value : Option Word}
    (assigned : store.assign? name value = some next)
    (other : String) :
    next.find? other =
      if name = other then (store.find? name).map fun cell => cell.assign value
      else store.find? other := by
  rcases assign?_eq_some assigned with inFrame | inGlobals
  · obtain ⟨current, callers, frame, active, frameAssigned, rfl⟩ := inFrame
    have bound : current.find? name ≠ none := fun unbound => by
      rw [Frame.assign?_eq_none_iff.mpr unbound] at frameAssigned
      contradiction
    obtain ⟨cell, found⟩ := Option.ne_none_iff_exists'.mp bound
    rw [find?_of_active active, find?_of_active active, find?_of_active rfl,
      Frame.find?_of_assign? frameAssigned, found]
    by_cases sameName : name = other <;> simp [sameName, withFrames]
  · obtain ⟨notInFrame, globals, globalsAssigned, rfl⟩ := inGlobals
    have unbound : store.stack.find? name = none := CallStack.assign?_eq_none_iff.mp notInFrame
    unfold Scope.assign? at globalsAssigned
    cases found : store.globals.find? name with
    | none =>
        simp [found] at globalsAssigned
    | some cell =>
        simp only [found, Option.some.injEq] at globalsAssigned
        subst globalsAssigned
        simp only [find?, Scope.find?_bind]
        by_cases sameName : name = other
        · subst sameName
          simp [unbound, found]
        · simp [sameName]

/-- What reading a variable answers: its value, or the fault that is met. -/
def valueOf (store : Store Body) (name : String) : Except Fault Word :=
  match read name store with
  | .ok value _ => .ok value
  | .error fault _ => .error fault

/-- Both names designate references, which hold the same raw value. -/
def Aliases (store : Store Body) (name other : String) : Prop :=
  ∃ raw, store.find? name = some ⟨.ref, some raw⟩ ∧ store.find? other = some ⟨.ref, some raw⟩

/-! ## Reading -/

theorem valueOf_of_missing (missing : store.find? name = none) :
    store.valueOf name = .error (.undefinedName name) := by
  rw [valueOf, read, missing]

theorem valueOf_of_int
    {cell : Cell}
    (found : store.find? name = some cell)
    (isInt : cell.kind = .int) :
    store.valueOf name = .ok (cell.value.getD 0) := by
  simp only [valueOf, read, found, isInt]

theorem valueOf_of_ref
    {cell : Cell}
    (found : store.find? name = some cell)
    (isRef : cell.kind = .ref) :
    store.valueOf name =
      match cell.handle?.bind store.heap.read? with
      | some value => .ok value
      | none => .error (.invalidRead name) := by
  simp only [valueOf, read, found, isRef]
  cases cell.handle?.bind store.heap.read? <;> rfl

/-- A reference whose slot is full answers what the slot holds. -/
theorem valueOf_of_full
    {raw value : Word} {handle : Handle}
    (found : store.find? name = some ⟨.ref, some raw⟩)
    (holds : raw.toInt = handle)
    (full : store.heap.slot? handle = some (some value)) :
    store.valueOf name = .ok value := by
  have designated : (Cell.mk .ref (some raw)).handle? = some handle :=
    Cell.handle?_eq_some_iff.mpr ⟨raw, rfl, holds⟩
  rw [valueOf_of_ref found rfl, designated, Option.bind_some, Heap.read?_eq_some_iff.mpr full]

/-- What is read depends on the variable and, for a reference, on the slot that it designates. -/
theorem valueOf_congr
    (sameCell : next.find? name = store.find? name)
    (sameSlot :
      ∀ cell handle, store.find? name = some cell → cell.handle? = some handle →
        next.heap.slot? handle = store.heap.slot? handle) :
    next.valueOf name = store.valueOf name := by
  cases found : store.find? name with
  | none =>
      rw [found] at sameCell
      rw [valueOf_of_missing sameCell, valueOf_of_missing found]
  | some cell =>
      rw [found] at sameCell
      cases kind : cell.kind with
      | int =>
          rw [valueOf_of_int sameCell kind, valueOf_of_int found kind]
      | ref =>
          rw [valueOf_of_ref sameCell kind, valueOf_of_ref found kind]
          cases designated : cell.handle? with
          | none =>
              rfl
          | some handle =>
              simp only [Option.bind_some, Heap.read?, sameSlot cell handle found designated]

/-! ## Writing -/

/-- A write through a reference fills the slot that it designates, and changes no variable. -/
theorem slot?_of_write
    {raw value : Word}
    (written : write name value store = .ok () next)
    (found : store.find? name = some ⟨.ref, some raw⟩) :
    ∃ handle : Handle,
      raw.toInt = handle ∧
        next.heap.slot? handle = some (some value) ∧
        ∀ other, next.find? other = store.find? other := by
  cases (requests_write name value).granted written with
  | writeScalar foundToo isInt _ =>
      rw [found] at foundToo
      cases foundToo
      contradiction
  | writeSlot foundToo _ designated filled =>
      rw [found] at foundToo
      cases foundToo
      obtain ⟨_, same, holds⟩ := Cell.handle?_eq_some_iff.mp designated
      cases same
      exact ⟨_, holds, by rw [Heap.slot?_of_write? filled, if_pos rfl], fun _ => rfl⟩

/-- A write is read through the aliases of the name that it is made through. -/
theorem valueOf_of_aliases
    {value : Word}
    (written : write name value store = .ok () next)
    (aliases : store.Aliases name other) :
    next.valueOf other = .ok value := by
  obtain ⟨raw, found, foundOther⟩ := aliases
  obtain ⟨handle, holds, full, sameCells⟩ := slot?_of_write written found
  rw [← sameCells other] at foundOther
  exact valueOf_of_full foundOther holds full

/-- A write is read through the name that it is made through. -/
theorem valueOf_written
    {value : Word}
    (written : write name value store = .ok () next) :
    next.valueOf name = .ok value := by
  cases (requests_write name value).granted written with
  | @writeScalar _ _ cell _ found isInt assigned =>
      have foundAfter := find?_of_assign? assigned name
      rw [if_pos rfl, found, Option.map_some] at foundAfter
      exact valueOf_of_int foundAfter isInt
  | writeSlot found _ designated _ =>
      obtain ⟨raw, rfl, _⟩ := Cell.handle?_eq_some_iff.mp designated
      exact valueOf_of_aliases written ⟨raw, found, found⟩

/-- A write is not seen through other names. -/
theorem valueOf_of_not_aliases
    {value : Word}
    (written : write name value store = .ok () next)
    (otherName : other ≠ name)
    (noAlias : ¬ store.Aliases name other) :
    next.valueOf other = store.valueOf other := by
  cases (requests_write name value).granted written with
  | writeScalar found isInt assigned =>
      have sameCell := find?_of_assign? assigned other
      rw [if_neg otherName.symm] at sameCell
      obtain ⟨stack, globals, rfl⟩ := assign?_others assigned
      exact valueOf_congr sameCell fun _ _ _ _ => rfl
  | @writeSlot _ _ _ filled _ found _ designated isFilled =>
      refine valueOf_congr (by rfl) ?_
      intro cell handle foundOther designatedOther
      have otherSlot : filled ≠ handle := by
        rintro rfl
        -- Raw values with one handle are the same word, so the names would be aliases.
        obtain ⟨raw, rfl, holds⟩ := Cell.handle?_eq_some_iff.mp designated
        obtain ⟨raw', rfl, holdsToo⟩ := Cell.handle?_eq_some_iff.mp designatedOther
        have sameRaw : raw' = raw := Int32.toInt_inj.mp (holdsToo.trans holds.symm)
        exact noAlias ⟨raw, found, sameRaw ▸ foundOther⟩
      rw [Heap.slot?_of_write? isFilled, if_neg otherSlot]

/--
After a write that is granted, reading answers the word that has been written
through the name itself and through every name that designates a reference with
the same raw value. Through every other name it answers what it did before, be
that a value or a fault.

If the write was made through a reference, then whatever is requested later,
granted or refused, in whichever frame: as long as no other word is written to
the slot, reading answers that word through every name that designates a
reference with that raw value at the time.
-/
theorem writes_reach_aliases
    {store next : Store Body} {name : String} {value : Word}
    (written : write name value store = .ok () next) :
    (∀ other, other = name ∨ store.Aliases name other → next.valueOf other = .ok value) ∧
    (∀ other, ¬ (other = name ∨ store.Aliases name other) →
      next.valueOf other = store.valueOf other) ∧
    ∀ raw, store.find? name = some ⟨.ref, some raw⟩ →
      ∃ handle : Handle,
        raw.toInt = handle ∧
          ∀ operations,
            Abides (LeavesSlot handle) next operations →
              ∀ other,
                (next.afterAll operations).find? other = some ⟨.ref, some raw⟩ →
                  (next.afterAll operations).valueOf other = .ok value := by
  refine ⟨?_, ?_, ?_⟩
  · rintro other (rfl | aliases)
    · exact valueOf_written written
    · exact valueOf_of_aliases written aliases
  · intro other isBystander
    obtain ⟨otherName, noAlias⟩ := not_or.mp isBystander
    exact valueOf_of_not_aliases written otherName noAlias
  · intro raw found
    obtain ⟨handle, holds, full, _⟩ := slot?_of_write written found
    refine ⟨handle, holds, ?_⟩
    intro operations leaves other foundLater
    have stillFull := (slot?_afterAll_full_iff next operations handle value).mpr
      (Or.inl ⟨full, leaves⟩)
    exact valueOf_of_full foundLater holds stillFull

/-- Two references, the first of which is handed to a call as a parameter. -/
def sharedSlot : Store Unit :=
  (initial Settings.standard).afterAll
    [.declare "shared" .ref, .allocate "shared", .declare "other" .ref, .allocate "other",
      .pushCallFrame "fill" ["slot"] ["shared"]]

/-- A write through the parameter is read globally after the call, and not through the other. -/
theorem write_in_call_reaches_alias :
    ∃ next,
      write "slot" 7 sharedSlot = .ok () next ∧
        next.valueOf "shared" = .ok 7 ∧
        next.valueOf "other" = sharedSlot.valueOf "other" ∧
        (next.afterAll [.write "other" 5, .popFrame]).valueOf "shared" = .ok 7 := by
  have slotBound : sharedSlot.find? "slot" = some ⟨.ref, some 0⟩ := by decide +kernel
  have sharedBound : sharedSlot.find? "shared" = some ⟨.ref, some 0⟩ := by decide +kernel
  have otherBound : sharedSlot.find? "other" = some ⟨.ref, some 1⟩ := by decide +kernel
  have designated : (Cell.mk .ref (some 0)).handle? = some 0 := by decide +kernel
  have present : 0 < sharedSlot.heap.size := by decide +kernel
  have granted : Granted sharedSlot (.write "slot" 7) .done _ :=
    .writeSlot slotBound rfl designated (if_pos present)
  have written : write "slot" 7 sharedSlot = .ok () _ :=
    (requests_write "slot" 7).eq_ok_of_granted granted
  obtain ⟨reached, untouched, lasting⟩ := writes_reach_aliases written
  refine ⟨_, written, reached "shared" (Or.inr ⟨0, slotBound, sharedBound⟩), ?_, ?_⟩
  · apply untouched "other"
    rintro (impossible | ⟨raw, foundSlot, foundOther⟩)
    · contradiction
    · cases slotBound.symm.trans foundSlot
      cases otherBound.symm.trans foundOther
  · obtain ⟨handle, holds, later⟩ := lasting 0 slotBound
    apply later
    · refine ⟨?_, leavesSlot_of_ne_write (by simp) _ _, trivial⟩
      rintro word ⟨_, raw, _, same, found, holdsToo, _⟩
      cases same
      cases otherBound.symm.trans found
      rw [← holds] at holdsToo
      contradiction
    · decide +kernel

end Store

end RefScript
