import RefScript.Store.Basic

namespace RefScript

/-!
# Variables of the store

A name designates the cell of the innermost scope of the current frame that
binds it, or else its global. Frames below the current one are never searched,
neither for reading nor for assigning.
-/

namespace Store

variable {Body : Type}

/-- Declare a variable in the innermost scope, or globally outside all frames. -/
def declare (name : String) (kind : CellKind) : Action Body Unit := fun store =>
  match store.stack.current? with
  | some frame =>
      .ok () { store with stack := store.stack.withCurrent (frame.declare name kind) }
  | none => .ok () { store with globals := store.globals.declare name kind }

/-- The cell that a name designates. -/
def find? (store : Store Body) (name : String) : Option Cell :=
  (store.stack.find? name).or (store.globals.find? name)

/-- Give the cell that a name designates another raw value. -/
def assign? (store : Store Body) (name : String) (value : Option Word) :
    Option (Store Body) :=
  match store.stack.assign? name value with
  | some stack => some { store with stack }
  | none => (store.globals.assign? name value).map fun globals => { store with globals }

/-- The cell that a name has to designate. -/
def resolve (name : String) : Action Body Cell := fun store =>
  match store.find? name with
  | some cell => .ok cell store
  | none => .error (.undefinedName name) store

/-- The kind of a variable. -/
def kindOf (name : String) : Action Body CellKind :=
  Cell.kind <$> resolve name

/-- Give a variable another raw value. -/
def assign (name : String) (value : Option Word) : Action Body Unit := fun store =>
  match store.assign? name value with
  | some assigned => .ok () assigned
  | none => .error (.undefinedName name) store

/-- The value of a variable: its scalar, or the word in the slot it designates. -/
def read (name : String) : Action Body Word := fun store =>
  match store.find? name with
  | none => .error (.undefinedName name) store
  | some cell =>
      match cell.kind with
      | .int => .ok (cell.value.getD 0) store
      | .ref =>
          match cell.handle?.bind store.heap.read? with
          | some value => .ok value store
          | none => .error (.invalidRead name) store

/-- Write to a variable: to its scalar, or to the slot it designates. -/
def write (name : String) (value : Word) : Action Body Unit := fun store =>
  match store.find? name with
  | none => .error (.undefinedName name) store
  | some cell =>
      match cell.kind with
      | .int => assign name (some value) store
      | .ref =>
          match cell.handle?.bind fun handle => store.heap.write? handle value with
          | some heap => .ok () { store with heap }
          | none => .error (.invalidWrite name) store

/-- Append a slot to the heap and track its handle as live. -/
def appendSlot (store : Store Body) : Handle × Store Body :=
  let (handle, heap) := store.heap.allocate
  (handle, { store with heap, liveness := store.liveness.trackLive handle })

/-- Bind a reference to a fresh slot, giving the handle. -/
def allocate (name : String) : Action Body Handle := fun store =>
  match store.find? name with
  | none => .error (.undefinedName name) store
  | some cell =>
      if cell.isRef then
        match Word.ofHandle? store.heap.size with
        | none => .error .heapExhausted store
        | some word =>
            match store.assign? name (some word) with
            | none => .error (.undefinedName name) store
            | some assigned =>
                let (handle, extended) := assigned.appendSlot
                .ok handle extended.recount
      else
        .error (.notARef name) store

/-- Copy the raw value of one variable to another, whatever their kinds. -/
def copy (target source : String) : Action Body Unit := fun store =>
  match store.find? source with
  | none => .error (.undefinedName source) store
  | some cell => assign target cell.value store

/-- A name can be assigned to exactly if it designates a variable. -/
theorem assign?_eq_none_iff
    {store : Store Body} {name : String} {value : Option Word} :
    store.assign? name value = none ↔ store.find? name = none := by
  have inStack := @CallStack.assign?_eq_none_iff store.stack name value
  unfold assign? find?
  rw [Option.or_eq_none_iff, ← inStack]
  cases store.stack.assign? name value <;> simp [Scope.assign?_eq_none_iff]

end Store

end RefScript
