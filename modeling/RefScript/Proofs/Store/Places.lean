import RefScript.Proofs.Store.Atomicity
import RefScript.Proofs.Store.Lifetime

namespace RefScript

/-!
# Places of variables

Looking a name up and assigning to it are two searches: one gives the cell, the
other rebuilds the scopes around it. Both come to the same place, the innermost
scope of the current frame that binds the name, or else the globals. An
assignment gives the cell at that place another raw value and leaves every other
cell, such as those of the same name further out or in the frames of callers.
-/

/--
Where cells are kept: in a scope of a frame, or globally. Frames are counted
from the current one and scopes from the innermost, both from zero.
-/
inductive Place where
  | scope (frame depth : Nat)
  | globals
  deriving DecidableEq, Repr

/-- Whether a scope binds a name, as a test on scopes. -/
def Scope.isBinding (name : String) (scope : Scope) : Bool :=
  (scope.find? name).isSome

/-- Looking through scopes gives the cell of the first one that binds the name. -/
theorem Scope.findSome?_eq_of_findIdx? (scopes : List Scope) (name : String) :
    scopes.findSome? (fun scope => scope.find? name) =
      (scopes.findIdx? (Scope.isBinding name)).bind fun depth =>
        scopes[depth]?.bind fun scope => scope.find? name := by
  induction scopes with
  | nil =>
      rfl
  | cons scope outer inductionHypothesis =>
      rw [List.findSome?_cons, List.findIdx?_cons]
      cases found : scope.find? name with
      | some cell =>
          simp [isBinding, found]
      | none =>
          have notHere : isBinding name scope = false := by simp [isBinding, found]
          simp only [notHere, Bool.false_eq_true, ↓reduceIte]
          rw [Option.bind_map, inductionHypothesis]
          rfl

/-- An assignment in a frame replaces the first scope that binds the name. -/
theorem Frame.assign?_eq_some_at
    {frame assigned : Frame} {name : String} {value : Option Word}
    (done : frame.assign? name value = some assigned) :
    ∃ depth scope cell,
      frame.scopes.findIdx? (Scope.isBinding name) = some depth ∧
        frame.scopes[depth]? = some scope ∧
        scope.find? name = some cell ∧
        assigned =
          { frame with scopes := frame.scopes.set depth (scope.bind name (cell.assign value)) } := by
  obtain ⟨scopes, scopesAssigned, rfl⟩ := Option.map_eq_some_iff.mp done
  obtain ⟨inner, scope, outer, cell, shape, unbound, found, rfl⟩ :=
    assignIn?_eq_some scopesAssigned
  have innerSkipped : inner.findIdx? (Scope.isBinding name) = none := by
    rw [List.findIdx?_eq_none_iff]
    intro other isInner
    simp [Scope.isBinding, unbound other isInner]
  refine ⟨inner.length, scope, cell, ?_, ?_, found, ?_⟩
  · rw [shape, List.findIdx?_append, innerSkipped, List.findIdx?_cons]
    simp [Scope.isBinding, found]
  · simp [shape]
  · simp [shape]

/-- The name of the variable that a request assigns to, itself or through its reference. -/
def Operation.assignee? {Body : Type} : Operation Body → Option String
  | .write name _ | .allocate name | .copy name _ => some name
  | _ => none

namespace Store

variable {Body : Type}

/-- The scope at a place. -/
def scopeAt? (store : Store Body) : Place → Option Scope
  | .scope frame depth => store.stack.frames[frame]?.bind fun active => active.scopes[depth]?
  | .globals => some store.globals

/-- The cell that a name has at a place, be it shadowed there or out of sight. -/
def cellAt? (store : Store Body) (place : Place) (name : String) : Option Cell :=
  (store.scopeAt? place).bind fun scope => scope.find? name

/--
The place of the variable that a name designates: the innermost scope of the
current frame that binds the name, or else the globals if they bind it.
-/
def place? (store : Store Body) (name : String) : Option Place :=
  match store.currentScopes.findIdx? (Scope.isBinding name) with
  | some depth => some (.scope 0 depth)
  | none => if store.globals.isBinding name then some .globals else none

/-- The functions that the active frames belong to, each with its number of scopes. -/
def shape (store : Store Body) : List (String × Nat) :=
  store.stack.frames.map fun frame => (frame.function, frame.scopeDepth)

/-- The stores differ in the raw value of one cell: that of the name at the place. -/
structure Reassigned
    (place : Place) (name : String) (value : Option Word) (store next : Store Body) : Prop where
  shape : next.shape = store.shape
  here : next.cellAt? place name = (store.cellAt? place name).map fun cell => cell.assign value
  elsewhere :
    ∀ otherPlace otherName, (otherPlace, otherName) ≠ (place, name) →
      next.cellAt? otherPlace otherName = store.cellAt? otherPlace otherName

variable {store next : Store Body} {name : String} {value : Option Word}

/-- The scopes of the current frame are those at its places. -/
theorem scopeAt?_current (store : Store Body) (depth : Nat) :
    store.scopeAt? (.scope 0 depth) = store.currentScopes[depth]? := by
  unfold scopeAt? currentScopes CallStack.current?
  cases store.stack.frames <;> simp

/-- The shape tells how many scopes the current frame has. -/
theorem length_currentScopes_eq (store : Store Body) :
    store.currentScopes.length = (store.shape.head?.map Prod.snd).getD 0 := by
  unfold currentScopes shape CallStack.current?
  cases store.stack.frames <;> rfl

/-- The cells depend on the frames and the globals alone. -/
theorem cellAt?_congr
    (sameStack : next.stack = store.stack)
    (sameGlobals : next.globals = store.globals)
    (place : Place) (name : String) :
    next.cellAt? place name = store.cellAt? place name := by
  cases place <;> simp [cellAt?, scopeAt?, sameStack, sameGlobals]

/-- At the place of a variable there is a cell. -/
theorem exists_cellAt?_of_place? {place : Place} (placed : store.place? name = some place) :
    ∃ cell, store.cellAt? place name = some cell := by
  unfold place? at placed
  split at placed
  case h_1 depth innermost =>
    cases placed
    obtain ⟨inRange, binds, _⟩ := List.findIdx?_eq_some_iff_getElem.mp innermost
    rw [cellAt?, scopeAt?_current, List.getElem?_eq_getElem inRange]
    exact Option.isSome_iff_exists.mp binds
  case h_2 =>
    obtain ⟨binds, isGlobals⟩ := Option.ite_none_right_eq_some.mp placed
    cases isGlobals
    exact Option.isSome_iff_exists.mp binds

/-- A look-up in the call stack searches the scopes of the current frame. -/
theorem find?_stack (store : Store Body) (name : String) :
    store.stack.find? name = store.currentScopes.findSome? fun scope => scope.find? name := by
  unfold CallStack.find? currentScopes
  cases store.stack.current? <;> rfl

/-- A look-up gives the cell at the place of the variable. -/
theorem find?_eq_cellAt? (store : Store Body) (name : String) :
    store.find? name = (store.place? name).bind fun place => store.cellAt? place name := by
  rw [find?, find?_stack, Scope.findSome?_eq_of_findIdx?, place?]
  cases innermost : store.currentScopes.findIdx? (Scope.isBinding name) with
  | none =>
      unfold Scope.isBinding
      cases found : store.globals.find? name <;> simp [cellAt?, scopeAt?, found]
  | some depth =>
      obtain ⟨inRange, binds, _⟩ := List.findIdx?_eq_some_iff_getElem.mp innermost
      obtain ⟨cell, found⟩ := Option.isSome_iff_exists.mp binds
      simp [cellAt?, scopeAt?_current, inRange, found]

/-- A name has a place exactly if it designates a variable. -/
theorem place?_eq_none_iff : store.place? name = none ↔ store.find? name = none := by
  rw [find?_eq_cellAt?]
  cases placed : store.place? name with
  | none =>
      simp
  | some place =>
      obtain ⟨cell, found⟩ := exists_cellAt?_of_place? placed
      simp [found]

/-- The variable that a name designates has a place, where its cell is. -/
theorem exists_place_of_find? {cell : Cell} (found : store.find? name = some cell) :
    ∃ place, store.place? name = some place ∧ store.cellAt? place name = some cell := by
  rw [find?_eq_cellAt?] at found
  exact Option.bind_eq_some_iff.mp found

/-! ## Assignments -/

namespace Reassigned

/-- A binding of the name in the scope at one place reassigns its cell there. -/
theorem of_bind
    {place : Place} {scope : Scope} {cell : Cell}
    (sameShape : next.shape = store.shape)
    (isScope : store.scopeAt? place = some scope)
    (found : scope.find? name = some cell)
    (bound : next.scopeAt? place = some (scope.bind name (cell.assign value)))
    (others : ∀ other, other ≠ place → next.scopeAt? other = store.scopeAt? other) :
    Reassigned place name value store next where
  shape := sameShape
  here := by simp [cellAt?, isScope, bound, found, Scope.find?_bind]
  elsewhere otherPlace otherName distinct := by
    by_cases samePlace : otherPlace = place
    · subst samePlace
      have otherThanName : name ≠ otherName := fun same => distinct (by rw [same])
      simp [cellAt?, isScope, bound, Scope.find?_bind, otherThanName]
    · rw [cellAt?, others otherPlace samePlace, cellAt?]

/-- A cell that keeps its raw value, as long as all others stay, is none the less reassigned. -/
theorem of_sameCells
    {place : Place} {cell : Cell}
    (sameStack : next.stack = store.stack)
    (sameGlobals : next.globals = store.globals)
    (found : store.cellAt? place name = some cell) :
    Reassigned place name cell.value store next where
  shape := by rw [Store.shape, sameStack, Store.shape]
  here := by
    rw [cellAt?_congr sameStack sameGlobals, found]
    rfl
  elsewhere otherPlace otherName _ := cellAt?_congr sameStack sameGlobals otherPlace otherName

/-- Only the frames and the globals matter. -/
theorem of_sameStack
    {place : Place} {between : Store Body}
    (reassigned : Reassigned place name value store between)
    (sameStack : next.stack = between.stack)
    (sameGlobals : next.globals = between.globals) :
    Reassigned place name value store next where
  shape := by
    rw [Store.shape, sameStack]
    exact reassigned.shape
  here := by
    rw [cellAt?_congr sameStack sameGlobals]
    exact reassigned.here
  elsewhere otherPlace otherName distinct := by
    rw [cellAt?_congr sameStack sameGlobals]
    exact reassigned.elsewhere otherPlace otherName distinct

/-- As many scopes as before are open in the current frame. -/
theorem length_currentScopes
    {place : Place}
    (reassigned : Reassigned place name value store next) :
    next.currentScopes.length = store.currentScopes.length := by
  rw [length_currentScopes_eq, reassigned.shape, ← length_currentScopes_eq]

end Reassigned

/-- An assignment reaches the place of the variable, and no other cell. -/
theorem reassigned_of_assign? (assigned : store.assign? name value = some next) :
    ∃ place, store.place? name = some place ∧ Reassigned place name value store next := by
  rcases assign?_eq_some assigned with inFrame | inGlobals
  · obtain ⟨current, callers, frame, active, frameAssigned, rfl⟩ := inFrame
    obtain ⟨depth, scope, cell, innermost, isScope, found, rfl⟩ :=
      Frame.assign?_eq_some_at frameAssigned
    have inRange : depth < current.scopes.length := (List.getElem?_eq_some_iff.mp isScope).1
    refine ⟨.scope 0 depth, ?_, .of_bind ?_ ?_ found ?_ ?_⟩
    · simp [place?, currentScopes_of_active active, innermost]
    · simp [shape, active, Frame.scopeDepth]
    · simpa [scopeAt?, active] using isScope
    · simp [scopeAt?, inRange]
    · intro other otherPlace
      cases other with
      | globals => rfl
      | scope caller otherDepth =>
          cases caller with
          | zero =>
              have otherScope : depth ≠ otherDepth := fun same => otherPlace (by rw [same])
              simp [scopeAt?, active, otherScope]
          | succ => simp [scopeAt?, active]
  · obtain ⟨notInFrame, globals, globalsAssigned, rfl⟩ := inGlobals
    have notInScopes : store.currentScopes.findIdx? (Scope.isBinding name) = none := by
      have unbound := CallStack.assign?_eq_none_iff.mp notInFrame
      rw [find?_stack, List.findSome?_eq_none_iff] at unbound
      rw [List.findIdx?_eq_none_iff]
      intro scope isScope
      simp [Scope.isBinding, unbound scope isScope]
    cases found : store.globals.find? name with
    | none => simp [Scope.assign?, found] at globalsAssigned
    | some cell =>
        simp only [Scope.assign?, found, Option.some.injEq] at globalsAssigned
        subst globalsAssigned
        refine ⟨.globals, ?_, .of_bind rfl rfl found rfl ?_⟩
        · simp [place?, notInScopes, Scope.isBinding, found]
        · intro other otherPlace
          cases other with
          | globals => contradiction
          | scope => rfl

/-! ## Requests that assign -/

/-- A name is resolved to the cell that a look-up gives. -/
theorem resolve_eq_ok_iff {cell : Cell} :
    resolve name store = .ok cell store ↔ store.find? name = some cell := by
  unfold resolve
  cases store.find? name <;> simp

theorem exists_resolve_iff :
    (∃ cell, resolve name store = .ok cell store) ↔ (store.place? name).isSome := by
  simp only [resolve_eq_ok_iff]
  rw [← Option.isSome_iff_exists, Option.isSome_iff_ne_none, Option.isSome_iff_ne_none, ne_eq,
    ← place?_eq_none_iff]

theorem assign_eq_ok_iff :
    assign name value store = .ok () next ↔ store.assign? name value = some next := by
  unfold assign
  cases store.assign? name value <;> simp

/-- A granted request that assigns finds a cell to assign to, and reassigns no other one. -/
theorem Granted.reassigned
    {operation : Operation Body} {reply : Reply Body}
    (granted : Granted store operation reply next)
    (assigns : operation.assignee? = some name) :
    ∃ place value, store.place? name = some place ∧ Reassigned place name value store next := by
  cases granted with
  | writeScalar found isInt assigned =>
      cases assigns
      obtain ⟨place, placed, reassigned⟩ := reassigned_of_assign? assigned
      exact ⟨place, _, placed, reassigned⟩
  | writeSlot found isRef designated written =>
      cases assigns
      obtain ⟨place, placed, foundThere⟩ := exists_place_of_find? found
      exact ⟨place, _, placed, .of_sameCells rfl rfl foundThere⟩
  | @allocate _ _ _ bound found isRef fits assigned =>
      cases assigns
      obtain ⟨place, placed, reassigned⟩ := reassigned_of_assign? assigned
      have same := sameStorage_recount bound.appendSlot.2
      exact ⟨place, _, placed, reassigned.of_sameStack same.stack same.globals⟩
  | copy found assigned =>
      cases assigns
      obtain ⟨place, placed, reassigned⟩ := reassigned_of_assign? assigned
      exact ⟨place, _, placed, reassigned⟩
  | _ =>
      contradiction

/--
A request that assigns finds no variable to assign to exactly if the name
designates none, provided that there is the variable that it looks up first.
-/
theorem undefined_assignee_iff
    {operation : Operation Body}
    (assigns : operation.assignee? = some name)
    (sourceFound :
      ∀ other, operation.lookedUp? = some other → other ≠ name → store.find? other ≠ none) :
    (∃ next, perform operation store = .error (.undefinedName name) next) ↔
      store.place? name = none := by
  simp only [perform_eq_error_iff, exists_eq_right, place?_eq_none_iff]
  constructor
  · intro refused
    cases refused with
    | undefinedName needs missing => exact missing
    | undefinedTarget found missing => exact missing
    | unboundActual => contradiction
  · intro missing
    cases operation with
    | write | allocate =>
        cases assigns
        exact .undefinedName rfl missing
    | copy target source =>
        cases assigns
        by_cases sameName : source = name
        · subst sameName
          exact .undefinedName rfl missing
        · obtain ⟨cell, found⟩ := Option.ne_none_iff_exists'.mp (sourceFound source rfl sameName)
          exact .undefinedTarget found missing
    | _ => contradiction

/--
In every store and for every name, assigning comes to the variable that looking
up does: the one in the innermost scope of the current frame that binds the
name, or else the global one. It finds one if and only if a look-up does, and
the cell that it gives another raw value is the one that the look-up gives.

So each request that assigns (a write, an allocation, a copy) is refused for
want of a variable if and only if there is none to look up. When it is granted,
that one cell may have another raw value, with the same kind. Every other cell
of every scope is as it was: those of the same name that are shadowed, those of
the callers and the globals. No scope and no frame comes or goes.
-/
theorem assignments_reach_designated_variable (store : Store Body) (name : String) :
    (store.find? name = (store.place? name).bind fun place => store.cellAt? place name) ∧
    ((∃ cell, resolve name store = .ok cell store) ↔ (store.place? name).isSome) ∧
    (∀ value,
      (∃ next, assign name value store = .ok () next) ↔
        ∃ cell, resolve name store = .ok cell store) ∧
    (∀ value next,
      assign name value store = .ok () next →
        ∃ place, store.place? name = some place ∧ Reassigned place name value store next) ∧
    (∀ operation,
      operation.assignee? = some name →
        (∀ other, operation.lookedUp? = some other → other ≠ name → store.find? other ≠ none) →
          ((∃ next, perform operation store = .error (.undefinedName name) next) ↔
            ¬ ∃ cell, resolve name store = .ok cell store)) ∧
    ∀ operation reply next,
      operation.assignee? = some name →
        perform operation store = .ok reply next →
          ∃ place cell value,
            store.place? name = some place ∧
              resolve name store = .ok cell store ∧
              store.cellAt? place name = some cell ∧
              next.cellAt? place name = some ⟨cell.kind, value⟩ ∧
              (∀ otherPlace otherName, (otherPlace, otherName) ≠ (place, name) →
                next.cellAt? otherPlace otherName = store.cellAt? otherPlace otherName) ∧
              next.shape = store.shape := by
  refine ⟨find?_eq_cellAt? store name, exists_resolve_iff, ?_, ?_, ?_, ?_⟩
  · intro value
    simp only [assign_eq_ok_iff, exists_resolve_iff]
    rw [← Option.isSome_iff_exists, Option.isSome_iff_ne_none, Option.isSome_iff_ne_none, ne_eq,
      ne_eq, assign?_eq_none_iff, place?_eq_none_iff]
  · intro value next assigned
    exact reassigned_of_assign? (assign_eq_ok_iff.mp assigned)
  · intro operation assigns sourceFound
    rw [undefined_assignee_iff assigns sourceFound, exists_resolve_iff,
      Option.not_isSome_iff_eq_none]
  · intro operation reply next assigns answered
    obtain ⟨place, value, placed, reassigned⟩ := (granted_of_perform answered).reassigned assigns
    obtain ⟨cell, foundThere⟩ := exists_cellAt?_of_place? placed
    have found : store.find? name = some cell := by simp [find?_eq_cellAt?, placed, foundThere]
    have here := reassigned.here
    rw [foundThere] at here
    exact ⟨place, cell, value, placed, resolve_eq_ok_iff.mpr found, foundThere, here,
      reassigned.elsewhere, reassigned.shape⟩

/-- In a block, the variable of the frame around it hides the global one. -/
example :
    let store : Store Unit := (initial Settings.standard).afterAll
      [.declare "x" .int, .pushFrame, .declare "x" .int, .pushScope, .write "x" 7]
    store.place? "x" = some (.scope 0 1) ∧
      store.cellAt? (.scope 0 1) "x" = some ⟨.int, some 7⟩ ∧
      store.cellAt? .globals "x" = some ⟨.int, some 0⟩ := by
  decide +kernel

end Store

end RefScript
