import RefScript.Proofs.Execution.StackDiscipline
import RefScript.Proofs.Store.Bystanders
import RefScript.Proofs.Store.Places

namespace RefScript

/-!
# Variables that a block shadows

A block that first declares a name has a variable of that name to itself. As long
as the block lasts, the scope of that variable stands between what the block does
and the variables of the name further out: an assignment stops there at the latest,
a declaration is made in the innermost scope, and the scopes further in are closed
before that one is. What is done in another frame does not reach the scopes of this
one at all. So the outer variables of the name are as they were when the block ends.
-/

/--
The scope that stands this many scopes further out than the innermost one binds the
name, and beyond it the scopes of the frame have the given cells of the name.
-/
structure Frame.Shadows
    (frame : Frame) (name : String) (blocks : Nat) (outer : List (Option Cell)) : Prop where
  binds : ∃ cell, (frame.cellsOf name)[blocks]? = some (some cell)
  beyond : (frame.cellsOf name).drop (blocks + 1) = outer

/-- What becomes of the current frame where no scope is opened or closed. -/
inductive Frame.Altered (frame : Frame) : Frame → Prop where
  | same :
      Altered frame frame
  | declared
      (name : String) (kind : CellKind) :
      Altered frame (frame.declare name kind)
  | assigned
      {name : String} {value : Option Word} {next : Frame}
      (done : frame.assign? name value = some next) :
      Altered frame next

namespace Frame.Shadows

variable {frame next outerFrame : Frame} {name : String} {blocks : Nat}
  {outer : List (Option Cell)}

/-- A declaration is made in the scope that shadows, or further in. -/
theorem of_declare
    (shadows : frame.Shadows name blocks outer)
    (other : String)
    (kind : CellKind) :
    (frame.declare other kind).Shadows name blocks outer := by
  obtain ⟨function, scopes⟩ := frame
  obtain ⟨⟨cell, binds⟩, beyond⟩ := shadows
  cases scopes with
  | nil =>
      simp [cellsOf] at binds
  | cons innermost further =>
      cases blocks with
      | zero =>
          refine ⟨?_, beyond⟩
          by_cases sameName : other = name
          · exact ⟨Cell.fresh kind, by
              simp [cellsOf, declare, Scope.declare, Scope.find?_bind, sameName]⟩
          · exact ⟨cell, by
              simpa [cellsOf, declare, Scope.declare, Scope.find?_bind, sameName] using binds⟩
      | succ blocks =>
          exact ⟨⟨cell, binds⟩, beyond⟩

/-- An assignment to the name reaches the scope that shadows, or one further in. -/
theorem of_assign?
    (shadows : frame.Shadows name blocks outer)
    {other : String} {value : Option Word}
    (done : frame.assign? other value = some next) :
    next.Shadows name blocks outer := by
  by_cases sameName : other = name
  · subst sameName
    obtain ⟨depth, scope, cell, innermost, isScope, found, rfl⟩ := assign?_eq_some_at done
    obtain ⟨⟨shadowing, binds⟩, beyond⟩ := shadows
    have cells :
        cellsOf other { frame with
            scopes := frame.scopes.set depth (scope.bind other (cell.assign value)) } =
          (frame.cellsOf other).set depth (some (cell.assign value)) := by
      simp [cellsOf, List.map_set, Scope.find?_bind]
    have notBeyond : depth ≤ blocks := by
      obtain ⟨_, _, unboundBefore⟩ := List.findIdx?_eq_some_iff_getElem.mp innermost
      refine Nat.le_of_not_lt fun isBeyond => unboundBefore blocks isBeyond ?_
      obtain ⟨scope, isShadowing, isBound⟩ :=
        Option.map_eq_some_iff.mp (List.getElem?_map.symm.trans binds)
      obtain ⟨inRange, rfl⟩ := List.getElem?_eq_some_iff.mp isShadowing
      simp [Scope.isBinding, isBound]
    refine ⟨?_, ?_⟩
    · rw [cells]
      by_cases here : depth = blocks
      · subst here
        have inRange := (List.getElem?_eq_some_iff.mp binds).1
        exact ⟨cell.assign value, by simp [inRange]⟩
      · exact ⟨shadowing, by simp [here, binds]⟩
    · rw [cells, List.drop_set_of_lt (by omega), beyond]
  · obtain ⟨binds, beyond⟩ := shadows
    rw [← cellsOf_assign? sameName done] at binds beyond
    exact ⟨binds, beyond⟩

theorem of_altered
    (shadows : frame.Shadows name blocks outer)
    (altered : frame.Altered next) :
    next.Shadows name blocks outer := by
  cases altered with
  | same => exact shadows
  | declared other kind => exact shadows.of_declare other kind
  | assigned done => exact shadows.of_assign? done

/-- The scope of a block comes further in. -/
theorem of_pushScope (shadows : frame.Shadows name blocks outer) :
    frame.pushScope.Shadows name (blocks + 1) outer :=
  ⟨shadows.binds, shadows.beyond⟩

/-- And it is what the end of the block removes. -/
theorem of_popScope?
    {scope : Scope}
    (shadows : frame.Shadows name (blocks + 1) outer)
    (popped : frame.popScope? = some (scope, next)) :
    next.Shadows name blocks outer := by
  obtain ⟨rfl, -⟩ := popScope?_eq_some_iff.mp popped
  exact ⟨shadows.binds, shadows.beyond⟩

/-- Once the scope that shadows is closed, the cells beyond it are all there are. -/
theorem cellsOf_popScope?
    {scope : Scope}
    (shadows : frame.Shadows name 0 outer)
    (popped : frame.popScope? = some (scope, next)) :
    next.cellsOf name = outer := by
  obtain ⟨rfl, -⟩ := popScope?_eq_some_iff.mp popped
  exact shadows.beyond

end Frame.Shadows

/-- The scope of a block that has declared the name shadows all the scopes around it. -/
theorem Frame.shadows_declare (frame : Frame) (name : String) (kind : CellKind) :
    (frame.pushScope.declare name kind).Shadows name 0 (frame.cellsOf name) where
  binds := ⟨Cell.fresh kind, by simp [cellsOf, pushScope, declare, Scope.declare, Scope.find?_bind]⟩
  beyond := rfl

namespace Store

variable {Body : Type} {store next : Store Body} {operation : Operation Body} {reply : Reply Body}
  {callers : List Frame} {name : String} {blocks : Nat} {outer : List (Option Cell)}

/-- A request that moves no scope does no more to the frames than to alter the current one. -/
theorem Granted.altered
    (granted : Granted store operation reply next)
    (stays : operation.movesScopes = false)
    {current : Frame}
    (active : store.stack.frames = current :: callers) :
    ∃ current', next.stack.frames = current' :: callers ∧ current.Altered current' := by
  have assignedTo {name : String} {value : Option Word} {assigned : Store Body}
      (isAssigned : store.assign? name value = some assigned) :
      ∃ current', assigned.stack.frames = current' :: callers ∧ current.Altered current' := by
    rcases assign?_eq_some isAssigned with inFrame | inGlobals
    · obtain ⟨current', callers', frame, activeToo, frameAssigned, rfl⟩ := inFrame
      rw [active] at activeToo
      cases activeToo
      exact ⟨frame, rfl, .assigned frameAssigned⟩
    · obtain ⟨_, globals, _, rfl⟩ := inGlobals
      exact ⟨current, active, .same⟩
  cases granted with
  | declareLocal activeToo =>
      rw [active] at activeToo
      cases activeToo
      exact ⟨_, rfl, .declared _ _⟩
  | declareGlobal outside =>
      rw [active] at outside
      contradiction
  | writeScalar found isInt assigned =>
      exact assignedTo assigned
  | copy found assigned =>
      exact assignedTo assigned
  | @allocate _ _ _ bound found isRef fits assigned =>
      have bound := assignedTo assigned
      rwa [(sameStorage_recount _).stack]
  | recount =>
      rw [(sameStorage_recount store).stack]
      exact ⟨current, active, .same⟩
  | pushScope | popScope | pushFrame | pushCallFrame | popFrame =>
      contradiction
  | _ =>
      exact ⟨current, active, .same⟩

/-- The current frame stands on these callers, and in it the name is shadowed. -/
def Shadows
    (store : Store Body) (callers : List Frame)
    (name : String) (blocks : Nat) (outer : List (Option Cell)) : Prop :=
  ∃ frame, store.stack.frames = frame :: callers ∧ frame.Shadows name blocks outer

namespace Shadows

theorem of_granted
    (shadows : store.Shadows callers name blocks outer)
    (granted : Granted store operation reply next)
    (stays : operation.movesScopes = false) :
    next.Shadows callers name blocks outer := by
  obtain ⟨frame, active, shadowing⟩ := shadows
  obtain ⟨frame', activeAfter, altered⟩ := granted.altered stays active
  exact ⟨frame', activeAfter, shadowing.of_altered altered⟩

theorem of_pushScope
    (shadows : store.Shadows callers name blocks outer)
    (granted : Granted store .pushScope reply next) :
    next.Shadows callers name (blocks + 1) outer := by
  obtain ⟨frame, active, shadowing⟩ := shadows
  cases granted with
  | pushScope activeToo =>
      rw [active] at activeToo
      cases activeToo
      exact ⟨frame.pushScope, rfl, shadowing.of_pushScope⟩

theorem of_popScope
    (shadows : store.Shadows callers name (blocks + 1) outer)
    (granted : Granted store .popScope reply next) :
    next.Shadows callers name blocks outer := by
  obtain ⟨frame, active, shadowing⟩ := shadows
  cases granted with
  | popScope activeToo popped =>
      rw [active] at activeToo
      cases activeToo
      refine ⟨_, ?_, shadowing.of_popScope? popped⟩
      rw [(sameStorage_endScopes _ _).stack]
      rfl

/-- The end of the block that shadows leaves the cells that were shadowed. -/
theorem cellsOf_popScope
    (shadows : store.Shadows callers name 0 outer)
    (granted : Granted store .popScope reply next) :
    ∃ frame : Frame,
      next.stack.frames = frame :: callers ∧ frame.scopes ≠ [] ∧ frame.cellsOf name = outer := by
  obtain ⟨frame, active, shadowing⟩ := shadows
  cases granted with
  | popScope activeToo popped =>
      rw [active] at activeToo
      cases activeToo
      obtain ⟨-, nonempty⟩ := Frame.popScope?_eq_some_iff.mp popped
      refine ⟨_, ?_, nonempty, shadowing.cellsOf_popScope? popped⟩
      rw [(sameStorage_endScopes _ _).stack]
      rfl

end Shadows

/-! ## Designated variables -/

/-- The cells of a name are found at its places. -/
theorem cellAt?_scope (store : Store Body) (frame depth : Nat) (name : String) :
    store.cellAt? (.scope frame depth) name =
      (store.cellsOf name)[frame]?.bind fun cells => cells[depth]?.join := by
  rw [cellAt?, scopeAt?, cellsOf, List.getElem?_map]
  cases store.stack.frames[frame]? with
  | none => rfl
  | some active =>
      simp only [Option.bind_some, Option.map_some, Frame.cellsOf, List.getElem?_map]
      cases active.scopes[depth]? <;> rfl

/-- The place of a variable depends on which scopes bind its name. -/
theorem place?_congr
    (sameCells : next.cellsOf name = store.cellsOf name)
    (sameGlobal : (next.globals.find? name).isSome = (store.globals.find? name).isSome) :
    next.place? name = store.place? name := by
  have binding (store : Store Body) :
      store.currentScopes.findIdx? (Scope.isBinding name) =
        ((store.cellsOf name).head?.getD []).findIdx? Option.isSome := by
    unfold currentScopes CallStack.current? cellsOf Frame.cellsOf Scope.isBinding
    cases store.stack.frames <;> simp [List.findIdx?_map, Function.comp_def]
  rw [place?, place?, binding, binding, sameCells, Scope.isBinding, Scope.isBinding, sameGlobal]

/-- A variable that keeps its place in a frame, and the cells of its name, keeps its cell. -/
theorem find?_of_sameCells
    (sameCells : next.cellsOf name = store.cellsOf name)
    (samePlace : next.place? name = store.place? name)
    (notGlobal : store.place? name ≠ some .globals) :
    next.find? name = store.find? name := by
  rw [find?_eq_cellAt?, find?_eq_cellAt?, samePlace]
  cases placed : store.place? name with
  | none => rfl
  | some place =>
      cases place with
      | globals => exact (notGlobal placed).elim
      | scope frame depth => simp only [Option.bind_some, cellAt?_scope, sameCells]

end Store

/-! ## Runs -/

section Run

variable {machine next : Machine} {callers : List Frame} {name : String} {blocks : Nat}
  {outer : List (Option Cell)}

/-- A request of a machine that moves no scope leaves the name shadowed. -/
private theorem Store.Requests.shadows
    {α : Type} {action : Store.Action (List Command) α}
    {operation : Operation (List Command)} {reply : α → Reply (List Command)}
    (requests : Store.Requests action operation reply)
    (stays : operation.movesScopes = false)
    (shadows : machine.store.Shadows callers name blocks outer)
    {value : α}
    (done : onStore action machine = .ok value next) :
    next.store.Shadows callers name blocks outer := by
  obtain ⟨store, granted, rfl⟩ := requests.onStore_granted done
  exact shadows.of_granted granted stays

/-- A command without a body leaves the name shadowed. -/
private theorem shadows_of_simple
    {command : Command}
    (simple : command.isSimple = true)
    (shadows : machine.store.Shadows callers name blocks outer)
    (done : execute [command] machine = .ok () next) :
    next.store.Shadows callers name blocks outer := by
  have isStep := simpleStep_of_isSimple simple
  generalize execute [command] = step, command.declaredKind? = declared at isStep done
  cases isStep with
  | request requests stays =>
      obtain ⟨_, between, answered, finished⟩ := bind_eq_ok_iff.mp done
      cases finished
      exact requests.shadows stays shadows answered
  | input read =>
      obtain ⟨value, between, taken, written⟩ := bind_eq_ok_iff.mp done
      have shadowsBetween := Store.requests_nextData.shadows rfl shadows taken
      exact (Store.requests_write read value).shadows rfl shadowsBetween written
  | print read =>
      obtain ⟨value, between, wasRead, emitted⟩ := bind_eq_ok_iff.mp done
      have shadowsBetween := (Store.requests_read read).shadows rfl shadows wasRead
      obtain ⟨store, printed, echo⟩ := between
      cases echo <;> cases emitted <;> exact shadowsBetween

/-- What is done in a frame of its own leaves the name shadowed, with all other frames. -/
private theorem shadows_of_framed
    {push : Store.Action (List Command) Unit}
    {operation : Operation (List Command)}
    (requests : Store.Requests push operation fun _ => .done)
    {function : String}
    (named : operation.frameName? = some function)
    {body : List Command}
    (shadows : machine.store.Shadows callers name blocks outer)
    (done :
      (do onStore push; execute body; onStore Store.popFrame) machine = .ok () next) :
    next.store.Shadows callers name blocks outer := by
  obtain ⟨frame, active, shadowing⟩ := shadows
  have sameFrames := (frames_of_framed requests named (fun _ _ => stackKept_of_execute) done).1
  exact ⟨frame, sameFrames.trans active, shadowing⟩

/-- Finished commands leave the name shadowed, whatever they do. -/
theorem shadows_of_execute
    {commands : List Command}
    (shadows : machine.store.Shadows callers name blocks outer)
    (done : execute commands machine = .ok () next) :
    next.store.Shadows callers name blocks outer := by
  induction commands, machine using execute_induction generalizing next blocks with
  | nil machine =>
      cases done
      exact shadows
  | cons command rest machine first later =>
      rw [execute_cons] at done
      obtain ⟨_, between, firstDone, laterDone⟩ := bind_eq_ok_iff.mp done
      exact later between firstDone (first shadows firstDone) laterDone
  | simple command machine simple =>
      exact shadows_of_simple simple shadows done
  | block body position machine inside =>
      rw [execute_block] at done
      obtain ⟨_, entered, pushed, restDone⟩ := bind_eq_ok_iff.mp done
      obtain ⟨_, between, bodyDone, popped⟩ := bind_eq_ok_iff.mp restDone
      obtain ⟨enteredStore, pushGranted, rfl⟩ := Store.requests_pushScope.onStore_granted pushed
      obtain ⟨nextStore, popGranted, rfl⟩ := Store.requests_popScope.onStore_granted popped
      exact (inside _ pushed (shadows.of_pushScope pushGranted) bodyDone).of_popScope popGranted
  | frame body position machine inside =>
      rw [execute_frame] at done
      exact shadows_of_framed Store.requests_pushFrame rfl shadows done
  | call called actuals position machine inside =>
      cases found : machine.store.functions.find? called with
      | none =>
          rw [execute_call_of_missing found] at done
          contradiction
      | some definition =>
          rw [execute_call_of_found found] at done
          exact shadows_of_framed
            (Store.requests_pushCallFrame called definition.formals actuals) rfl shadows done

/-- The block of a current frame that first declares a name keeps the cells around it. -/
private theorem cellsOf_of_shadowingBlock
    {current : Frame}
    (active : machine.store.stack.frames = current :: callers)
    {kind : CellKind} {body : List Command} {declared position : Position}
    (done : execute [.block (.declare kind name declared :: body) position] machine = .ok () next) :
    ∃ frame : Frame,
      next.store.stack.frames = frame :: callers ∧ frame.scopes ≠ [] ∧
        frame.cellsOf name = current.cellsOf name := by
  rw [execute_block, execute_cons, execute_declare] at done
  obtain ⟨_, entered, pushed, restDone⟩ := bind_eq_ok_iff.mp done
  obtain ⟨_, between, bodyDone, popped⟩ := bind_eq_ok_iff.mp restDone
  obtain ⟨_, declaring, isDeclared, bodyDone⟩ := bind_eq_ok_iff.mp bodyDone
  obtain ⟨enteredStore, pushGranted, rfl⟩ := Store.requests_pushScope.onStore_granted pushed
  obtain ⟨declaringStore, declareGranted, rfl⟩ :=
    (Store.requests_declare name kind).onStore_granted isDeclared
  obtain ⟨nextStore, popGranted, rfl⟩ := Store.requests_popScope.onStore_granted popped
  have shadows : declaringStore.Shadows callers name 0 (current.cellsOf name) := by
    cases pushGranted with
    | pushScope activeToo =>
        rw [active] at activeToo
        cases activeToo
        cases declareGranted with
        | declareLocal activeInside =>
            cases activeInside
            exact ⟨_, rfl, current.shadows_declare name kind⟩
        | declareGlobal outside =>
            cases outside
  exact (shadows_of_execute shadows bodyDone).cellsOf_popScope popGranted

end Run

/--
A block that first declares a name, and finishes, leaves all variables of the name in
the scopes around it as they were, with their kinds and raw values, scope by scope in
the current frame and in those of the callers. The rest of its body makes no
difference: it may allocate, assign, copy and read to the name, declare it again, in
blocks of its own too, enter frames and call any functions.

After the block, the name designates the variable that it designated before, or none
as before. If that is a variable of the frame, it has the same cell. If it is a global,
it has the same kind; it is not in a scope of the frame, and functions that the block
calls may assign to it.
-/
theorem shadowed_variables_survive_block
    {machine next : Machine}
    {name : String} {kind : CellKind} {body : List Command} {declared position : Position}
    (done : execute [.block (.declare kind name declared :: body) position] machine = .ok () next) :
    next.store.cellsOf name = machine.store.cellsOf name ∧
      next.store.place? name = machine.store.place? name ∧
      (machine.store.place? name ≠ some .globals →
        next.store.find? name = machine.store.find? name) ∧
      next.store.globals.kinds name = machine.store.globals.kinds name := by
  cases active : machine.store.stack.frames with
  | nil =>
      rw [execute_block] at done
      obtain ⟨_, entered, pushed, _⟩ := bind_eq_ok_iff.mp done
      obtain ⟨store, granted, rfl⟩ := Store.requests_pushScope.onStore_granted pushed
      cases granted with
      | pushScope activeToo =>
          rw [active] at activeToo
          contradiction
  | cons current callers =>
      obtain ⟨frame, activeAfter, nonempty, sameCells⟩ := cellsOf_of_shadowingBlock active done
      have hadScopes : current.scopes ≠ [] := by
        intro isEmpty
        simp [Frame.cellsOf, isEmpty] at sameCells
        exact nonempty sameCells
      have kept := stackKept_of_execute (Store.inScope_of_active active hadScopes) done
      obtain ⟨_, _, _, globals⟩ := kept.frames_of_active active
      have cells : next.store.cellsOf name = machine.store.cellsOf name := by
        rw [Store.cellsOf_of_active active, Store.cellsOf_of_active activeAfter, sameCells]
      have global := congrFun globals name
      have samePlace : next.store.place? name = machine.store.place? name := by
        apply Store.place?_congr cells
        simpa [Scope.kinds] using congrArg Option.isSome global
      exact ⟨cells, samePlace, Store.find?_of_sameCells cells samePlace, global⟩

/-- A script that is abandoned in a frame with a variable of the same name as a global. -/
def overshadowedScript : List Command :=
  [.function "again" ["x"]
      [.function "again" ["x"] [.assign "x" 9 ⟨3, 5⟩] ⟨2, 3⟩, .call "again" ["x"] ⟨4, 3⟩]
      ⟨1, 1⟩,
    .declare .int "x" ⟨5, 1⟩,
    .frame
      [.declare .ref "x" ⟨7, 3⟩, .allocate "x" ⟨8, 3⟩, .assign "x" 4 ⟨9, 3⟩, .print "y" ⟨10, 3⟩]
      ⟨6, 1⟩]

/-- The machine that it leaves, with a literal to be read. -/
def overshadowedMachine : Machine :=
  leaves (runScript overshadowedScript)
    (Machine.onStore ((Store.initial Settings.standard).withInput (.ofLiterals #[5])))

/-- What a block can do to a name, after it has declared it. -/
def shadowingBody : List Command :=
  [.input "x" ⟨2, 3⟩, .declare .ref "x" ⟨3, 3⟩, .allocate "x" ⟨4, 3⟩,
    .block [.declare .ref "x" ⟨6, 5⟩, .allocate "x" ⟨7, 5⟩, .copy "x" "x" ⟨8, 5⟩] ⟨5, 3⟩,
    .frame [.assign "x" 7 ⟨10, 5⟩] ⟨9, 3⟩, .call "again" ["x"] ⟨11, 3⟩]

/-- It leaves the variable of the frame, while the frame in the block assigns to the global. -/
theorem overshadowed_variable_survives :
    ∃ next,
      execute [.block (.declare .int "x" ⟨1, 3⟩ :: shadowingBody) ⟨1, 1⟩] overshadowedMachine =
          .ok () next ∧
        next.store.globals.find? "x" = some ⟨.int, some 7⟩ ∧
        next.store.find? "x" = some ⟨.ref, some 0⟩ ∧
        next.store.cellsOf "x" = overshadowedMachine.store.cellsOf "x" ∧
        next.store.place? "x" = overshadowedMachine.store.place? "x" := by
  have isFinished :
      finishes (execute [.block (.declare .int "x" ⟨1, 3⟩ :: shadowingBody) ⟨1, 1⟩])
        overshadowedMachine = true := by
    decide +kernel
  have global :
      (leaves (execute [.block (.declare .int "x" ⟨1, 3⟩ :: shadowingBody) ⟨1, 1⟩])
        overshadowedMachine).store.globals.find? "x" = some ⟨.int, some 7⟩ := by
    decide +kernel
  have placed : overshadowedMachine.store.place? "x" = some (.scope 0 0) := by
    decide +kernel
  have found : overshadowedMachine.store.find? "x" = some ⟨.ref, some 0⟩ := by
    decide +kernel
  obtain ⟨_, next, done⟩ := exists_ok_of_finishes isFinished
  rw [leaves_of_ok done] at global
  obtain ⟨sameCells, samePlace, sameCell, _⟩ := shadowed_variables_survive_block done
  refine ⟨next, done, global, ?_, sameCells, samePlace⟩
  rw [sameCell (by rw [placed]; decide), found]

end RefScript
