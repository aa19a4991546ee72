import RefScript.Proofs.Execution.Equivariance

namespace RefScript

/-!
# Variables that do not matter

The variables of a name that no command uses make no difference to a run. It is
the same on a machine from which they are left out, and therefore also on one
where they have other kinds or values, or where others of them are bound.
-/

/-! ## Leaving out a name -/

/-- The scope without the variable of a name. -/
def Scope.without (name : String) (scope : Scope) : Scope :=
  ⟨scope.cells.erase name⟩

theorem Scope.find?_without (scope : Scope) (name other : String) :
    (scope.without name).find? other = if other = name then none else scope.find? other := by
  simp only [without, find?, Std.ExtTreeMap.getElem?_erase, Std.LawfulEqOrd.compare_eq_iff_eq]
  by_cases same : other = name
  · rw [if_pos same, if_pos same.symm]
  · rw [if_neg same, if_neg (Ne.symm same)]

/-- The frame without the variables of a name. -/
def Frame.without (name : String) (frame : Frame) : Frame :=
  { frame with scopes := frame.scopes.map (.without name) }

/-- The store without the variables of a name: neither a global nor any in a frame. -/
def Store.without {Body : Type} (name : String) (store : Store Body) : Store Body :=
  { store with
    globals := store.globals.without name
    stack := CallStack.ofFrames (store.stack.frames.map (.without name)) }

/-- The machine without the variables of a name. -/
def Machine.without (name : String) (machine : Machine) : Machine :=
  { machine with store := machine.store.without name }

theorem Machine.without_without (name : String) (machine : Machine) :
    (machine.without name).without name = machine.without name := by
  have sameScope (scope : Scope) : (scope.without name).without name = scope.without name := by
    refine Scope.ext fun other => ?_
    simp only [Scope.find?_without]
    split <;> rfl
  have sameFrame (frame : Frame) : (frame.without name).without name = frame.without name := by
    simp only [Frame.without, List.map_map, Function.comp_def, sameScope]
  simp only [Machine.without, Store.without, CallStack.ofFrames, List.map_map,
    Function.comp_def, sameScope, sameFrame]

/-- All names stay the same, and the variables of one name are not shown. -/
def Naming.hidden (name : String) : Naming :=
  .showing fun other => other != name

variable {name : String}

theorem Scope.rename_hidden (scope : Scope) : scope.rename (.hidden name) = scope.without name := by
  refine ext fun other => ?_
  rw [find?_without]
  by_cases same : other = name
  · rw [if_pos same]
    refine find?_rename_of_unused fun shown isShown => ?_
    have sameShown : other = shown := Naming.keepsNames_showing isShown
    simp [Naming.hidden, Naming.showing, ← sameShown, same] at isShown
  · have isShown : (Naming.hidden name).shown? other = some other := by
      simp [Naming.hidden, Naming.showing, same]
    rw [if_neg same, find?_rename_of_shown isShown]

theorem Frame.rename_hidden (frame : Frame) : frame.rename (.hidden name) = frame.without name := by
  have sameScopes : Scope.rename (.hidden name) = Scope.without name :=
    funext Scope.rename_hidden
  rw [rename, sameScopes]
  rfl

/-- To leave the variables of a name out is to hide them. -/
theorem Machine.rename_hidden (machine : Machine) :
    machine.rename (.hidden name) = machine.without name := by
  have sameFrames : Frame.rename (.hidden name) = Frame.without name :=
    funext Frame.rename_hidden
  have sameFunctions : machine.store.functions.rename (.hidden name) = machine.store.functions :=
    machine.store.functions.rename_showing
  have sameStack :
      machine.store.stack.rename (.hidden name) =
        CallStack.ofFrames (machine.store.stack.frames.map (.without name)) :=
    CallStack.ext (by rw [← sameFrames]; rfl)
  unfold rename without Store.rename Store.without
  rw [Scope.rename_hidden, sameStack, sameFunctions]

/-- What is there without the variables of the name is all there is otherwise. -/
theorem Machine.renamed_hidden_iff {machine other : Machine} :
    machine.Renamed (.hidden name) True other ↔ other = machine.without name := by
  rw [renamed_inOrder_iff, rename_hidden]

/-! ## Runs -/

/-- The commands ignore a name with or without its variables. -/
theorem ignores_without_iff {commands : List Command} {machine : Machine} :
    Ignores name commands (machine.without name) ↔ Ignores name commands machine := by
  have sameScopes :
      (∀ frame ∈ (machine.without name).store.stack.frames, frame.scopes ≠ []) ↔
        ∀ frame ∈ machine.store.stack.frames, frame.scopes ≠ [] := by
    simp [Machine.without, Store.without, CallStack.ofFrames, Frame.without]
  constructor
  · rintro ⟨unused, unmentioned, framesScoped⟩
    exact ⟨unused, unmentioned, sameScopes.mp framesScoped⟩
  · rintro ⟨unused, unmentioned, framesScoped⟩
    exact ⟨unused, unmentioned, sameScopes.mpr framesScoped⟩

/-- A script that ignores a name has the same outcome without its variables. -/
theorem sameOutcome_without
    {commands : List Command} {machine : Machine}
    (ignores : Ignores name commands machine) :
    SameOutcome (fun next next' => next' = next.without name)
      (runScript commands machine) (runScript commands (machine.without name)) := by
  have hides : (Naming.hidden name).HidesIgnored commands machine := by
    intro other hidden
    have same : other = name := by
      by_contra distinct
      exact hidden (Naming.shows_showing (bne_iff_ne.mpr distinct))
    rwa [same]
  have outcome :=
    renamedOutcome_runScript (fun _ => Naming.keepsNames_showing) hides
      (Machine.renamed_hidden_iff.mpr rfl)
  rw [Naming.commands_showing] at outcome
  exact (outcome.sameOutcome Naming.name_showing rfl).imp Machine.renamed_hidden_iff.mp

/--
A script and functions that do not mention a name, on a machine whose frames have
scopes. However the run ends, the variables of the name are still there, with the
same cells. On any machine that differs in such variables only, be it that they
are missing, the outcome is the same and what is left differs in them only.
-/
theorem unused_variables_do_not_matter
    {commands : List Command} {machine : Machine}
    (ignores : Ignores name commands machine) :
    Store.KeepsCells name machine.store (leaves (runScript commands) machine).store ∧
      ∀ other,
        other.without name = machine.without name →
          SameOutcome (fun next next' => next'.without name = next.without name)
            (runScript commands machine) (runScript commands other) := by
  refine ⟨(spares_runScript_of_ignores ignores).kept, fun other same => ?_⟩
  have ignoresToo : Ignores name commands other := by
    rw [← ignores_without_iff, same, ignores_without_iff]
    exact ignores
  have first := sameOutcome_without ignores
  have second := sameOutcome_without ignoresToo
  rw [same] at second
  generalize runScript commands (machine.without name) = bare at first second
  generalize runScript commands machine = outcome, runScript commands other = outcome'
    at first second
  cases first with
  | ok after =>
      cases second with
      | ok afterToo => exact .ok (afterToo.symm.trans after)
  | error after =>
      cases second with
      | error afterToo => exact .error (afterToo.symm.trans after)

/--
A machine on which a global holds the handle that the next slot will have, and
a local of the same name stands in a frame of its own.
-/
def bystanderMachine : Machine :=
  Machine.onStore
    { (Store.initial Settings.standard : Store (List Command)) with
      globals := Scope.empty.bind "z" ⟨.ref, some 0⟩
      stack := CallStack.ofFrames [⟨"main", [Scope.empty.bind "z" ⟨.int, some 7⟩]⟩]
      functions := FunctionTable.empty.register "set" ["p"] [.assign "p" 1 ⟨1, 1⟩] }

/-- A script that takes that slot, hands it on and prints what is in it. -/
def slotScript : List Command :=
  [.frame
    [.declare .ref "r" ⟨1, 1⟩, .allocate "r" ⟨2, 1⟩, .call "set" ["r"] ⟨3, 1⟩,
      .print "r" ⟨4, 1⟩]
    ⟨1, 1⟩]

/-- Without the variables that hold it, or held it, the script does the same. -/
theorem slotScript_without_bystanders :
    Ignores "z" slotScript bystanderMachine ∧
      Store.KeepsCells "z" bystanderMachine.store
        (leaves (runScript slotScript) bystanderMachine).store ∧
      SameOutcome (fun next next' => next'.without "z" = next.without "z")
        (runScript slotScript bystanderMachine)
        (runScript slotScript (bystanderMachine.without "z")) := by
  have ignores : Ignores "z" slotScript bystanderMachine := by
    refine ⟨by decide, fun name definition found => ?_, ?_⟩
    · have registered :=
        (FunctionTable.find?_register FunctionTable.empty "set" name ["p"]
          [Command.assign "p" 1 ⟨1, 1⟩]).symm.trans found
      split at registered
      · cases registered
        decide
      · simp [FunctionTable.find?, FunctionTable.empty] at registered
    · simp [bystanderMachine, Machine.onStore, CallStack.ofFrames]
  obtain ⟨kept, unaffected⟩ := unused_variables_do_not_matter ignores
  exact ⟨ignores, kept, unaffected _ (Machine.without_without "z" bystanderMachine)⟩

end RefScript
