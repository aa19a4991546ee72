import RefScript.Proofs.Execution.Equivariance
import RefScript.Proofs.Script.Grammar

namespace RefScript

/-!
# The layout of a script

It does not matter where among the commands of a script its functions are declared,
nor where anything stands in the text: the functions are registered first, in their
order, and positions are in the bodies that are stored and nowhere else. Of two
functions with different names, it does not matter either which one comes first.

That holds of the commands of the script itself. A function that is declared in a
body is registered when the body has come to the declaration, and not before.
-/

/-! ## Positions -/

/-- All names stay the same, and all positions are given up. -/
def Naming.unplaced : Naming where
  shown? := some
  function name := name
  place _ := .first
  shown_injective isFirst isSecond := Option.some.inj (isFirst.trans isSecond.symm)
  function_injective same := same
  function_block := rfl

theorem Naming.keepsNames_unplaced : Naming.unplaced.KeepsNames :=
  fun isShown => (Option.some.inj isShown).symm

theorem Naming.shows_unplaced (name : String) : Naming.unplaced.Shows name :=
  rfl

mutual

theorem Command.rename_unplaced (command : Command) :
    command.rename id id (fun _ => .first) = command.unplaced := by
  cases command with
  | block body position | frame body position | function name formals body position =>
      simp only [Command.rename, Command.unplaced, renameAll_unplaced body, List.map_id, id]
  | _ =>
      simp only [Command.rename, Command.unplaced, List.map_id, id]

theorem renameAll_unplaced (commands : List Command) :
    renameAll id id (fun _ => .first) commands = unplacedAll commands := by
  cases commands with
  | nil => rfl
  | cons command rest =>
      rw [renameAll, unplacedAll, command.rename_unplaced, renameAll_unplaced rest]

end

theorem unplacedAll_append (commands later : List Command) :
    unplacedAll (commands ++ later) = unplacedAll commands ++ unplacedAll later := by
  induction commands with
  | nil => rfl
  | cons command rest inductionHypothesis =>
      rw [List.cons_append, unplacedAll, inductionHypothesis, unplacedAll, List.cons_append]

/-- The function without the positions in its body. -/
def FunctionDef.unplaced (definition : FunctionDef (List Command)) :
    FunctionDef (List Command) :=
  { definition with body := unplacedAll definition.body }

namespace Machine

/-- The machines are the same but for positions in the bodies of their functions. -/
structure SameButPositions (machine other : Machine) : Prop where
  functions : ∀ name,
    (other.store.functions.find? name).map FunctionDef.unplaced =
      (machine.store.functions.find? name).map FunctionDef.unplaced
  others : other = machine.withFunctions other.store.functions

theorem rename_unplaced (machine : Machine) :
    machine.rename .unplaced =
      machine.withFunctions (machine.store.functions.rename .unplaced) :=
  rename_of_keepsNames Naming.keepsNames_unplaced Naming.shows_unplaced rfl machine

/-- A function of the machine without positions is one of the machine, without positions. -/
theorem find?_rename_unplaced (machine : Machine) (name : String) :
    (machine.rename .unplaced).store.functions.find? name =
      (machine.store.functions.find? name).map FunctionDef.unplaced := by
  have isUnplaced : FunctionDef.rename .unplaced = FunctionDef.unplaced := by
    funext definition
    exact congrArg₂ (FunctionDef.mk definition.name) (List.map_id _)
      (renameAll_unplaced definition.body)
  rw [← isUnplaced]
  exact machine.store.functions.find?_rename name

/-- The machines are the same without any positions. -/
theorem sameButPositions_iff {machine other : Machine} :
    machine.SameButPositions other ↔ other.rename .unplaced = machine.rename .unplaced := by
  constructor
  · rintro ⟨sameFunctions, others⟩
    have sameTable :
        other.store.functions.rename .unplaced = machine.store.functions.rename .unplaced := by
      refine FunctionTable.ext fun name => ?_
      exact (other.find?_rename_unplaced name).trans
        ((sameFunctions name).trans (machine.find?_rename_unplaced name).symm)
    rw [rename_unplaced, rename_unplaced, sameTable, others]
    rfl
  · intro same
    refine ⟨fun name => ?_, ?_⟩
    · rw [← find?_rename_unplaced, ← find?_rename_unplaced, same]
    · rw [rename_unplaced, rename_unplaced] at same
      have restored :=
        congrArg (fun left : Machine => left.withFunctions other.store.functions) same
      exact restored

theorem SameButPositions.refl (machine : Machine) : machine.SameButPositions machine :=
  ⟨fun _ => rfl, rfl⟩

end Machine

/-- A script has the same outcome without any positions. -/
theorem sameOutcome_unplaced (commands : List Command) (machine : Machine) :
    SameOutcome (fun next next' => next' = next.rename .unplaced)
      (runScript commands machine)
      (execute (unplacedAll (functionsFirst commands)) (machine.rename .unplaced)) := by
  have hides : Naming.unplaced.HidesIgnored (functionsFirst commands) machine :=
    fun name hidden => (hidden (Naming.shows_unplaced name)).elim
  have outcome :=
    renamedOutcome_execute (fun _ => Naming.keepsNames_unplaced) hides
      (Machine.renamed_inOrder_iff.mpr rfl)
  have sameCommands :
      Naming.unplaced.commands (functionsFirst commands) =
        unplacedAll (functionsFirst commands) :=
    renameAll_unplaced _
  rw [sameCommands] at outcome
  rw [runScript_eq]
  exact (outcome.sameOutcome rfl rfl).imp Machine.renamed_inOrder_iff.mp

/--
Scripts that declare the same functions in the same order, and have the same other
commands in the same order, run alike on machines that are alike.
-/
theorem sameOutcome_of_sameParts
    {commands rearranged : List Command} {machine other : Machine}
    (sameFunctions :
      unplacedAll (rearranged.filter Command.isFunction) =
        unplacedAll (commands.filter Command.isFunction))
    (sameOthers :
      unplacedAll (rearranged.filter fun command => !command.isFunction) =
        unplacedAll (commands.filter fun command => !command.isFunction))
    (same : machine.SameButPositions other) :
    SameOutcome Machine.SameButPositions
      (runScript commands machine) (runScript rearranged other) := by
  have inOrder :
      unplacedAll (functionsFirst rearranged) = unplacedAll (functionsFirst commands) := by
    rw [functionsFirst, unplacedAll_append, sameFunctions, sameOthers, ← unplacedAll_append,
      functionsFirst]
  have first := sameOutcome_unplaced commands machine
  have second := sameOutcome_unplaced rearranged other
  rw [inOrder, Machine.sameButPositions_iff.mp same] at second
  exact (first.of_view second).imp Machine.sameButPositions_iff.mpr

/-! ## Functions of a script -/

/-- The last function of a name that is declared by one of the commands, not by one in a body. -/
def lastDefinition? (commands : List Command) (name : String) :
    Option (FunctionDef (List Command)) :=
  ((commands.filterMap Command.definition?).filter
    fun definition => definition.name = name).getLast?

namespace FunctionTable

variable (table : FunctionTable (List Command))

theorem registerAll_append (commands later : List Command) :
    table.registerAll (commands ++ later) = (table.registerAll commands).registerAll later := by
  rw [registerAll, List.filterMap_append, List.foldl_append, registerAll, registerAll]

/-- A function that is declared again replaces the earlier one. -/
theorem find?_registerAll (commands : List Command) (name : String) :
    (table.registerAll commands).find? name =
      (lastDefinition? commands name).or (table.find? name) := by
  induction commands generalizing table with
  | nil => rfl
  | cons command rest inductionHypothesis =>
      cases command with
      | function declared formals body position =>
          have rest := inductionHypothesis (table.register declared formals body)
          refine rest.trans ?_
          rw [find?_register, lastDefinition?, lastDefinition?]
          by_cases sameName : declared = name
          · simp [Command.definition?, sameName, List.getLast?_cons]
          · simp [Command.definition?, sameName]
      | _ => exact inductionHypothesis table

/-- Functions of different names can be registered in either order. -/
theorem register_comm
    {name other : String}
    (distinct : name ≠ other)
    (formals formals' : List String) (body body' : List Command) :
    (table.register name formals body).register other formals' body' =
      (table.register other formals' body').register name formals body := by
  refine ext fun lookedUp => ?_
  simp only [find?_register]
  by_cases isName : name = lookedUp
  · subst isName
    rw [if_neg distinct.symm, if_pos rfl, if_pos rfl]
  · rw [if_neg isName, if_neg isName]

end FunctionTable

/-- The order of two functions of different names makes no difference. -/
theorem runScript_exchange
    {name other : String}
    (distinct : name ≠ other)
    (before after : List Command) (formals formals' : List String) (body body' : List Command)
    (position position' : Position) (machine : Machine) :
    runScript
        (before ++ .function name formals body position ::
          .function other formals' body' position' :: after)
        machine =
      runScript
        (before ++ .function other formals' body' position' ::
          .function name formals body position :: after)
        machine := by
  have sameTable (table : FunctionTable (List Command)) :
      table.registerAll
          (.function name formals body position ::
            .function other formals' body' position' :: after) =
        table.registerAll
          (.function other formals' body' position' ::
            .function name formals body position :: after) :=
    congrArg (FunctionTable.registerAll · after)
      (table.register_comm distinct formals formals' body body')
  rw [runScript_apply, runScript_apply, FunctionTable.registerAll_append, sameTable,
    ← FunctionTable.registerAll_append]
  simp only [List.filter_append, List.filter_cons, Command.isFunction, Bool.not_true,
    Bool.false_eq_true, ↓reduceIte]

/-- A declaration among commands that are executed takes effect there. -/
theorem execute_declaration
    (name : String) (formals : List String) (body : List Command) (position : Position)
    (rest : List Command) (machine : Machine) :
    execute (.function name formals body position :: rest) machine =
      execute rest
        (machine.withFunctions (machine.store.functions.register name formals body)) := by
  rw [execute_cons, execute_function]
  rfl

/--
Two scripts that, without their positions, have the same functions and the same other
commands, each in the same order. However these are mixed, the scripts run alike on
any machine: they finish or meet the same fault, and leave machines that are the same
but for positions in the bodies of functions.

Two functions of different names, one right after the other in a script, can be
exchanged without any difference.

No other functions than those of the script itself are there when its first other
command is executed, by each name the last one, besides those that the machine had
before. A function that is declared in a body is registered where that is executed.
-/
theorem placement_of_functions_does_not_matter
    {commands rearranged : List Command}
    (sameFunctions :
      unplacedAll (rearranged.filter Command.isFunction) =
        unplacedAll (commands.filter Command.isFunction))
    (sameOthers :
      unplacedAll (rearranged.filter fun command => !command.isFunction) =
        unplacedAll (commands.filter fun command => !command.isFunction))
    (machine : Machine) :
    SameOutcome Machine.SameButPositions
        (runScript commands machine) (runScript rearranged machine) ∧
      (∀ before after name formals body position other formals' body' position',
        name ≠ other →
          runScript
              (before ++ .function name formals body position ::
                .function other formals' body' position' :: after)
              machine =
            runScript
              (before ++ .function other formals' body' position' ::
                .function name formals body position :: after)
              machine) ∧
      (∃ functions,
        runScript commands machine =
            execute (commands.filter fun command => !command.isFunction)
              (machine.withFunctions functions) ∧
          ∀ name,
            functions.find? name =
              (lastDefinition? commands name).or (machine.store.functions.find? name)) ∧
      ∀ name formals body position rest,
        execute (.function name formals body position :: rest) machine =
          execute rest
            (machine.withFunctions (machine.store.functions.register name formals body)) := by
  refine ⟨sameOutcome_of_sameParts sameFunctions sameOthers (.refl machine), ?_, ?_, ?_⟩
  · intro before after name formals body position other formals' body' position' distinct
    exact runScript_exchange distinct before after formals formals' body body' position position'
      machine
  · exact ⟨_, runScript_apply commands machine,
      machine.store.functions.find?_registerAll commands⟩
  · intro name formals body position rest
    exact execute_declaration name formals body position rest machine

/-- A script that calls functions before it declares them. One of them declares the other anew. -/
def scatteredScript : List Command :=
  [.declare .int "x" ⟨1, 1⟩, .call "show" [] ⟨2, 1⟩,
    .function "renew" [] [.function "show" [] [.assign "x" 7 ⟨5, 5⟩, .print "x" ⟨6, 5⟩] ⟨4, 3⟩]
      ⟨3, 1⟩,
    .call "renew" [] ⟨9, 1⟩,
    .function "show" [] [.assign "x" 5 ⟨11, 3⟩, .print "x" ⟨12, 3⟩] ⟨10, 1⟩,
    .call "show" [] ⟨14, 1⟩]

/-- The same with the functions in front, on other lines. -/
def gatheredScript : List Command :=
  [.function "renew" [] [.function "show" [] [.assign "x" 7 ⟨3, 9⟩, .print "x" ⟨4, 9⟩] ⟨2, 5⟩]
      ⟨1, 1⟩,
    .function "show" [] [.assign "x" 5 ⟨8, 5⟩, .print "x" ⟨9, 5⟩] ⟨7, 1⟩,
    .declare .int "x" ⟨11, 1⟩, .call "show" [] ⟨12, 1⟩, .call "renew" [] ⟨13, 1⟩,
    .call "show" [] ⟨14, 1⟩]

/-- The machine that both are run on. -/
def layoutMachine : Machine :=
  Machine.onStore (Store.initial Settings.standard)

/-- Both call the function declared at the end first, then the one declared in a body. -/
theorem scatteredScript_runs_like_gatheredScript :
    SameOutcome Machine.SameButPositions
        (runScript scatteredScript layoutMachine) (runScript gatheredScript layoutMachine) ∧
      (leaves (runScript gatheredScript) layoutMachine).printed = #[5, 7] := by
  refine ⟨(placement_of_functions_does_not_matter ?_ ?_ layoutMachine).1, ?_⟩
  · rfl
  · rfl
  · decide +kernel

end RefScript
