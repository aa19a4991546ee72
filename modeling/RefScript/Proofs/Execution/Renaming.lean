import Mathlib.Logic.Equiv.Basic
import RefScript.Proofs.Execution.ReleaseOrder

namespace RefScript

/-!
# Names do not matter

The names of variables and functions can be exchanged for others throughout a
script and the machine that it runs on, as long as different ones stay different.
The run is the same but for the names. In particular nothing depends on how names
are ordered, or on the order in which the cells of a scope are gone through.
-/

/-- The renaming of variables and of functions by given functions. -/
def Naming.ofInjective
    {names functions : String → String}
    (namesInjective : Function.Injective names)
    (functionsInjective : Function.Injective functions)
    (keepsBlock : functions Store.blockFrameName = Store.blockFrameName) :
    Naming where
  shown? name := some (names name)
  function := functions
  place := id
  shown_injective isFirst isSecond :=
    namesInjective (Option.some.inj (isFirst.trans isSecond.symm))
  function_injective same := functionsInjective same
  function_block := keepsBlock

/--
A script under other names, on a machine under these names. It finishes if the
script does, and meets the same fault if that does, with its names renamed. The
machine that it leaves is the one left by the script, renamed, but that stray
references may have been noted in another order.

That the references of a scope are released in the order of the names does not
matter any more than that. The run is one of those in which each scope and frame
releases them in some order, and all of these have the same outcome.
-/
theorem runs_do_not_depend_on_names
    {names functions : String → String}
    (namesInjective : Function.Injective names)
    (functionsInjective : Function.Injective functions)
    (keepsBlock : functions Store.blockFrameName = Store.blockFrameName)
    (commands : List Command)
    (machine : Machine) :
    RenamedOutcome
        (.ofInjective namesInjective functionsInjective keepsBlock)
        (fun next next' =>
          (next.rename (.ofInjective namesInjective functionsInjective
            keepsBlock)).SameButStrayOrder next')
        (runScript commands machine)
        (runScript (renameAll names functions id commands)
          (machine.rename (.ofInjective namesInjective functionsInjective keepsBlock))) ∧
      RunsInSomeOrder (functionsFirst commands) machine (runScript commands machine) ∧
        ∀ outcome,
          RunsInSomeOrder (functionsFirst commands) machine outcome →
            SameOutcome Machine.SameButStrayOrder (runScript commands machine) outcome := by
  refine ⟨?_, ?_, fun outcome runs => ?_⟩
  · generalize isNaming :
      Naming.ofInjective namesInjective functionsInjective keepsBlock = naming
    have hides : naming.HidesIgnored commands machine := by
      intro name hidden
      subst isNaming
      exact (hidden rfl).elim
    have sameCommands : renameAll names functions id commands = naming.commands commands := by
      subst isNaming
      rfl
    have renamed : machine.Renamed naming False (machine.rename naming) :=
      Machine.renamed_iff.mpr (.refl _)
    rw [sameCommands]
    refine (renamedOutcome_runScript False.elim hides renamed).imp ?_
    exact fun _ _ => Machine.renamed_iff.mp
  · rw [runScript_eq]
    exact runsInSomeOrder_execute (functionsFirst commands) machine
  · rw [runScript_eq]
    exact runs.sameOutcome (.refl machine)

/-- A script that is abandoned in a call runs alike with its two variables exchanged. -/
theorem abandonedScript_under_exchanged_names :
    ∃ (namesInjective : Function.Injective (Equiv.swap "p" "x"))
      (functionsInjective : Function.Injective (Equiv.swap "show" "main"))
      (keepsBlock : Equiv.swap "show" "main" Store.blockFrameName = Store.blockFrameName),
      let naming := Naming.ofInjective namesInjective functionsInjective keepsBlock
      RenamedOutcome naming
        (fun next next' => (next.rename naming).SameButStrayOrder next')
        (runScript abandonedScript abandonedMachine)
        (runScript
          (renameAll (Equiv.swap "p" "x") (Equiv.swap "show" "main") id abandonedScript)
          (abandonedMachine.rename naming)) := by
  have keepsBlock : Equiv.swap "show" "main" Store.blockFrameName = Store.blockFrameName :=
    Equiv.swap_apply_of_ne_of_ne (by decide) (by decide)
  exact ⟨Equiv.injective _, Equiv.injective _, keepsBlock,
    (runs_do_not_depend_on_names (Equiv.injective _) (Equiv.injective _) keepsBlock
      abandonedScript abandonedMachine).1⟩

end RefScript
