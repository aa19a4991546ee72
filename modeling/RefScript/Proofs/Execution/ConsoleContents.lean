import RefScript.Proofs.Execution.Reporting

namespace RefScript

/-!
# What the console shows

A machine may keep what it prints and reports to itself, in a list each, or write
both to the console as they come. Line by line the console then shows the printed
values and the reported counts, each in order; or the printed values alone, if the
reports are silent.
-/

namespace ConsoleLine

/-- The printed value that a line shows. -/
def printed? : ConsoleLine → Option Word
  | printed value => some value
  | liveCount _ => none

/-- The reported count that a line shows. -/
def liveCount? : ConsoleLine → Option Nat
  | printed _ => none
  | liveCount count => some count

/-- Lines none of which shows a count, show the printed values and nothing else. -/
theorem eq_map_printed
    {lines : List ConsoleLine}
    (noCount : lines.filterMap liveCount? = []) :
    lines = (lines.filterMap printed?).map .printed := by
  induction lines with
  | nil => rfl
  | cons line rest inductionHypothesis =>
      cases line with
      | printed value => exact congrArg (.printed value :: ·) (inductionHypothesis noCount)
      | liveCount count => cases noCount

end ConsoleLine

/--
The one machine keeps what it prints and reports, the other one writes it to the
console, apart from the reports if it is to be quiet. All else is the same.
-/
structure ShownBy (quiet : Bool) (keeping showing : Machine) : Prop where
  same : keeping.store.SameBesidesReports showing.store
  printed : showing.printed = keeping.printed
  keeps : keeping.echo = false
  shows : showing.echo = true
  buffers : ∃ counts, keeping.store.reporter = .buffer counts
  reporter : showing.store.reporter = if quiet then .silent else .console
  values : showing.store.console.toList.filterMap ConsoleLine.printed? = keeping.printed.toList
  counts :
    showing.store.console.toList.filterMap ConsoleLine.liveCount? =
      if quiet then [] else keeping.store.reporter.captured.toList

namespace ShownBy

variable {quiet : Bool} {keeping showing : Machine}

/-- A report that is kept in the one store is shown by the other one, if it is not quiet. -/
theorem after_report
    {report : Option Nat}
    (shown : ShownBy quiet keeping showing)
    {store store' : Store (List Command)}
    (same : store.SameBesidesReports store')
    (reported : Store.Reported report keeping.store store)
    (reportedToo : Store.Reported report showing.store store') :
    ShownBy quiet { keeping with store := store } { showing with store := store' } := by
  obtain ⟨_, printed, keeps, shows, ⟨buffered, buffers⟩, reporter, values, counts⟩ := shown
  cases report with
  | none =>
      have sameReporter : store.reporter = keeping.store.reporter := reported.reporter
      have sameReporterToo : store'.reporter = showing.store.reporter := reportedToo.reporter
      have sameConsole : store'.console = showing.store.console := reportedToo.console
      rw [← sameReporter] at buffers counts
      rw [← sameReporterToo] at reporter
      rw [← sameConsole] at values counts
      exact ⟨same, printed, keeps, shows, ⟨buffered, buffers⟩, reporter, values, counts⟩
  | some count =>
      have noted : store.reporter = keeping.store.reporter.notify count := reported.reporter
      have notedToo : store'.reporter = showing.store.reporter.notify count := reportedToo.reporter
      have console :
          store'.console =
            showing.store.console ++ showing.store.reporter.consoleLines count :=
        reportedToo.console
      rw [buffers] at noted counts
      rw [reporter] at notedToo console
      refine ⟨same, printed, keeps, shows, ⟨_, noted⟩, ?_, ?_, ?_⟩
      · rw [notedToo]
        cases quiet <;> rfl
      · rw [console]
        cases quiet <;>
          simpa [Reporter.consoleLines, ConsoleLine.printed?, List.filterMap_cons] using values
      · rw [console, noted]
        cases quiet <;>
          simpa [Reporter.consoleLines, Reporter.notify, Reporter.captured, ConsoleLine.liveCount?,
            List.filterMap_cons] using counts

/-- A printed value is kept in the one machine, and shown by the other one too. -/
theorem after_print
    (shown : ShownBy quiet keeping showing)
    (value : Word) :
    ShownBy quiet (leaves (emit value) keeping) (leaves (emit value) showing) := by
  obtain ⟨same, printed, keeps, shows, buffers, reporter, values, counts⟩ := shown
  obtain ⟨store, printed, echo⟩ := keeping
  obtain ⟨store', printed', echo'⟩ := showing
  dsimp only at same printed keeps shows buffers reporter values counts
  subst printed keeps shows
  obtain ⟨globals, heap, liveness, stack, functions, strays, input, maxCallDepth⟩ := same
  refine ⟨⟨globals, heap, liveness, stack, functions, strays, input, maxCallDepth⟩, rfl, rfl, rfl,
    buffers, reporter, ?_, ?_⟩
  · simpa [leaves, emit, ConsoleLine.printed?, List.filterMap_cons] using values
  · simpa [leaves, emit, ConsoleLine.liveCount?, List.filterMap_cons] using counts

/-- Such machines are in lockstep. -/
theorem lockstep (quiet : Bool) : Lockstep (ShownBy quiet) where
  functions shown := shown.same.functions
  granted shown granted := by
    obtain ⟨report, store', grantedToo, same, reported, reportedToo⟩ :=
      granted.besidesReports shown.same
    exact ⟨store', grantedToo, shown.after_report same reported reportedToo⟩
  refused shown refused := refused.besidesReports shown.same
  print value shown := shown.after_print value

end ShownBy

end RefScript
