import RefScript.Word

namespace RefScript

/-!
# Reports

Whenever the number of live handles has changed, the new number is reported.
A reporter says where reports go: to the console among the printed values, to
a list of their own, or nowhere. When to report is not its business.
-/

/-- One line of the console. -/
inductive ConsoleLine where
  | liveCount (count : Nat)
  | printed (value : Word)
  deriving DecidableEq, Repr

/-- How a report is written. -/
def reportText (count : Nat) : String :=
  s!"gc:{count}"

/-- How a line of the console is written. -/
def ConsoleLine.text : ConsoleLine → String
  | liveCount count => reportText count
  | printed value => value.decimal

/-- Where reports go. -/
inductive Reporter where
  | console
  /-- To a list of the counts reported so far. -/
  | buffer (counts : Array Nat)
  | silent
  deriving DecidableEq

namespace Reporter

/-- A reporter that keeps the counts in a list, still empty. -/
def emptyBuffer : Reporter :=
  buffer #[]

/-- The reporter after one report. -/
def notify : Reporter → Nat → Reporter
  | console, _ => console
  | buffer counts, count => buffer (counts.push count)
  | silent, _ => silent

/-- What one report adds to the console. -/
def consoleLines : Reporter → Nat → List ConsoleLine
  | console, count => [.liveCount count]
  | buffer _, _ => []
  | silent, _ => []

/-- The counts in the list; other reporters keep none. -/
def captured : Reporter → Array Nat
  | buffer counts => counts
  | console => #[]
  | silent => #[]

/-- The captured counts as the console would show them. -/
def capturedLines (reporter : Reporter) : List String :=
  reporter.captured.toList.map reportText

end Reporter

end RefScript
