import RefScript.Proofs.Execution.ConsoleContents
import RefScript.Proofs.Program.Reading
import RefScript.Proofs.Script.Reading

namespace RefScript

/-!
# Sessions and machines that keep their output

A session writes to the console what a machine without a console keeps when it runs
the same script on the same input. Reports and printed values can be told apart in
the text: a report starts with a letter, and a printed value never does.
-/

/-! ## The text of lines -/

/-- Whether a line starts as the lines of reports do. -/
def startsAsReport (line : String) : Bool :=
  "gc:".toList.isPrefixOf line.toList

/-- The text of lines, each of which is ended. -/
def textOfLines (lines : List String) : String :=
  String.join (lines.map fun line => line ++ "\n")

private theorem isDigit_of_mem_repr
    {number : Nat} {character : Char}
    (member : character ∈ number.repr.toList) :
    character.isDigit = true := by
  rw [Nat.toList_repr] at member
  exact Nat.isDigit_of_mem_toDigits (by decide) (by decide) member

/-- A printed value is written with digits, and maybe a minus sign. -/
theorem mem_decimal
    {value : Word} {character : Char}
    (member : character ∈ value.decimal.toList) :
    character = '-' ∨ character.isDigit = true := by
  have isText : value.decimal = value.toInt.repr := rfl
  rw [isText] at member
  cases isValue : value.toInt with
  | ofNat number =>
      have parts : (Int.ofNat number).repr = number.repr := rfl
      rw [isValue, parts] at member
      exact Or.inr (isDigit_of_mem_repr member)
  | negSucc number =>
      have parts : (Int.negSucc number).repr = "-" ++ (number + 1).repr := rfl
      rw [isValue, parts, String.toList_append, List.mem_append] at member
      rcases member with isSign | isDigit
      · exact Or.inl (List.mem_singleton.mp isSign)
      · exact Or.inr (isDigit_of_mem_repr isDigit)

theorem reportText_toList (count : Nat) :
    (reportText count).toList = "gc:".toList ++ count.repr.toList := by
  have parts : reportText count = "gc:" ++ count.repr := rfl
  rw [parts, String.toList_append]

theorem startsAsReport_reportText (count : Nat) : startsAsReport (reportText count) = true := by
  rw [startsAsReport, reportText_toList, List.isPrefixOf_iff_prefix]
  exact List.prefix_append _ _

theorem startsAsReport_decimal (value : Word) : startsAsReport value.decimal = false := by
  rw [startsAsReport, Bool.eq_false_iff, ne_eq, List.isPrefixOf_iff_prefix]
  intro startsSame
  have member : 'g' ∈ value.decimal.toList := startsSame.subset (by decide)
  rcases mem_decimal member with isSign | isDigit
  · contradiction
  · contradiction

/-- No line of the console is broken by its text. -/
theorem ConsoleLine.newline_not_mem_text (line : ConsoleLine) : '\n' ∉ line.text.toList := by
  intro member
  cases line with
  | liveCount count =>
      have isText : (ConsoleLine.liveCount count).text.toList = "gc:".toList ++ count.repr.toList :=
        reportText_toList count
      rw [isText, List.mem_append] at member
      rcases member with inMark | inCount
      · exact absurd inMark (by decide)
      · exact absurd (isDigit_of_mem_repr inCount) (by decide)
  | printed value =>
      rcases mem_decimal member with isSign | isDigit
      · contradiction
      · contradiction

/-- The lines that start as reports show the counts, and the other ones the printed values. -/
theorem filter_text (lines : List ConsoleLine) :
    (lines.map ConsoleLine.text).filter startsAsReport =
        (lines.filterMap ConsoleLine.liveCount?).map reportText ∧
      (lines.map ConsoleLine.text).filter (fun line => !startsAsReport line) =
        (lines.filterMap ConsoleLine.printed?).map Word.decimal := by
  induction lines with
  | nil => exact ⟨rfl, rfl⟩
  | cons line rest inductionHypothesis =>
      obtain ⟨reports, values⟩ := inductionHypothesis
      cases line with
      | liveCount count =>
          have isReport := startsAsReport_reportText count
          simp only [List.map_cons, List.filterMap_cons, ConsoleLine.text, ConsoleLine.liveCount?,
            ConsoleLine.printed?, List.filter_cons, isReport, reports, values]
          exact ⟨rfl, rfl⟩
      | printed value =>
          have notReport := startsAsReport_decimal value
          simp only [List.map_cons, List.filterMap_cons, ConsoleLine.text, ConsoleLine.liveCount?,
            ConsoleLine.printed?, List.filter_cons, notReport, reports, values]
          exact ⟨rfl, rfl⟩

/-! ## Sessions on texts -/

/-- The session in which every file holds the given text. -/
def sessionOn (texts : String → String) (options : Options) : Transcript :=
  Id.run (runSession (fun file => pure (.ok (texts file).toUTF8)) options)

/-- The input that a session takes from a file, if it is given one. -/
def inputIn (texts : String → String) : Option String → Except ScanError InputTape
  | none => .ok InputTape.empty
  | some file => InputTape.ofText (texts file)

/-- A session that can read its script and its input runs the one on the other. -/
theorem sessionOn_eq (texts : String → String) (options : Options) :
    sessionOn texts options =
      match scriptOf (texts options.script) with
      | .error error => ⟨[], some (.script error)⟩
      | .ok commands =>
          match inputIn texts options.data with
          | .error error => ⟨[], some (.data error)⟩
          | .ok input => runToConsole options.settings commands input := by
  have isText (file : String) :
      textOf (fun file => .ok (texts file).toUTF8) file = .ok (texts file) :=
    textOf_of_text rfl
  have isSession :
      sessionOn texts options = sessionWith (fun file => .ok (texts file).toUTF8) options :=
    rfl
  rw [isSession, sessionWith_eq]
  simp only [isText]
  cases scriptOf (texts options.script) with
  | error error => rfl
  | ok commands =>
      cases options.data with
      | none => rfl
      | some file => rfl

section Opening

variable {texts : String → String} {options : Options}

theorem sessionOn_of_readable
    {commands : List Command} {input : InputTape}
    (isScript : scriptOf (texts options.script) = .ok commands)
    (isInput : inputIn texts options.data = .ok input) :
    sessionOn texts options = runToConsole options.settings commands input := by
  rw [sessionOn_eq]
  simp only [isScript, isInput]

theorem sessionOn_of_unreadable
    (unreadable :
      (∀ commands, scriptOf (texts options.script) ≠ .ok commands) ∨
        ∀ input, inputIn texts options.data ≠ .ok input) :
    ∃ failure, sessionOn texts options = ⟨[], some failure⟩ := by
  rw [sessionOn_eq]
  cases isScript : scriptOf (texts options.script) with
  | error error => exact ⟨_, rfl⟩
  | ok commands =>
      cases isInput : inputIn texts options.data with
      | error error => exact ⟨_, rfl⟩
      | ok input =>
          rcases unreadable with noScript | noInput
          · exact absurd isScript (noScript commands)
          · exact absurd isInput (noInput input)

end Opening

/-! ## Agreement -/

namespace Transcript

variable {transcript : Transcript}

/-- What a session writes is the text of its lines. -/
theorem standardOutput_eq (transcript : Transcript) :
    transcript.standardOutput = textOfLines (transcript.lines.map ConsoleLine.text) := by
  rw [standardOutput, textOfLines, List.map_map]
  rfl

theorem finished
    (noFailure : transcript.failure = none) :
    transcript.exitStatus = 0 ∧ transcript.standardError = "" := by
  simp [exitStatus, standardError, noFailure]

theorem stopped
    {fault : Fault}
    (isFault : transcript.failure = some (.fault fault)) :
    transcript.exitStatus = 1 ∧
      transcript.standardError = "ERROR: " ++ fault.message ++ "\n" := by
  constructor
  · simp [exitStatus, isFault]
  · rw [standardError, isFault]
    rfl

end Transcript

theorem SameOutcome.fault?_eq
    {related : Machine → Machine → Prop} {step : Execution Unit} {machine other : Machine}
    (same : SameOutcome related (step machine) (step other)) :
    fault? step other = fault? step machine := by
  generalize outcome : step machine = result, outcome' : step other = result' at same
  cases same <;> rw [fault?, fault?, outcome, outcome']

/-- What a run leaves on the console, and the fault that ended it. -/
theorem runToConsole_eq (settings : Settings) (commands : List Command) (input : InputTape) :
    runToConsole settings commands input =
      let start := (Machine.onStore ((Store.initial settings).withInput input)).withEcho true
      ⟨(leaves (runScript commands) start).store.console.toList,
        (fault? (runScript commands) start).map .fault⟩ := by
  unfold runToConsole leaves fault?
  dsimp only
  cases runScript commands
    ((Machine.onStore ((Store.initial settings).withInput input)).withEcho true) <;> rfl

/-- A machine that has not run yet, and keeps what it will print and report. -/
def Machine.keeping (settings : Settings) (input : InputTape) : Machine :=
  Machine.onStore ((Store.withReporter settings Reporter.emptyBuffer).withInput input)

/-- The options of a session, the reports of which are left out or not. -/
def optionsOf (script : String) (data : Option String) (limit : Option Nat) (quiet : Bool) :
    Options :=
  ⟨script, data, quiet, limit⟩

section Agreement

variable (script : String) (data : Option String) (limit : Option Nat)

/-- Before the run, the machine of a session shows what the other one keeps: nothing. -/
theorem shownBy_start (quiet : Bool) (input : InputTape) :
    ShownBy quiet
      (.keeping (optionsOf script data limit false).settings input)
      ((Machine.onStore
        ((Store.initial (optionsOf script data limit quiet).settings).withInput input)).withEcho
          true) := by
  have sameLimit :
      (optionsOf script data limit quiet).settings.maxCallDepth =
        (optionsOf script data limit false).settings.maxCallDepth := by
    cases limit <;> cases quiet <;> rfl
  have reporter :
      (optionsOf script data limit quiet).settings.reporter =
        if quiet then .silent else .console := by
    cases limit <;> cases quiet <;> rfl
  have noCounts : ([] : List Nat) = if quiet then [] else [] := by
    cases quiet <;> rfl
  exact ⟨⟨rfl, rfl, rfl, rfl, rfl, rfl, rfl, sameLimit⟩, rfl, rfl, rfl, ⟨#[], rfl⟩, reporter, rfl,
    noCounts⟩

/-- After it, what is shown is what is kept, and both have met the same fault. -/
theorem shownBy_run (commands : List Command) (quiet : Bool) (input : InputTape) :
    let start := Machine.keeping (optionsOf script data limit false).settings input
    let transcript := runToConsole (optionsOf script data limit quiet).settings commands input
    let final := leaves (runScript commands) start
    transcript.failure = (fault? (runScript commands) start).map .fault ∧
      transcript.lines.filterMap ConsoleLine.printed? = final.printed.toList ∧
      transcript.lines.filterMap ConsoleLine.liveCount? =
        if quiet then [] else final.store.reporter.captured.toList := by
  intro start transcript final
  have same :=
    (ShownBy.lockstep quiet).sameOutcome_runScript commands
      (shownBy_start script data limit quiet input)
  have isTranscript : transcript = _ := runToConsole_eq _ commands input
  rw [isTranscript]
  refine ⟨?_, same.leaves.values, same.leaves.counts⟩
  exact congrArg (Option.map SessionFailure.fault) same.fault?_eq

end Agreement

/--
Sessions with any files, options and limit on the frames, and the machine that runs
the same script on the same input and keeps what it prints and reports.

If the script or the input cannot be read, nothing is written and the session fails.

If both can be read, then however the run ends, the lines that the session writes are
those of the reports, which start with their mark, and those of the printed values,
which do not, each as they are kept. With the option to be quiet they are those of the
printed values. In both cases the exit status and the text about the failure say
whether a fault has ended the run, and which.
-/
theorem sessions_show_what_is_kept
    (texts : String → String)
    (script : String) (data : Option String) (limit : Option Nat) :
    ((∀ commands, scriptOf (texts script) ≠ .ok commands) ∨
        (∀ input, inputIn texts data ≠ .ok input) →
      ∀ quiet,
        (sessionOn texts (optionsOf script data limit quiet)).standardOutput = "" ∧
          (sessionOn texts (optionsOf script data limit quiet)).exitStatus = 1) ∧
    ∀ commands input,
      scriptOf (texts script) = .ok commands →
        inputIn texts data = .ok input →
          let session := fun quiet => sessionOn texts (optionsOf script data limit quiet)
          let start := Machine.keeping (optionsOf script data limit false).settings input
          let final := leaves (runScript commands) start
          (∃ lines,
            (session false).standardOutput = textOfLines lines ∧
              (∀ line ∈ lines, '\n' ∉ line.toList) ∧
              lines.filter startsAsReport = final.store.reporter.capturedLines ∧
              lines.filter (fun line => !startsAsReport line) = final.output) ∧
          (session true).standardOutput = textOfLines final.output ∧
          ∀ quiet,
            (fault? (runScript commands) start = none →
              (session quiet).exitStatus = 0 ∧ (session quiet).standardError = "") ∧
            ∀ fault,
              fault? (runScript commands) start = some fault →
                (session quiet).exitStatus = 1 ∧
                  (session quiet).standardError = "ERROR: " ++ fault.message ++ "\n" := by
  constructor
  · intro unreadable quiet
    obtain ⟨failure, ends⟩ :
        ∃ failure, sessionOn texts (optionsOf script data limit quiet) = ⟨[], some failure⟩ :=
      sessionOn_of_unreadable unreadable
    rw [ends]
    exact ⟨rfl, rfl⟩
  · intro commands input isScript isInput session start final
    have isSession (quiet : Bool) :
        session quiet =
          runToConsole (optionsOf script data limit quiet).settings commands input :=
      sessionOn_of_readable isScript isInput
    obtain ⟨_, values, counts⟩ := shownBy_run script data limit commands false input
    obtain ⟨_, valuesQuiet, noCounts⟩ := shownBy_run script data limit commands true input
    rw [← isSession] at values counts valuesQuiet noCounts
    refine ⟨⟨_, (session false).standardOutput_eq, ?_, ?_, ?_⟩, ?_, fun quiet => ?_⟩
    · intro line member
      obtain ⟨shown, _, rfl⟩ := List.mem_map.mp member
      exact shown.newline_not_mem_text
    · rw [(filter_text _).1, counts]
      rfl
    · rw [(filter_text _).2, values]
      rfl
    · rw [Transcript.standardOutput_eq, ConsoleLine.eq_map_printed noCounts, valuesQuiet,
        List.map_map]
      rfl
    · obtain ⟨failure, _, _⟩ := shownBy_run script data limit commands quiet input
      rw [← isSession] at failure
      constructor
      · intro noFault
        rw [noFault] at failure
        exact Transcript.finished failure
      · intro fault isFault
        rw [isFault] at failure
        exact Transcript.stopped failure

/-- A file with a script that asks for two literals, and files with one. -/
def exampleTexts (file : String) : String :=
  if file = "script" then "ref x\nnew x\ninput x\nprint x\ninput x" else "5"

/-- That script. -/
def exampleScript : List Command :=
  [.declare .ref "x" ⟨1, 1⟩, .allocate "x" ⟨2, 1⟩, .input "x" ⟨3, 1⟩, .print "x" ⟨4, 1⟩,
    .input "x" ⟨5, 1⟩]

/-- The machine on which it is run apart from the session. -/
def exampleMachine : Machine :=
  .keeping (optionsOf "script" (some "data") none false).settings (.ofLiterals #[5])

/-- The session shows a report and a printed value, and then ends with a fault. -/
theorem exampleTexts_shown :
    let session := fun quiet => sessionOn exampleTexts (optionsOf "script" (some "data") none quiet)
    (∃ lines,
      (session false).standardOutput = textOfLines lines ∧
        (∀ line ∈ lines, '\n' ∉ line.toList) ∧
        lines.filter startsAsReport = ["gc:1"] ∧
        lines.filter (fun line => !startsAsReport line) = ["5"]) ∧
      (session true).standardOutput = textOfLines ["5"] ∧
      ∀ quiet,
        (session quiet).exitStatus = 1 ∧
          (session quiet).standardError = "ERROR: " ++ Fault.dataExhausted.message ++ "\n" := by
  have scanned :
      tokensOf (exampleTexts "script") =
        .ok [⟨.keyword .ref, ⟨1, 1⟩⟩, ⟨.identifier "x", ⟨1, 5⟩⟩, ⟨.newline, ⟨1, 6⟩⟩,
          ⟨.keyword .new, ⟨2, 1⟩⟩, ⟨.identifier "x", ⟨2, 5⟩⟩, ⟨.newline, ⟨2, 6⟩⟩,
          ⟨.keyword .input, ⟨3, 1⟩⟩, ⟨.identifier "x", ⟨3, 7⟩⟩, ⟨.newline, ⟨3, 8⟩⟩,
          ⟨.keyword .print, ⟨4, 1⟩⟩, ⟨.identifier "x", ⟨4, 7⟩⟩, ⟨.newline, ⟨4, 8⟩⟩,
          ⟨.keyword .input, ⟨5, 1⟩⟩, ⟨.identifier "x", ⟨5, 7⟩⟩, ⟨.endOfFile, ⟨5, 8⟩⟩] :=
    tokensOf_of_toOption (by decide +kernel)
  have isScript : scriptOf (exampleTexts "script") = .ok exampleScript := by
    refine (scriptOf_eq_ok_iff scanned).mpr ⟨(linesOf exampleScript).dropLast, Or.inr rfl, ?_⟩
    simp [exampleScript, linesOf, Command.heading, Command.bodySlots, Slot.line, Slot.FilledBy,
      Command.position, Slot.lineBreak, Slot.inner, CellKind.keyword]
  have scannedData :
      tokensOf (exampleTexts "data") = .ok [⟨.literal 5, ⟨1, 1⟩⟩, ⟨.endOfFile, ⟨1, 2⟩⟩] :=
    tokensOf_of_toOption (by decide +kernel)
  have isInput : inputIn exampleTexts (some "data") = .ok (.ofLiterals #[5]) := by
    rw [inputIn, InputTape.ofText, scannedData]
    rfl
  have isReported :
      (leaves (runScript exampleScript) exampleMachine).store.reporter.capturedLines =
        ["gc:1"] := by
    decide +kernel
  have isPrinted : (leaves (runScript exampleScript) exampleMachine).output = ["5"] := by
    decide +kernel
  have isFault : fault? (runScript exampleScript) exampleMachine = some .dataExhausted := by
    decide +kernel
  have isStart :
      Machine.keeping (optionsOf "script" (some "data") none false).settings (.ofLiterals #[5]) =
        exampleMachine :=
    rfl
  obtain ⟨_, agree⟩ := sessions_show_what_is_kept exampleTexts "script" (some "data") none
  have shown := agree exampleScript (.ofLiterals #[5]) isScript isInput
  simp only [isStart, isReported, isPrinted] at shown
  obtain ⟨lines, quietly, ended⟩ := shown
  exact ⟨lines, quietly, fun quiet => (ended quiet).2 .dataExhausted isFault⟩

end RefScript
