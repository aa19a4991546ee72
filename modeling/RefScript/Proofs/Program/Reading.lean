import RefScript.Program.Session

namespace RefScript

/-!
# What sessions read

A session reads its script, and then its data file if it is given one. The script
is read and understood before the data file is opened, and the first of them that
cannot be read ends the session before anything runs. No other file matters.
-/

/-- The session for which files hold what they are said to hold. -/
def sessionWith
    (contents : String → Except FileProblem ByteArray)
    (options : Options) :
    Transcript :=
  Id.run (runSession (fun file => pure (contents file)) options)

/-- The text of a file. -/
def textOf
    (contents : String → Except FileProblem ByteArray)
    (file : String) :
    Except FileProblem String :=
  match contents file with
  | .error problem => .error problem
  | .ok bytes =>
      match String.fromUTF8? bytes with
      | some text => .ok text
      | none => .error .notText

/-- The files that options name. -/
def Options.files (options : Options) : List String :=
  options.script :: options.data.toList

variable {contents contents' : String → Except FileProblem ByteArray} {options : Options}

/-- A text that has been written to a file is read back from it. -/
theorem textOf_of_text
    {file text : String}
    (holds : contents file = .ok text.toUTF8) :
    textOf contents file = .ok text := by
  have spelled : String.fromUTF8? text.toUTF8 = some text := dif_pos text.isValidUTF8
  simp only [textOf, holds, spelled]

private theorem readText_eq
    (contents : String → Except FileProblem ByteArray)
    (file : String) :
    (readText (fun file => pure (contents file)) file : ExceptT SessionFailure Id String) =
      match textOf contents file with
      | .error problem => throw (.unreadable file problem)
      | .ok text => pure text := by
  simp only [readText, textOf, liftM_pure, pure_bind]
  cases contents file with
  | error problem => rfl
  | ok bytes => cases isText : String.fromUTF8? bytes <;> simp only [isText]

/-- A session goes as far as what it reads lets it. -/
theorem sessionWith_eq
    (contents : String → Except FileProblem ByteArray)
    (options : Options) :
    sessionWith contents options =
      match textOf contents options.script with
      | .error problem => ⟨[], some (.unreadable options.script problem)⟩
      | .ok script =>
          match scriptOf script with
          | .error error => ⟨[], some (.script error)⟩
          | .ok commands =>
              match options.data with
              | none => runToConsole options.settings commands InputTape.empty
              | some file =>
                  match textOf contents file with
                  | .error problem => ⟨[], some (.unreadable file problem)⟩
                  | .ok data =>
                      match InputTape.ofText data with
                      | .error error => ⟨[], some (.data error)⟩
                      | .ok input => runToConsole options.settings commands input := by
  unfold sessionWith runSession readCommands readInput
  simp only [readText_eq]
  cases isText : textOf contents options.script with
  | error problem => rfl
  | ok script =>
      cases isScript : scriptOf script with
      | error error => simp [isScript]
      | ok commands =>
          cases options.data with
          | none => simp [isScript]
          | some file =>
              cases isData : textOf contents file with
              | error problem => simp [isScript, isData]
              | ok data =>
                  cases isInput : InputTape.ofText data with
                  | error error => simp [isScript, isData, isInput]
                  | ok input => simp [isScript, isData, isInput]

/-- Where the files that are named hold the same, so does the session go. -/
theorem sessionWith_congr
    (same : ∀ file ∈ options.files, contents' file = contents file) :
    sessionWith contents' options = sessionWith contents options := by
  have sameText (file : String) (named : file ∈ options.files) :
      textOf contents' file = textOf contents file := by
    rw [textOf, textOf, same file named]
  rw [sessionWith_eq, sessionWith_eq, sameText _ List.mem_cons_self]
  cases given : options.data with
  | none => rfl
  | some file =>
      have named : file ∈ options.files := by simp [Options.files, given]
      simp only [sameText file named]

/-- A session that has run does not fail for want of a file. -/
theorem failure_runToConsole_ne_unreadable
    (settings : Settings) (commands : List Command) (input : InputTape)
    (file : String) (problem : FileProblem) :
    (runToConsole settings commands input).failure ≠ some (.unreadable file problem) := by
  unfold runToConsole
  dsimp only
  split <;> nofun

/--
A session fails over a file exactly if that file has no text and is the script, or
is the data file of a session that has read and understood its script.
-/
theorem failure_eq_unreadable_iff {file : String} {problem : FileProblem} :
    (sessionWith contents options).failure = some (.unreadable file problem) ↔
      textOf contents file = .error problem ∧
        (options.script = file ∨
          options.data = some file ∧
            ∃ script commands,
              textOf contents options.script = .ok script ∧ scriptOf script = .ok commands) := by
  constructor
  · intro fails
    have neverRun (commands : List Command) (input : InputTape) :=
      failure_runToConsole_ne_unreadable options.settings commands input file problem
    rw [sessionWith_eq] at fails
    cases isText : textOf contents options.script with
    | error earlier =>
        obtain ⟨rfl, rfl⟩ : options.script = file ∧ earlier = problem := by
          simpa [isText] using fails
        exact ⟨isText, Or.inl rfl⟩
    | ok script =>
        cases isScript : scriptOf script with
        | error error => simp [isText, isScript] at fails
        | ok commands =>
            cases given : options.data with
            | none => simp [isText, isScript, given, neverRun] at fails
            | some data =>
                cases isData : textOf contents data with
                | error later =>
                    obtain ⟨rfl, rfl⟩ : data = file ∧ later = problem := by
                      simpa [isText, isScript, given, isData] using fails
                    exact ⟨isData, Or.inr ⟨rfl, script, commands, rfl, isScript⟩⟩
                | ok text =>
                    cases isInput : InputTape.ofText text <;>
                      simp [isText, isScript, given, isData, isInput, neverRun] at fails
  · rintro ⟨noText, rfl | ⟨given, script, commands, isText, isScript⟩⟩
    · simp [sessionWith_eq, noText]
    · simp [sessionWith_eq, isText, isScript, given, noText]

end RefScript
