import RefScript.InputTape
import RefScript.Machine
import RefScript.Program.Arguments
import RefScript.Program.FileProblem
import RefScript.Script

namespace RefScript

/-!
# Sessions

A session reads a script, then the data text, and runs the one on the other.
Its transcript is what it writes to the console, up to the failure that ended
it, if any. How files are read is left to the caller, so that a session is an
ordinary function wherever reading is one.
-/

/-- Why a session ends early. -/
inductive SessionFailure where
  | unreadable (file : String) (problem : FileProblem)
  | script (error : ScriptError)
  | data (error : ScanError)
  | fault (cause : Fault)
  deriving DecidableEq, Repr

/-- The wording of a failure. -/
def SessionFailure.message : SessionFailure → String
  | .unreadable file problem => s!"cannot read '{file}': {problem.text}"
  | .script error => error.message
  | .data error => error.message
  | .fault cause => cause.message

/-- What a session leaves behind. -/
structure Transcript where
  lines : List ConsoleLine
  /-- What ended the session early, if anything did. -/
  failure : Option SessionFailure
  deriving DecidableEq, Repr

namespace Transcript

/-- The exit status: zero for success, one for a failure. -/
def exitStatus (transcript : Transcript) : Nat :=
  if transcript.failure.isSome then 1 else 0

/-- The text written to the console. -/
def standardOutput (transcript : Transcript) : String :=
  String.join (transcript.lines.map fun line => line.text ++ "\n")

/-- The text written about the failure. -/
def standardError (transcript : Transcript) : String :=
  match transcript.failure with
  | none => ""
  | some failure => s!"ERROR: {failure.message}\n"

end Transcript

/-- The settings that options ask for. -/
def Options.settings (options : Options) : Settings :=
  let limited :=
    match options.maxCallDepth with
    | some limit => Settings.standard.withMaxCallDepth limit
    | none => Settings.standard
  if options.quiet then limited.quiet else limited

/-- Run a script with everything it prints going to the console. -/
def runToConsole
    (settings : Settings)
    (commands : List Command)
    (input : InputTape) :
    Transcript :=
  let machine :=
    (Machine.onStore ((Store.initial settings).withInput input)).withEcho true
  match runScript commands machine with
  | .ok _ final => ⟨final.store.console.toList, none⟩
  | .error fault final => ⟨final.store.console.toList, some (.fault fault)⟩

section Reading

variable {m : Type → Type} [Monad m]

/-- Read a file as text. -/
def readText
    (readFile : String → m (Except FileProblem ByteArray))
    (file : String) :
    ExceptT SessionFailure m String := do
  match ← readFile file with
  | .error problem => throw (.unreadable file problem)
  | .ok bytes =>
      match String.fromUTF8? bytes with
      | some text => return text
      | none => throw (.unreadable file .notText)

/-- Read the script of a session. -/
def readCommands
    (readFile : String → m (Except FileProblem ByteArray))
    (options : Options) :
    ExceptT SessionFailure m (List Command) := do
  let text ← readText readFile options.script
  match scriptOf text with
  | .ok commands => return commands
  | .error error => throw (.script error)

/-- Read the input of a session; without a data file there is none. -/
def readInput
    (readFile : String → m (Except FileProblem ByteArray))
    (options : Options) :
    ExceptT SessionFailure m InputTape := do
  match options.data with
  | none => return InputTape.empty
  | some file =>
      let text ← readText readFile file
      match InputTape.ofText text with
      | .ok input => return input
      | .error error => throw (.data error)

/-- Run a session: the script is read before the input. -/
def runSession
    (readFile : String → m (Except FileProblem ByteArray))
    (options : Options) :
    m Transcript := do
  let prepared ← ExceptT.run do
    let commands ← readCommands readFile options
    let input ← readInput readFile options
    return (commands, input)
  match prepared with
  | .error failure => return ⟨[], some failure⟩
  | .ok (commands, input) => return runToConsole options.settings commands input

end Reading

end RefScript
