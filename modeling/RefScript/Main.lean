import RefScript.Program.Session

namespace RefScript

/-!
# The program

Reading files and writing the transcript of a session.
-/

/--
The problem of a number that a system call reports, with a wording for numbers
that are not known. Some calls report the number negated.
-/
def problemOfNumber (reported : UInt32) (reason : String) : FileProblem :=
  let number :=
    if reported.toNat < 2147483648 then reported.toNat else 4294967296 - reported.toNat
  match number with
  | 2 => .missing
  | 13 => .system (FileProblem.numbered 13 "Permission denied")
  | 20 => .notADirectory
  | 21 => .isADirectory
  | 36 => .nameTooLong
  | other => .system (FileProblem.numbered other reason)

/-- The problem that a failed system call reports. -/
def problemOfError : IO.Error → FileProblem
  | .noFileOrDirectory _ number reason => problemOfNumber number reason
  | .permissionDenied _ number reason => problemOfNumber number reason
  | .inappropriateType _ number reason => problemOfNumber number reason
  | .invalidArgument _ number reason => problemOfNumber number reason
  | .otherError number reason => problemOfNumber number reason
  | other => .system (toString other)

/-- Read a file. -/
def readSystemFile (file : String) : IO (Except FileProblem ByteArray) := do
  try
    return .ok (← IO.FS.readBinFile file)
  catch error =>
    return .error (problemOfError error)

end RefScript

open RefScript in
/-- Run the program: status two for wrong arguments, one for a failed session. -/
def main (arguments : List String) : IO UInt32 := do
  match parseArguments arguments with
  | .error error =>
      IO.eprintln s!"error: {error.message}"
      return 2
  | .ok .help =>
      IO.println helpText
      return 0
  | .ok .version =>
      IO.println versionText
      return 0
  | .ok (.run options) =>
      let transcript ← runSession readSystemFile options
      IO.print transcript.standardOutput
      IO.eprint transcript.standardError
      return UInt32.ofNat transcript.exitStatus
