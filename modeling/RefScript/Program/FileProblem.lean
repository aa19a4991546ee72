namespace RefScript

/-!
# Problems with files

Why reading a file gives no text, in the words and with the numbers of a Unix
system.
-/

/-- Why a file gives no text. -/
inductive FileProblem where
  | missing
  /-- The path goes on below a file. -/
  | notADirectory
  | isADirectory
  /-- A name of the path, or the path, is longer than the system allows. -/
  | nameTooLong
  /-- The bytes of the file are no text. -/
  | notText
  /-- The system refuses for another reason. -/
  | system (reason : String)
  deriving DecidableEq, Repr

namespace FileProblem

/-- A reason with the number the system gives it. -/
def numbered (number : Nat) (reason : String) : String :=
  s!"{reason} (os error {number})"

/-- The wording of a problem. -/
def text : FileProblem → String
  | missing => numbered 2 "No such file or directory"
  | notADirectory => numbered 20 "Not a directory"
  | isADirectory => numbered 21 "Is a directory"
  | nameTooLong => numbered 36 "File name too long"
  | notText => "stream did not contain valid UTF-8"
  | system reason => reason

end FileProblem

end RefScript
