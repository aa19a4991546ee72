namespace RefScript

/-!
# Command-line arguments

The program takes one script and a few options, in any order. Arguments are
read from the left, and the first one that decides the outcome does so: a
mistake, or a request for the help text or the version.
-/

/-- A run that the arguments ask for. -/
structure Options where
  script : String
  data : Option String
  /-- Whether reports of the live count are left out. -/
  quiet : Bool
  /-- The limit on active frames, if it is not the standard one. -/
  maxCallDepth : Option Nat
  deriving DecidableEq, Repr

/-- What the arguments ask for. -/
inductive Request where
  | run (options : Options)
  | help
  | version
  deriving DecidableEq, Repr

/-- Why arguments are refused. -/
inductive UsageError where
  | missingScript
  | unexpectedArgument (argument : String)
  /-- An option that may be given once is given again. -/
  | repeatedOption (name : String)
  | missingValue (name : String)
  | unexpectedValue (name : String)
  | invalidNumber (name value : String)
  deriving DecidableEq, Repr

/-- The wording of a refusal. -/
def UsageError.message : UsageError → String
  | missingScript => "the script is missing"
  | unexpectedArgument argument => s!"unexpected argument '{argument}'"
  | repeatedOption name => s!"'{name}' is given more than once"
  | missingValue name => s!"'{name}' lacks a value"
  | unexpectedValue name => s!"'{name}' takes no value"
  | invalidNumber name value => s!"invalid value '{value}' for '{name}'"

/-- The shapes of an argument. -/
inductive ArgumentShape where
  /-- Two dashes alone: what follows are no options. -/
  | endOfOptions
  /-- Two dashes, a name and perhaps a value after an equals sign. -/
  | long (name : String) (value : Option String)
  /-- One dash and a letter, with what follows the letter. -/
  | short (letter : Char) (rest : String)
  /-- Anything else, a lone dash included. -/
  | plain
  deriving DecidableEq, Repr

/-- A long option split at its first equals sign. -/
def splitLong (body : List Char) : ArgumentShape :=
  match body.dropWhile (· ≠ '=') with
  | [] => .long (String.ofList body) none
  | _ :: value =>
      .long (String.ofList (body.takeWhile (· ≠ '='))) (some (String.ofList value))

/-- The shape of an argument that stands where options may. -/
def argumentShape (argument : String) : ArgumentShape :=
  match argument.toList with
  | ['-', '-'] => .endOfOptions
  | '-' :: '-' :: body => splitLong body
  | '-' :: letter :: rest => .short letter (String.ofList rest)
  | _ => .plain

/-- A natural number below `2 ^ 64`: digits, after a plus sign or not. -/
def parseLimit? (text : String) : Option Nat :=
  let digits :=
    match text.toList with
    | '+' :: rest => rest
    | characters => characters
  if digits.isEmpty || digits.any (fun character => character < '0' || '9' < character) then
    none
  else
    let value := Nat.ofDigitChars 10 digits 0
    if value < 18446744073709551616 then some value else none

/-- What the arguments read so far have given. -/
structure GivenArguments where
  script : Option String
  data : Option String
  quiet : Bool
  maxCallDepth : Option Nat
  deriving DecidableEq, Repr

namespace GivenArguments

/-- Nothing has been read. -/
def none : GivenArguments :=
  ⟨.none, .none, false, .none⟩

/-- Take an argument that is no option: it is the script. -/
def takePlain (given : GivenArguments) (argument : String) :
    Except UsageError GivenArguments :=
  match given.script with
  | some _ => .error (.unexpectedArgument argument)
  | .none =>
      if argument.isEmpty then
        .error (.missingValue "<SCRIPT>")
      else
        .ok { given with script := some argument }

/-- Take `--quiet-gc`. -/
def takeQuiet (given : GivenArguments) : Except UsageError GivenArguments :=
  if given.quiet then
    .error (.repeatedOption "--quiet-gc")
  else
    .ok { given with quiet := true }

/-- Take `--data` and its value. -/
def takeData (given : GivenArguments) (value : String) :
    Except UsageError GivenArguments :=
  match given.data with
  | some _ => .error (.repeatedOption "--data")
  | .none =>
      if value.isEmpty then
        .error (.missingValue "--data")
      else
        .ok { given with data := some value }

/-- Take `--max-call-depth` and its value. -/
def takeMaxCallDepth (given : GivenArguments) (value : String) :
    Except UsageError GivenArguments :=
  match given.maxCallDepth with
  | some _ => .error (.repeatedOption "--max-call-depth")
  | .none =>
      match parseLimit? value with
      | some limit => .ok { given with maxCallDepth := some limit }
      | .none => .error (.invalidNumber "--max-call-depth" value)

/-- The run that the arguments ask for, once all of them are read. -/
def finish (given : GivenArguments) : Except UsageError Request :=
  match given.script with
  | .none => .error .missingScript
  | some script => .ok (.run ⟨script, given.data, given.quiet, given.maxCallDepth⟩)

/-- Read arguments among which there are no options. -/
def readPlain (given : GivenArguments) : List String → Except UsageError Request
  | [] => given.finish
  | argument :: rest => do
      let taken ← given.takePlain argument
      taken.readPlain rest

/-- An option that takes a value. -/
structure ValueOption where
  spelling : String
  take : GivenArguments → String → Except UsageError GivenArguments

/-- The option of a name that takes a value, if there is one. -/
def valueOption? (name : String) : Option ValueOption :=
  if name = "data" then
    some ⟨"--data", takeData⟩
  else if name = "max-call-depth" then
    some ⟨"--max-call-depth", takeMaxCallDepth⟩
  else
    .none

/-- Read arguments, options among them. -/
def read (given : GivenArguments) : List String → Except UsageError Request
  | [] => given.finish
  | argument :: rest =>
      match argumentShape argument with
      | .endOfOptions => given.readPlain rest
      | .plain => do
          let taken ← given.takePlain argument
          taken.read rest
      | .short 'h' _ => .ok .help
      | .short 'V' _ => .ok .version
      | .short _ _ => .error (.unexpectedArgument argument)
      | .long "help" .none => .ok .help
      | .long "version" .none => .ok .version
      | .long "quiet-gc" .none => do
          let taken ← given.takeQuiet
          taken.read rest
      | .long "help" (some _) => .error (.unexpectedValue "--help")
      | .long "version" (some _) => .error (.unexpectedValue "--version")
      | .long "quiet-gc" (some _) => .error (.unexpectedValue "--quiet-gc")
      | .long name attached =>
          match valueOption? name with
          | .none => .error (.unexpectedArgument argument)
          | some option =>
              match attached with
              | some value => do
                  let taken ← option.take given value
                  taken.read rest
              | .none =>
                  match rest with
                  | [] => .error (.missingValue option.spelling)
                  | value :: later =>
                      if argumentShape value = .plain then do
                        let taken ← option.take given value
                        taken.read later
                      else
                        .error (.missingValue option.spelling)

end GivenArguments

/-- What the arguments of the program ask for. -/
def parseArguments (arguments : List String) : Except UsageError Request :=
  GivenArguments.none.read arguments

/-- The answer to a request for the version. -/
def versionText : String :=
  "refcore 0.1.0"

/-- The answer to a request for the help text. -/
def helpText : String :=
  "\n".intercalate
    ["Run an operation script against the ref-variable execution core",
      "",
      "Usage: refcore [OPTIONS] <SCRIPT>",
      "",
      "Arguments:",
      "  <SCRIPT>  Operation script to execute",
      "",
      "Options:",
      "      --data <DATA>                      Data file supplying literals",
      "      --quiet-gc                         Do not print gc lines",
      "      --max-call-depth <MAX_CALL_DEPTH>  Maximum number of active call frames",
      "  -h, --help                             Print help",
      "  -V, --version                          Print version"]

end RefScript
