import RefScript.Command
import RefScript.Text.Scan

namespace RefScript

/-!
# Reading scripts

A script is read from its tokens line by line. A line either is a whole
command or opens a body; the bodies that are still open, with the commands
read before them, form a stack, and a closing token completes the innermost
one. A reading that fails leaves the tokens from which the next reading starts.
-/

/-- What opens a body of commands. -/
inductive Opener where
  | block
  | frame
  | function (name : String) (formals : List String)
  deriving DecidableEq, Repr

namespace Opener

/-- The token that closes the body. -/
def closer : Opener → Token
  | block => .closeBrace
  | frame => .keyword .endFrame
  | function _ _ => .closeBrace

/-- The command that the body makes, given where it was opened. -/
def command (opener : Opener) (position : Position) (body : List Command) : Command :=
  match opener with
  | block => .block body position
  | frame => .frame body position
  | function name formals => .function name formals body position

end Opener

/-- Why tokens are not a script. -/
inductive ScriptFailure where
  | scan (failure : ScanFailure)
  /-- The token starts no command. -/
  | unexpectedToken (found : Token)
  | identifierExpected (found : Token)
  | literalExpected (found : Token)
  /-- A command goes on after its last part. -/
  | endOfLineExpected (found : Token)
  /-- A function lacks its opening brace. -/
  | bodyExpected (function : String) (found : Token)
  /-- The text ends inside a body. -/
  | unclosed (opener : Opener)
  deriving DecidableEq, Repr

/-- The wording of a failure. -/
def ScriptFailure.text : ScriptFailure → String
  | scan failure => failure.text
  | unexpectedToken found => s!"Unexpected {found.text}"
  | identifierExpected found => s!"Expected identifier, found {found.text}"
  | literalExpected found => s!"Expected integer, found {found.text}"
  | endOfLineExpected found => s!"Expected end of line, found {found.text}"
  | bodyExpected function found =>
      "Expected '\x7b' to open body of " ++ s!"'{function}', found {found.text}"
  | unclosed opener => s!"Unexpected end of file, expected {opener.closer.text}"

/-- A failure and where it happened. -/
structure ScriptError where
  failure : ScriptFailure
  /-- The position of the token that does not fit. -/
  position : Position
  deriving DecidableEq, Repr

/-- The full error message. -/
def ScriptError.message (error : ScriptError) : String :=
  s!"Parse error at {error.position.text}: {error.failure.text}"

/-- A scan that fails makes a script unreadable at the same place. -/
def ScriptError.ofScanError (error : ScanError) : ScriptError :=
  ⟨.scan error.failure, error.position⟩

/-- Readings take tokens from the front; a failed reading keeps what it left. -/
abbrev ScriptReader := EStateM ScriptError (List LocatedToken)

namespace ScriptReader

/-- The next token; past the last one stands the end of the text. -/
def peek (tokens : List LocatedToken) : LocatedToken :=
  tokens.headD ⟨.endOfFile, Position.first⟩

/-- Fail at the next token without taking it. -/
def reject {α : Type} (failure : Token → ScriptFailure) : ScriptReader α := fun tokens =>
  .error ⟨failure (peek tokens).token, (peek tokens).position⟩ tokens

/-- Take a name. -/
def identifier : ScriptReader String := fun tokens =>
  match tokens with
  | ⟨.identifier name, _⟩ :: rest => .ok name rest
  | _ => reject .identifierExpected tokens

/-- Take names as long as there are any. -/
def identifiers : ScriptReader (List String) := fun tokens =>
  match tokens with
  | ⟨.identifier name, _⟩ :: rest =>
      match identifiers rest with
      | .ok names following => .ok (name :: names) following
      | .error error following => .error error following
  | _ => .ok [] tokens

/-- Take a number. -/
def literal : ScriptReader Word := fun tokens =>
  match tokens with
  | ⟨.literal value, _⟩ :: rest => .ok value rest
  | _ => reject .literalExpected tokens

/-- Take the end of the line; the end of the text ends a line too, and stays. -/
def endOfLine : ScriptReader Unit := fun tokens =>
  match tokens with
  | [] => .ok () []
  | ⟨.newline, _⟩ :: rest => .ok () rest
  | ⟨.endOfFile, _⟩ :: _ => .ok () tokens
  | _ => reject .endOfLineExpected tokens

/-- Take the brace that opens the body of a function. -/
def openBody (function : String) : ScriptReader Unit := fun tokens =>
  match tokens with
  | ⟨.openBrace, _⟩ :: rest => .ok () rest
  | _ => reject (.bodyExpected function) tokens

end ScriptReader

/-- What one line of a script is. -/
inductive ScriptLine where
  /-- A command without a body. -/
  | whole (command : Command)
  /-- The first line of a command with a body. -/
  | opening (opener : Opener)

open ScriptReader in
/-- Read the line whose first token has been taken. -/
def readLine (first : LocatedToken) : ScriptReader ScriptLine := do
  match first.token with
  | .keyword .int =>
      let name ← identifier
      endOfLine
      return .whole (.declare .int name first.position)
  | .keyword .ref =>
      let name ← identifier
      endOfLine
      return .whole (.declare .ref name first.position)
  | .keyword .new =>
      let name ← identifier
      endOfLine
      return .whole (.allocate name first.position)
  | .keyword .set =>
      let name ← identifier
      let value ← literal
      endOfLine
      return .whole (.assign name value first.position)
  | .keyword .copy =>
      let target ← identifier
      let source ← identifier
      endOfLine
      return .whole (.copy target source first.position)
  | .keyword .input =>
      let name ← identifier
      endOfLine
      return .whole (.input name first.position)
  | .keyword .print =>
      let name ← identifier
      endOfLine
      return .whole (.print name first.position)
  | .keyword .call =>
      let name ← identifier
      let actuals ← identifiers
      endOfLine
      return .whole (.call name actuals first.position)
  | .openBrace =>
      endOfLine
      return .opening .block
  | .keyword .beginFrame =>
      endOfLine
      return .opening .frame
  | .keyword .function =>
      let name ← identifier
      let formals ← identifiers
      openBody name
      endOfLine
      return .opening (.function name formals)
  | found => throw ⟨.unexpectedToken found, first.position⟩

/-- A reading never adds tokens. -/
def ScriptReader.Shrinks {α : Type} (reader : ScriptReader α) : Prop :=
  ∀ (tokens : List LocatedToken) (value : α) (rest : List LocatedToken),
    reader tokens = .ok value rest → rest.length ≤ tokens.length

namespace ScriptReader

theorem Shrinks.pure {α : Type} (value : α) : Shrinks (pure value : ScriptReader α) := by
  intro tokens result rest accepted
  cases accepted
  exact Nat.le_refl _

theorem Shrinks.bind {α β : Type} {reader : ScriptReader α} {next : α → ScriptReader β}
    (firstShrinks : reader.Shrinks) (nextShrinks : ∀ value, (next value).Shrinks) :
    (reader >>= next).Shrinks := by
  intro tokens result rest accepted
  change EStateM.bind reader next tokens = _ at accepted
  unfold EStateM.bind at accepted
  split at accepted
  case h_1 value middle taken =>
    exact Nat.le_trans (nextShrinks value middle result rest accepted)
      (firstShrinks tokens value middle taken)
  case h_2 => contradiction

theorem identifier_shrinks : identifier.Shrinks := by
  intro tokens name rest accepted
  unfold identifier at accepted
  split at accepted
  · cases accepted
    exact Nat.le_succ _
  · contradiction

theorem identifiers_shrinks : identifiers.Shrinks := by
  intro tokens
  induction tokens with
  | nil =>
      intro names rest accepted
      unfold identifiers at accepted
      cases accepted
      exact Nat.le_refl _
  | cons first following inductionHypothesis =>
      intro names rest accepted
      unfold identifiers at accepted
      split at accepted
      case h_1 taken =>
        cases taken
        split at accepted
        case h_1 later =>
          cases accepted
          exact Nat.le_succ_of_le (inductionHypothesis _ _ later)
        case h_2 => contradiction
      case h_2 =>
        cases accepted
        exact Nat.le_refl _

theorem literal_shrinks : literal.Shrinks := by
  intro tokens value rest accepted
  unfold literal at accepted
  split at accepted
  · cases accepted
    exact Nat.le_succ _
  · contradiction

theorem endOfLine_shrinks : endOfLine.Shrinks := by
  intro tokens result rest accepted
  unfold endOfLine at accepted
  split at accepted
  · cases accepted
    exact Nat.le_refl _
  · cases accepted
    exact Nat.le_succ _
  · cases accepted
    exact Nat.le_refl _
  · contradiction

theorem openBody_shrinks (function : String) : (openBody function).Shrinks := by
  intro tokens result rest accepted
  unfold openBody at accepted
  split at accepted
  · cases accepted
    exact Nat.le_succ _
  · contradiction

end ScriptReader

open ScriptReader in
/-- Reading a line takes no tokens but from the front. -/
theorem readLine_shrinks (first : LocatedToken) : (readLine first).Shrinks := by
  have named {α : Type} {next : String → ScriptReader α}
      (nextShrinks : ∀ name, (next name).Shrinks) : (identifier >>= next).Shrinks :=
    identifier_shrinks.bind nextShrinks
  have closed (line : ScriptLine) :
      (endOfLine >>= fun _ => (pure line : ScriptReader ScriptLine)).Shrinks :=
    endOfLine_shrinks.bind fun _ => .pure line
  unfold readLine
  split
  case h_1 => exact named fun _ => closed _
  case h_2 => exact named fun _ => closed _
  case h_3 => exact named fun _ => closed _
  case h_4 => exact named fun _ => literal_shrinks.bind fun _ => closed _
  case h_5 => exact named fun _ => named fun _ => closed _
  case h_6 => exact named fun _ => closed _
  case h_7 => exact named fun _ => closed _
  case h_8 => exact named fun _ => identifiers_shrinks.bind fun _ => closed _
  case h_9 => exact closed _
  case h_10 => exact closed _
  case h_11 =>
    exact named fun name =>
      identifiers_shrinks.bind fun _ => (openBody_shrinks name).bind fun _ => closed _
  case h_12 =>
    intro tokens result rest accepted
    contradiction

/-- A body whose closing token has not been read yet. -/
structure OpenBody where
  opener : Opener
  position : Position
  /-- The commands before it in the body around it, latest first. -/
  preceding : List Command

/-- End a script; every body has to be closed by then. -/
def endScript (enclosing : List OpenBody) (commands : List Command) :
    ScriptReader (List Command) := fun tokens =>
  match enclosing with
  | [] => .ok commands.reverse tokens
  | innermost :: _ =>
      .error ⟨.unclosed innermost.opener, (ScriptReader.peek tokens).position⟩ tokens

/-- The innermost open body, with those around it, if the token closes it. -/
def closedBy? (token : Token) : List OpenBody → Option (OpenBody × List OpenBody)
  | [] => none
  | innermost :: outer =>
      if token = innermost.opener.closer then
        some (innermost, outer)
      else
        none

/--
Read the rest of a script inside the given open bodies, given the commands
already read in the innermost one, latest first.
-/
def readRest
    (enclosing : List OpenBody)
    (commands : List Command)
    (tokens : List LocatedToken) :
    EStateM.Result ScriptError (List LocatedToken) (List Command) :=
  match tokens with
  | [] => endScript enclosing commands []
  | first :: rest =>
      match first.token with
      | .newline => readRest enclosing commands rest
      | .endOfFile => endScript enclosing commands (first :: rest)
      | token =>
          match closedBy? token enclosing with
          | some (innermost, outer) =>
              match _closed : ScriptReader.endOfLine rest with
              | .ok _ following =>
                  let command :=
                    innermost.opener.command innermost.position commands.reverse
                  readRest outer (command :: innermost.preceding) following
              | .error error following => .error error following
          | none =>
              match _line : readLine first rest with
              | .ok (.whole command) following =>
                  readRest enclosing (command :: commands) following
              | .ok (.opening opener) following =>
                  readRest (⟨opener, first.position, commands⟩ :: enclosing) [] following
              | .error error following => .error error following
termination_by tokens.length
decreasing_by
  · exact Nat.lt_succ_self _
  · exact Nat.lt_succ_of_le (ScriptReader.endOfLine_shrinks _ _ _ _closed)
  · exact Nat.lt_succ_of_le (readLine_shrinks first _ _ _ _line)
  · exact Nat.lt_succ_of_le (readLine_shrinks first _ _ _ _line)

/-- Read a script up to the end of the text, which stays. -/
def readScript : ScriptReader (List Command) :=
  readRest [] []

/-- The tokens from which the script of a text is read. -/
def scriptTokens (text : String) : Except ScriptError (List LocatedToken) :=
  (tokensOf text).mapError ScriptError.ofScanError

/-- The script that a text holds. -/
def scriptOf (text : String) : Except ScriptError (List Command) :=
  match scriptTokens text with
  | .error error => .error error
  | .ok tokens =>
      match readScript tokens with
      | .ok commands _ => .ok commands
      | .error error _ => .error error

end RefScript
