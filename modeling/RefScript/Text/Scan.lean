import RefScript.Text.Cursor
import RefScript.Text.Token

namespace RefScript

/-!
# Scanning a text into tokens

Blanks and comments separate tokens and are dropped; a comment runs from `#`
to the end of its line. Words and numbers are taken as long as possible. A line
feed is a token only if a token stands before it on its line, so that blank
lines leave no trace. A scan that fails leaves the cursor after the characters
it has read, and the next scan goes on from there.
-/

/-- Why a text is not a sequence of tokens, or not a data text. -/
inductive ScanFailure where
  | unexpectedCharacter (character : Char)
  /-- A number runs into a word. -/
  | malformedLiteral (spelling : String)
  | literalOutOfRange (spelling : String)
  /-- A data text holds something else than numbers. -/
  | literalExpected (found : Token)
  deriving DecidableEq, Repr

/-- The wording of a failure. -/
def ScanFailure.text : ScanFailure → String
  | unexpectedCharacter character => s!"Unexpected character '{character}'"
  | malformedLiteral spelling => s!"Invalid integer literal: {spelling}"
  | literalOutOfRange spelling => s!"Integer literal out of range: {spelling}"
  | literalExpected found => s!"Expected integer literal in data, found {found.text}"

/-- A failure and where it happened. -/
structure ScanError where
  failure : ScanFailure
  /-- Where the offending token starts. -/
  position : Position
  deriving DecidableEq, Repr

/-- The full error message. -/
def ScanError.message (error : ScanError) : String :=
  s!"Lexer error at {error.position.text}: {error.failure.text}"

/-- Scans read from a cursor; a failed scan keeps the place it has reached. -/
abbrev Scanner := EStateM ScanError Cursor

/-- Decimal digits. -/
def isDigit (character : Char) : Bool :=
  '0' ≤ character ∧ character ≤ '9'

/-- Characters that start a word: ASCII letters and the underscore. -/
def isWordStart (character : Char) : Bool :=
  ('a' ≤ character ∧ character ≤ 'z') ∨ ('A' ≤ character ∧ character ≤ 'Z') ∨ character = '_'

/-- Characters that continue a word. -/
def isWordPart (character : Char) : Bool :=
  isWordStart character || isDigit character

/-- Characters that only separate tokens within a line. -/
def isBlank (character : Char) : Bool :=
  character = ' ' ∨ character = '\t' ∨ character = '\r'

/-- The integer that a spelled number denotes: an optional minus sign, then digits. -/
def literalValue : List Char → Int
  | '-' :: digits => -(Nat.ofDigitChars 10 digits 0 : Int)
  | digits => (Nat.ofDigitChars 10 digits 0 : Int)

namespace Cursor

/-- The cursor after the blanks, and the comment, that follow. -/
def skipTrivia (cursor : Cursor) : Cursor :=
  let unblanked := cursor.afterRun isBlank
  if unblanked.startsWith (· = '#') then
    unblanked.afterRun (· ≠ '\n')
  else
    unblanked

theorem length_skipTrivia_le (cursor : Cursor) :
    cursor.skipTrivia.remaining.length ≤ cursor.remaining.length := by
  have unblanked := cursor.length_afterRun_le isBlank
  unfold skipTrivia
  dsimp only
  split
  · exact Nat.le_trans (length_afterRun_le _ _) unblanked
  · exact unblanked

end Cursor

/-- Scan a number whose first character has been read at the given position. -/
def scanLiteral (first : Char) (start : Position) : Scanner Token := fun cursor =>
  let spelling := first :: cursor.run isDigit
  let rest := cursor.afterRun isDigit
  if rest.startsWith isWordStart then
    .error
      ⟨.malformedLiteral (String.ofList (spelling ++ rest.run isWordPart)), start⟩
      (rest.afterRun isWordPart)
  else
    match Word.ofInt? (literalValue spelling) with
    | some value => .ok (.literal value) rest
    | none => .error ⟨.literalOutOfRange (String.ofList spelling), start⟩ rest

/-- Scan a word whose first character has been read. -/
def scanWord (first : Char) : Scanner Token := fun cursor =>
  .ok (.ofWord (String.ofList (first :: cursor.run isWordPart))) (cursor.afterRun isWordPart)

/-- Scan the token whose first character has been read at the given position. -/
def scanToken (first : Char) (start : Position) : Scanner Token := fun cursor =>
  if first = '\x7b' then
    .ok .openBrace cursor
  else if first = '\x7d' then
    .ok .closeBrace cursor
  else if isDigit first || (first = '-' && cursor.startsWith isDigit) then
    scanLiteral first start cursor
  else if isWordStart first then
    scanWord first cursor
  else
    .error ⟨.unexpectedCharacter first, start⟩ cursor

/-- A token is scanned without adding characters to the text. -/
theorem length_scanToken_le {first : Char} {start : Position} {cursor rest : Cursor}
    {token : Token} (scanned : scanToken first start cursor = .ok token rest) :
    rest.remaining.length ≤ cursor.remaining.length := by
  unfold scanToken at scanned
  split at scanned
  · cases scanned
    exact Nat.le_refl _
  split at scanned
  · cases scanned
    exact Nat.le_refl _
  split at scanned
  · unfold scanLiteral at scanned
    dsimp only at scanned
    split at scanned
    · contradiction
    split at scanned
    · cases scanned
      exact Cursor.length_afterRun_le _ _
    · contradiction
  split at scanned
  · cases scanned
    exact Cursor.length_afterRun_le _ _
  · contradiction

/--
The tokens read so far, latest first, after a line feed at the given position.

A line feed before the first token, or right after another one, is dropped.
-/
def breakLine (read : List LocatedToken) (position : Position) : List LocatedToken :=
  match read with
  | [] => []
  | ⟨.newline, _⟩ :: _ => read
  | _ => ⟨.newline, position⟩ :: read

/-- Scan the rest of a text, given the tokens already read, latest first. -/
def scanRest (read : List LocatedToken) (cursor : Cursor) :
    EStateM.Result ScanError Cursor (List LocatedToken) :=
  match _advanced : cursor.skipTrivia.next? with
  | none =>
      let final := cursor.skipTrivia
      .ok (⟨.endOfFile, final.position⟩ :: read).reverse final
  | some (first, rest) =>
      let start := cursor.skipTrivia.position
      if first = '\n' then
        scanRest (breakLine read start) rest
      else
        match _scanned : scanToken first start rest with
        | .ok token following => scanRest (⟨token, start⟩ :: read) following
        | .error error following => .error error following
termination_by cursor.remaining.length
decreasing_by
  · have shorter := Cursor.length_next? _advanced
    have skipped := cursor.length_skipTrivia_le
    omega
  · have shorter := Cursor.length_next? _advanced
    have skipped := cursor.length_skipTrivia_le
    have consumed := length_scanToken_le _scanned
    omega

/-- Scan everything that follows the cursor; the last token is the end of the text. -/
def tokenize : Scanner (List LocatedToken) :=
  scanRest []

/-- The tokens of a whole text. -/
def tokensOf (text : String) : Except ScanError (List LocatedToken) :=
  match tokenize (Cursor.ofString text) with
  | .ok tokens _ => .ok tokens
  | .error error _ => .error error

end RefScript
