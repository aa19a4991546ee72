import RefScript.Text.Position
import RefScript.Word

namespace RefScript

/-!
# Tokens

Scripts and data texts are made of the same tokens. Line breaks are tokens,
because a script has one command on a line, and the end of the text is a token
of its own.
-/

/-- The reserved words. -/
inductive Keyword where
  | int
  | ref
  | new
  | set
  | copy
  | input
  | print
  | beginFrame
  | endFrame
  | function
  | call
  deriving DecidableEq, Repr

namespace Keyword

/-- Every reserved word. -/
def all : List Keyword :=
  [int, ref, new, set, copy, input, print, beginFrame, endFrame, function, call]

/-- How a reserved word is written. -/
def spelling : Keyword → String
  | int => "int"
  | ref => "ref"
  | new => "new"
  | set => "set"
  | copy => "copy"
  | input => "input"
  | print => "print"
  | beginFrame => "begin"
  | endFrame => "end"
  | function => "func"
  | call => "call"

/-- The reserved word that a word spells, if it is reserved. -/
def ofSpelling? (word : String) : Option Keyword :=
  all.find? fun keyword => keyword.spelling = word

/-- A word is read as a reserved word exactly when it is spelled like it. -/
theorem ofSpelling?_eq_some_iff {word : String} {keyword : Keyword} :
    ofSpelling? word = some keyword ↔ keyword.spelling = word := by
  constructor
  · intro found
    simpa using List.find?_some found
  · intro spelled
    subst spelled
    cases keyword <;> decide

end Keyword

/-- The smallest units of a text. -/
inductive Token where
  /-- A decimal integer in the range of words. -/
  | literal (value : Word)
  /-- A word that is not reserved. -/
  | identifier (name : String)
  | keyword (reserved : Keyword)
  | openBrace
  | closeBrace
  /-- The end of a line that holds a token. -/
  | newline
  | endOfFile
  deriving DecidableEq, Repr

namespace Token

/-- The token that a word is: a reserved word or else an identifier. -/
def ofWord (word : String) : Token :=
  match Keyword.ofSpelling? word with
  | some reserved => .keyword reserved
  | none => .identifier word

/-- The way an error message names a token. -/
def text : Token → String
  | .literal value => s!"int literal {value.decimal}"
  | .identifier name => s!"identifier '{name}'"
  | .keyword reserved => s!"'{reserved.spelling}'"
  | .openBrace => "'\x7b'"
  | .closeBrace => "'\x7d'"
  | .newline => "end of line"
  | .endOfFile => "end of file"

end Token

/-- A token and the position of its first character. -/
structure LocatedToken where
  token : Token
  /-- Where the token starts. -/
  position : Position
  deriving DecidableEq, Repr

end RefScript
