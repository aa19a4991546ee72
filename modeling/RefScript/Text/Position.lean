namespace RefScript

/-!
# Positions in a text

A position is a line and a column, both counted from one. Columns count
characters, and a line feed belongs to the line it ends.
-/

/-- Where a character stands in a text. -/
structure Position where
  /-- One more than the number of line feeds before the character. -/
  line : Nat
  /-- One more than the number of characters since the last line feed. -/
  column : Nat
  deriving DecidableEq, Repr

namespace Position

/-- The position of the first character. -/
def first : Position :=
  ⟨1, 1⟩

/-- The position after a character that stands at the given one. -/
def after (position : Position) (character : Char) : Position :=
  if character = '\n' then
    ⟨position.line + 1, 1⟩
  else
    ⟨position.line, position.column + 1⟩

/-- The position after a run of characters that starts at the given one. -/
def afterAll (position : Position) (characters : List Char) : Position :=
  characters.foldl after position

@[simp] theorem afterAll_nil (position : Position) : position.afterAll [] = position :=
  rfl

@[simp] theorem afterAll_cons (position : Position) (character : Char) (rest : List Char) :
    position.afterAll (character :: rest) = (position.after character).afterAll rest :=
  rfl

/-- The way an error message names a position. -/
def text (position : Position) : String :=
  s!"line {position.line}, column {position.column}"

end Position

end RefScript
