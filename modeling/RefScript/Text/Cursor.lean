import RefScript.Text.Position

namespace RefScript

/-!
# Cursors

A cursor stands between two characters of a text. It knows the characters that
follow and the position of the next one; the main statements say that moving
it never adds characters, which is what bounds every scan.
-/

/-- A place in a text: what follows, and the position of the next character. -/
structure Cursor where
  remaining : List Char
  /-- Where the next character stands. -/
  position : Position
  deriving DecidableEq, Repr

namespace Cursor

/-- The cursor before the first character of a text. -/
def ofString (text : String) : Cursor :=
  ⟨text.toList, Position.first⟩

/-- The next character and the cursor after it. -/
def next? (cursor : Cursor) : Option (Char × Cursor) :=
  match cursor.remaining with
  | [] => none
  | character :: rest => some (character, ⟨rest, cursor.position.after character⟩)

/-- Whether a character of the given class follows. -/
def startsWith (cursor : Cursor) (accepts : Char → Bool) : Bool :=
  cursor.remaining.head?.any accepts

/-- The longest run of characters of a class that follows. -/
def run (cursor : Cursor) (accepts : Char → Bool) : List Char :=
  cursor.remaining.takeWhile accepts

/-- The cursor after the longest run of characters of a class. -/
def afterRun (cursor : Cursor) (accepts : Char → Bool) : Cursor :=
  ⟨cursor.remaining.dropWhile accepts, cursor.position.afterAll (cursor.run accepts)⟩

/-- Reading a character leaves one fewer. -/
theorem length_next? {cursor rest : Cursor} {character : Char}
    (read : cursor.next? = some (character, rest)) :
    cursor.remaining.length = rest.remaining.length + 1 := by
  unfold next? at read
  split at read
  case h_1 => contradiction
  case h_2 following remainingEq =>
    cases read
    simp [remainingEq]

/-- Reading a run leaves no more characters than there were. -/
theorem length_afterRun_le (cursor : Cursor) (accepts : Char → Bool) :
    (cursor.afterRun accepts).remaining.length ≤ cursor.remaining.length :=
  (List.dropWhile_sublist accepts).length_le

end Cursor

end RefScript
