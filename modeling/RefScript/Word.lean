namespace RefScript

/-!
# Words and handles

A variable holds a word, a signed 32-bit integer. A heap slot is designated by
its handle, the number of slots allocated before it. A reference variable
stores a handle as a word, so the two conversions here are partial: a negative
word designates no slot, and a handle of `2 ^ 31` or more fits in no word.
-/

/-- A scalar: what variables and heap slots hold. -/
abbrev Word := Int32

/-- The index of a heap slot, counted in allocation order from zero. -/
abbrev Handle := Nat

namespace Word

/-- The least integer that is a word. -/
def least : Int := -2147483648

/-- The greatest integer that is a word. -/
def greatest : Int := 2147483647

/-- The word with the given value, if the value is in range. -/
def ofInt? (value : Int) : Option Word :=
  if least ≤ value ∧ value ≤ greatest then
    some (Int32.ofInt value)
  else
    none

/-- The handle spelled by a word; a negative word spells none. -/
def toHandle? (word : Word) : Option Handle :=
  if word.toInt < 0 then
    none
  else
    some word.toInt.toNat

/-- The word that spells a handle; a handle past the last word has none. -/
def ofHandle? (handle : Handle) : Option Word :=
  ofInt? handle

/-- The decimal text of a word, with a minus sign when it is negative. -/
def decimal (word : Word) : String :=
  toString word.toInt

/-- Reading a word's value back gives the word. -/
theorem ofInt?_toInt (word : Word) : ofInt? word.toInt = some word := by
  have lower : (-2147483648 : Int) ≤ word.toInt := Int32.le_toInt word
  have upper : word.toInt < 2147483648 := Int32.toInt_lt word
  have inRange : least ≤ word.toInt ∧ word.toInt ≤ greatest := by
    unfold least greatest
    omega
  rw [ofInt?, if_pos inRange, Int32.ofInt_toInt]

/-- The value of a word built from an integer is that integer. -/
theorem toInt_of_ofInt? {value : Int} {word : Word} (built : ofInt? value = some word) :
    word.toInt = value := by
  unfold ofInt? at built
  split at built
  case isTrue inRange =>
    cases built
    unfold least greatest at inRange
    exact Int32.toInt_ofInt_of_le (by omega) (by omega)
  case isFalse => contradiction

/-- The value of the word that spells a handle is the handle. -/
theorem toInt_of_ofHandle? {handle : Handle} {word : Word}
    (built : ofHandle? handle = some word) : word.toInt = handle :=
  toInt_of_ofInt? built

end Word

end RefScript
