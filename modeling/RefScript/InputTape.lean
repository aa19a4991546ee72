import RefScript.Text.Scan

namespace RefScript

/-!
# Input tapes

A program reads its input from a tape of literals, front to back, each once. A
data text is scanned like a script, but may hold nothing besides numbers, line
breaks and comments.
-/

/-- Literals, and the number of those already read. -/
structure InputTape where
  literals : Array Word
  /-- The index of the literal that is read next. -/
  position : Nat
  deriving DecidableEq

namespace InputTape

/-- A tape of which nothing has been read. -/
def ofLiterals (literals : Array Word) : InputTape :=
  ⟨literals, 0⟩

/-- The tape without literals. -/
def empty : InputTape :=
  ofLiterals #[]

/-- Whether every literal has been read. -/
def atEnd (tape : InputTape) : Bool :=
  tape.literals.size ≤ tape.position

/-- The number of literals not yet read. -/
def remaining (tape : InputTape) : Nat :=
  tape.literals.size - tape.position

/-- The literal that is read next; zero stands in at the end. -/
def current (tape : InputTape) : Word :=
  tape.literals.getD tape.position 0

/-- Pass to the next literal; at the end the tape stays. -/
def advance (tape : InputTape) : InputTape :=
  if tape.atEnd then
    tape
  else
    { tape with position := tape.position + 1 }

/-- The numbers among tokens that hold nothing else but line breaks and the end. -/
def literalsOf : List LocatedToken → Except ScanError (List Word)
  | [] => .ok []
  | ⟨.literal value, _⟩ :: rest => (literalsOf rest).map (value :: ·)
  | ⟨.newline, _⟩ :: rest => literalsOf rest
  | ⟨.endOfFile, _⟩ :: rest => literalsOf rest
  | ⟨found, position⟩ :: _ => .error ⟨.literalExpected found, position⟩

/-- A number that is read comes before those that are read after it. -/
theorem literalsOf_literal_eq_ok_iff
    {value : Word} {position : Position} {rest : List LocatedToken} {values : List Word} :
    literalsOf (⟨.literal value, position⟩ :: rest) = .ok values ↔
      ∃ later, literalsOf rest = .ok later ∧ values = value :: later := by
  show (literalsOf rest).map (value :: ·) = .ok values ↔ _
  cases literalsOf rest with
  | error failure =>
      exact ⟨nofun, fun ⟨_, impossible, _⟩ => nomatch impossible⟩
  | ok later =>
      constructor
      · intro isAll
        cases isAll
        exact ⟨later, rfl, rfl⟩
      · rintro ⟨_, isLater, rfl⟩
        cases isLater
        rfl

/-- The numbers among tokens in two parts are those of the one and then of the other. -/
theorem literalsOf_append_eq_ok_iff
    {first second : List LocatedToken} {values : List Word} :
    literalsOf (first ++ second) = .ok values ↔
      ∃ earlier later,
        literalsOf first = .ok earlier ∧
          literalsOf second = .ok later ∧ values = earlier ++ later := by
  induction first generalizing values with
  | nil =>
      constructor
      · intro isLater
        exact ⟨[], values, rfl, isLater, rfl⟩
      · rintro ⟨_, later, noneEarlier, isLater, rfl⟩
        cases noneEarlier
        exact isLater
  | cons located rest inductionHypothesis =>
      obtain ⟨token, position⟩ := located
      cases token with
      | literal value =>
          simp only [List.cons_append, literalsOf_literal_eq_ok_iff, inductionHypothesis]
          constructor
          · rintro ⟨_, ⟨earlier, later, isEarlier, isLater, rfl⟩, rfl⟩
            exact ⟨value :: earlier, later, ⟨earlier, isEarlier, rfl⟩, isLater, rfl⟩
          · rintro ⟨_, later, ⟨earlier, isEarlier, rfl⟩, isLater, rfl⟩
            exact ⟨earlier ++ later, ⟨earlier, later, isEarlier, isLater, rfl⟩, rfl⟩
      | newline | endOfFile =>
          exact inductionHypothesis
      | _ =>
          exact ⟨nofun, fun ⟨_, _, impossible, _⟩ => nomatch impossible⟩

/-- The tape that a data text holds. -/
def ofText (text : String) : Except ScanError InputTape :=
  match tokensOf text with
  | .error error => .error error
  | .ok tokens => (literalsOf tokens).map fun literals => ofLiterals literals.toArray

end InputTape

end RefScript
