import RefScript.Proofs.Text.Indexing

namespace RefScript

/-!
# Lexemes

What the scanner makes of a text, said without the scanner. The lexemes are the
ranges of characters that spell the tokens; every other character separates
them. The tokens of the text are those of its lexemes in order, with a line
break after each one that a line feed follows before the next, and the end of
the text.
-/

/-- The ways to spell a token. -/
inductive Spells : Token → List Char → Prop where
  | openBrace : Spells .openBrace ['\x7b']
  | closeBrace : Spells .closeBrace ['\x7d']
  | keyword (reserved : Keyword) :
      Spells (.keyword reserved) reserved.spelling.toList
  | identifier
      {first : Char} {rest : List Char}
      (starts : isWordStart first = true)
      (continues : ∀ character ∈ rest, isWordPart character = true)
      (notReserved : ∀ reserved : Keyword, reserved.spelling.toList ≠ first :: rest) :
      Spells (.identifier (String.ofList (first :: rest))) (first :: rest)
  | natural
      {digits : List Char} {value : Word}
      (nonempty : digits ≠ [])
      (allDigits : ∀ character ∈ digits, isDigit character = true)
      (denotes : value.toInt = (Nat.ofDigitChars 10 digits 0 : Int)) :
      Spells (.literal value) digits
  | negative
      {digits : List Char} {value : Word}
      (nonempty : digits ≠ [])
      (allDigits : ∀ character ∈ digits, isDigit character = true)
      (denotes : value.toInt = -(Nat.ofDigitChars 10 digits 0 : Int)) :
      Spells (.literal value) ('-' :: digits)

/-- Words and numbers: a letter, digit or underscore after one would belong to it. -/
def Token.isWordLike : Token → Bool
  | .literal _ | .identifier _ | .keyword _ => true
  | _ => false

/-- The character stands in a comment: there is a '#' on its line, at it or before it. -/
def InComment (characters : List Char) (index : Nat) : Prop :=
  ∃ opening ≤ index, characters[opening]? = some '#' ∧
    ∀ between, opening ≤ between → between ≤ index → characters[between]? ≠ some '\n'

/-- The character belongs to no token: it is a blank, a line feed or part of a comment. -/
def IsSeparator (characters : List Char) (index : Nat) : Prop :=
  characters[index]?.any isBlank = true ∨
    characters[index]? = some '\n' ∨
    InComment characters index

/-- A token and the characters that spell it, from the index `start` up to before `stop`. -/
structure Lexeme where
  token : Token
  start : Nat
  stop : Nat

/-- The lexemes of a text from an index on. -/
structure Lexed
    (characters : List Char)
    (origin : Nat)
    (lexemes : List Lexeme) : Prop where
  ordered : lexemes.Pairwise fun earlier later => earlier.stop ≤ later.start
  located :
    ∀ lexeme ∈ lexemes,
      origin ≤ lexeme.start ∧ lexeme.start < lexeme.stop ∧
        lexeme.stop ≤ characters.length
  spelled :
    ∀ lexeme ∈ lexemes,
      Spells lexeme.token (characters.extract lexeme.start lexeme.stop)
  longest :
    ∀ lexeme ∈ lexemes, lexeme.token.isWordLike = true →
      characters[lexeme.stop]?.any isWordPart = false
  /-- Exactly the characters that separate nothing are in a lexeme. -/
  complete :
    ∀ index, origin ≤ index → index < characters.length →
      ((∃ lexeme ∈ lexemes, lexeme.start ≤ index ∧ index < lexeme.stop) ↔
        ¬ IsSeparator characters index)

/-- The first line feed from an index on and before another. -/
def firstLineFeed? (characters : List Char) (start stop : Nat) : Option Nat :=
  (List.range' start (stop - start)).find? fun index => characters[index]? = some '\n'

/--
The line break between the end of a lexeme and the start of the next, at the
first line feed if there is any. There is none before the first lexeme.
-/
def breakBetween (characters : List Char) : Option Nat → Nat → List LocatedToken
  | none, _ => []
  | some stop, start =>
      (firstLineFeed? characters stop start).toList.map fun index =>
        ⟨.newline, Position.ofIndex characters index⟩

/-- The tokens of the given lexemes, after one that ended at the given index, if any did. -/
def tokensAfter (characters : List Char) (ended : Option Nat) :
    List Lexeme → List LocatedToken
  | [] =>
      breakBetween characters ended characters.length ++
        [⟨.endOfFile, Position.ofIndex characters characters.length⟩]
  | lexeme :: rest =>
      breakBetween characters ended lexeme.start ++
        ⟨lexeme.token, Position.ofIndex characters lexeme.start⟩ ::
          tokensAfter characters (some lexeme.stop) rest

variable {characters : List Char}

/-! ## Line breaks -/

private theorem firstLineFeed?_succ
    {start stop : Nat}
    (ordered : start ≤ stop) :
    firstLineFeed? characters start (stop + 1) =
      (firstLineFeed? characters start stop).or
        (if characters[stop]? = some '\n' then some stop else none) := by
  have oneMore : stop + 1 - start = (stop - start) + 1 := by omega
  have lastIndex : start + (stop - start) = stop := by omega
  simp only [firstLineFeed?, oneMore, List.range'_concat, List.find?_append, Nat.one_mul,
    lastIndex, List.find?_singleton, decide_eq_true_eq]

/-- Characters without a line feed add no first one. -/
private theorem firstLineFeed?_of_none
    {start middle stop : Nat}
    (startBefore : start ≤ middle)
    (middleBefore : middle ≤ stop)
    (noLineFeed : ∀ index, middle ≤ index → index < stop → characters[index]? ≠ some '\n') :
    firstLineFeed? characters start stop = firstLineFeed? characters start middle := by
  obtain ⟨count, rfl⟩ := Nat.exists_eq_add_of_le middleBefore
  induction count with
  | zero =>
      rfl
  | succ count inductionHypothesis =>
      have notHere := noLineFeed (middle + count) (by omega) (by omega)
      rw [← Nat.add_assoc, firstLineFeed?_succ (by omega), if_neg notHere, Option.or_none]
      exact inductionHypothesis (by omega) fun index after before =>
        noLineFeed index after (by omega)

theorem breakBetween_self (stop : Nat) : breakBetween characters (some stop) stop = [] := by
  simp [breakBetween, firstLineFeed?]

@[simp] theorem reverse_breakBetween (ended : Option Nat) (start : Nat) :
    (breakBetween characters ended start).reverse = breakBetween characters ended start := by
  cases ended with
  | none =>
      rfl
  | some stop =>
      simp only [breakBetween]
      cases firstLineFeed? characters stop start <;> rfl

/-- Characters without a line feed add no line break. -/
theorem breakBetween_of_no_lineFeed
    {ended : Option Nat}
    {start later : Nat}
    (endedBefore : ∀ stop ∈ ended, stop ≤ start)
    (ordered : start ≤ later)
    (noLineFeed : ∀ index, start ≤ index → index < later → characters[index]? ≠ some '\n') :
    breakBetween characters ended later = breakBetween characters ended start := by
  cases ended with
  | none =>
      rfl
  | some stop =>
      simp only [breakBetween]
      rw [firstLineFeed?_of_none (endedBefore stop rfl) ordered noLineFeed]

/-- The tokens up to a lexeme that ended, latest first; without one, none. -/
def EndsWithWord : Option Nat → List LocatedToken → Prop
  | none, read => read = []
  | some _, read => ∃ word earlier, read = word :: earlier ∧ word.token ≠ .newline

/-- A line feed adds a line break if it is the first one after a lexeme. -/
theorem breakLine_breakBetween
    {ended : Option Nat}
    {read : List LocatedToken}
    {index : Nat}
    (endsWithWord : EndsWithWord ended read)
    (endedBefore : ∀ stop ∈ ended, stop ≤ index)
    (lineFeed : characters[index]? = some '\n') :
    breakLine (breakBetween characters ended index ++ read)
        (Position.ofIndex characters index) =
      breakBetween characters ended (index + 1) ++ read := by
  cases ended with
  | none =>
      cases endsWithWord
      rfl
  | some stop =>
      obtain ⟨⟨token, position⟩, earlier, rfl, notNewline⟩ := endsWithWord
      simp only [breakBetween, firstLineFeed?_succ (endedBefore stop rfl), if_pos lineFeed]
      cases firstLineFeed? characters stop index with
      | some first =>
          rfl
      | none =>
          cases token with
          | newline => exact (notNewline rfl).elim
          | _ => rfl

/-! ## The tokens of lexemes -/

/-- Tokens other than line breaks and the end of the text are spelled by characters. -/
def Token.isSpelled (token : Token) : Bool :=
  token ≠ .newline && token ≠ .endOfFile

theorem Spells.isSpelled
    {token : Token}
    {spelling : List Char}
    (spells : Spells token spelling) :
    token.isSpelled = true := by
  cases spells <;> rfl

private theorem filter_breakBetween (ended : Option Nat) (start : Nat) :
    (breakBetween characters ended start).filter (fun found => found.token.isSpelled) = [] := by
  cases ended with
  | none =>
      rfl
  | some stop =>
      simp only [breakBetween]
      cases firstLineFeed? characters stop start <;> rfl

/-- Line breaks and the end apart, the tokens are those of the lexemes. -/
theorem filter_tokensAfter
    {lexemes : List Lexeme}
    (spelled : ∀ lexeme ∈ lexemes, lexeme.token.isSpelled = true)
    (ended : Option Nat) :
    (tokensAfter characters ended lexemes).filter (fun found => found.token.isSpelled) =
      lexemes.map fun lexeme =>
        ⟨lexeme.token, Position.ofIndex characters lexeme.start⟩ := by
  induction lexemes generalizing ended with
  | nil =>
      rw [tokensAfter, List.filter_append, filter_breakBetween]
      rfl
  | cons lexeme rest inductionHypothesis =>
      obtain ⟨isSpelled, others⟩ := List.forall_mem_cons.mp spelled
      simp only [tokensAfter, List.filter_append, filter_breakBetween, List.nil_append,
        List.filter_cons, isSpelled, ↓reduceIte, inductionHypothesis others, List.map_cons]

end RefScript
