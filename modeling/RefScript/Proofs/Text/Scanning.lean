import RefScript.Proofs.Text.Lexemes

namespace RefScript

/-!
# Scanning finds the lexemes

A scan that succeeds alternates between separators and lexemes. What it keeps
is that no comment reaches over the cursor, and that the tokens read so far are
those up to the last lexeme, with the line break that has followed it.
-/

variable {characters : List Char}

/-! ## Separators -/

/-- Every comment that starts before the index has ended before it. -/
def CommentsClosed (characters : List Char) (index : Nat) : Prop :=
  ∀ opening < index, characters[opening]? = some '#' →
    ∃ lineFeed, opening < lineFeed ∧ lineFeed < index ∧ characters[lineFeed]? = some '\n'

theorem commentsClosed_zero : CommentsClosed characters 0 :=
  fun _ impossible => (Nat.not_lt_zero _ impossible).elim

/-- A line feed closes every comment before it. -/
theorem commentsClosed_of_lineFeed
    {index : Nat}
    (lineFeed : characters[index]? = some '\n') :
    CommentsClosed characters (index + 1) := by
  intro opening before isOpening
  have notHere : opening ≠ index := by
    rintro rfl
    rw [isOpening] at lineFeed
    exact absurd lineFeed (by decide)
  exact ⟨index, by omega, Nat.lt_succ_self index, lineFeed⟩

/-- Characters other than '#' open no comment. -/
theorem CommentsClosed.extend
    {start stop : Nat}
    (closed : CommentsClosed characters start)
    (ordered : start ≤ stop)
    (unopened : ∀ index, start ≤ index → index < stop → characters[index]? ≠ some '#') :
    CommentsClosed characters stop := by
  intro opening before isOpening
  rcases Nat.lt_or_ge opening start with earlier | later
  · obtain ⟨lineFeed, after, beforeStart, isLineFeed⟩ := closed opening earlier isOpening
    exact ⟨lineFeed, after, Nat.lt_of_lt_of_le beforeStart ordered, isLineFeed⟩
  · exact (unopened opening later before isOpening).elim

/-- What is passed over before the next token or line feed. -/
structure TriviaRun (characters : List Char) (start stop : Nat) : Prop where
  start_le_stop : start ≤ stop
  stop_le_length : stop ≤ characters.length
  noLineFeed : ∀ index, start ≤ index → index < stop → characters[index]? ≠ some '\n'
  separators : ∀ index, start ≤ index → index < stop → IsSeparator characters index
  /-- At the end no comment is open, unless it is the end of a line. -/
  closed :
    CommentsClosed characters start →
      ∀ character, characters[stop]? = some character → character ≠ '\n' →
        CommentsClosed characters stop

namespace TriviaRun

theorem of_blanks
    {start stop : Nat}
    (blanks : LongestRun characters isBlank start stop) :
    TriviaRun characters start stop where
  start_le_stop := blanks.start_le_stop
  stop_le_length := blanks.stop_le_length
  noLineFeed index after before :=
    getElem?_ne_of_any (blanks.accepted index after before) rfl
  separators index after before := Or.inl (blanks.accepted index after before)
  closed closed _ _ _ :=
    closed.extend blanks.start_le_stop fun index after before =>
      getElem?_ne_of_any (blanks.accepted index after before) rfl

/-- A comment reaches up to the end of its line. -/
theorem of_comment
    {start middle stop : Nat}
    (blanks : LongestRun characters isBlank start middle)
    (opens : characters[middle]? = some '#')
    (comment : LongestRun characters (· ≠ '\n') middle stop) :
    TriviaRun characters start stop where
  start_le_stop := Nat.le_trans blanks.start_le_stop comment.start_le_stop
  stop_le_length := comment.stop_le_length
  noLineFeed index after before := by
    rcases Nat.lt_or_ge index middle with isBlank | inComment
    · exact getElem?_ne_of_any (blanks.accepted index after isBlank) rfl
    · exact getElem?_ne_of_any (comment.accepted index inComment before) rfl
  separators index after before := by
    rcases Nat.lt_or_ge index middle with isBlank | inComment
    · exact Or.inl (blanks.accepted index after isBlank)
    · refine Or.inr (Or.inr ⟨middle, inComment, opens, ?_⟩)
      intro between fromMiddle upToIndex
      exact getElem?_ne_of_any
        (comment.accepted between fromMiddle (Nat.lt_of_le_of_lt upToIndex before)) rfl
  closed _ character here notLineFeed := by
    have ended := comment.ended
    rw [here, Option.any_some] at ended
    simp [notLineFeed] at ended

end TriviaRun

theorem exists_skipTrivia
    {start : Nat}
    (inside : start ≤ characters.length) :
    ∃ stop,
      TriviaRun characters start stop ∧
        (Cursor.atIndex characters start).skipTrivia = Cursor.atIndex characters stop := by
  obtain ⟨middle, blanks, _, afterBlanks⟩ := Cursor.exists_run inside isBlank
  simp only [Cursor.skipTrivia, afterBlanks, Cursor.startsWith_atIndex]
  by_cases opens : characters[middle]? = some '#'
  · obtain ⟨stop, comment, _, afterComment⟩ :=
      Cursor.exists_run blanks.stop_le_length (· ≠ '\n')
    refine ⟨stop, .of_comment blanks opens comment, ?_⟩
    rw [if_pos (by simp [opens]), afterComment]
  · refine ⟨middle, .of_blanks blanks, if_neg ?_⟩
    simpa [Option.any_eq_true] using opens

/-! ## Lexemes -/

/-- The character neither separates tokens nor opens a comment. -/
def isLexical (character : Char) : Bool :=
  !isBlank character && character ≠ '\n' && character ≠ '#'

theorem isLexical_iff {character : Char} :
    isLexical character = true ↔
      isBlank character = false ∧ character ≠ '\n' ∧ character ≠ '#' := by
  simp [isLexical, and_assoc]

theorem isLexical_of_isWordPart
    {character : Char}
    (wordPart : isWordPart character = true) :
    isLexical character = true := by
  have isNot (other : Char) (separates : isWordPart other = false) : character ≠ other := by
    rintro rfl
    rw [separates] at wordPart
    contradiction
  simp [isLexical, isBlank, isNot ' ' rfl, isNot '\t' rfl, isNot '\r' rfl, isNot '\n' rfl,
    isNot '#' rfl]

theorem isWordPart_of_isDigit {character : Char} (digit : isDigit character = true) :
    isWordPart character = true := by
  simp [isWordPart, digit]

theorem isWordPart_of_isWordStart {character : Char} (starts : isWordStart character = true) :
    isWordPart character = true := by
  simp [isWordPart, starts]

private theorem isWordPart_of_reserved (reserved : Keyword) :
    ∀ character ∈ reserved.spelling.toList, isWordPart character = true := by
  rw [← List.all_eq_true]
  cases reserved <;> rfl

/-- Tokens are spelled without separators. -/
theorem Spells.isLexical
    {token : Token}
    {spelling : List Char}
    (spells : Spells token spelling) :
    ∀ character ∈ spelling, isLexical character = true := by
  intro character member
  cases spells with
  | openBrace =>
      rw [List.mem_singleton.mp member]
      rfl
  | closeBrace =>
      rw [List.mem_singleton.mp member]
      rfl
  | keyword reserved =>
      exact isLexical_of_isWordPart (isWordPart_of_reserved reserved character member)
  | identifier starts continues notReserved =>
      rcases List.mem_cons.mp member with rfl | inRest
      · exact isLexical_of_isWordPart (isWordPart_of_isWordStart starts)
      · exact isLexical_of_isWordPart (continues character inRest)
  | natural nonempty allDigits denotes =>
      exact isLexical_of_isWordPart (isWordPart_of_isDigit (allDigits character member))
  | negative nonempty allDigits denotes =>
      rcases List.mem_cons.mp member with rfl | inDigits
      · rfl
      · exact isLexical_of_isWordPart (isWordPart_of_isDigit (allDigits character inDigits))

/-- A word is read as the token that it spells. -/
private theorem spells_ofWord
    {first : Char}
    {rest : List Char}
    (starts : isWordStart first = true)
    (continues : ∀ character ∈ rest, isWordPart character = true) :
    Spells (.ofWord (String.ofList (first :: rest))) (first :: rest) := by
  unfold Token.ofWord
  cases reserved : Keyword.ofSpelling? (String.ofList (first :: rest)) with
  | some keyword =>
      have spelled := Keyword.ofSpelling?_eq_some_iff.mp reserved
      have sameCharacters : keyword.spelling.toList = first :: rest := by
        rw [spelled, String.toList_ofList]
      rw [← sameCharacters]
      exact .keyword keyword
  | none =>
      refine .identifier starts continues ?_
      intro keyword sameCharacters
      have spelled : keyword.spelling = String.ofList (first :: rest) := by
        rw [← sameCharacters, String.ofList_toList]
      rw [Keyword.ofSpelling?_eq_some_iff.mpr spelled] at reserved
      contradiction

/-- The digits after a first digit, or after a minus sign, spell the number they denote. -/
private theorem spells_literal
    {first : Char}
    {digits : List Char}
    {value : Word}
    (allDigits : ∀ character ∈ digits, isDigit character = true)
    (starts : isDigit first = true ∨ first = '-' ∧ digits ≠ [])
    (denotes : Word.ofInt? (literalValue (first :: digits)) = some value) :
    Spells (.literal value) (first :: digits) := by
  have sameValue := Word.toInt_of_ofInt? denotes
  rcases starts with digit | ⟨rfl, nonempty⟩
  · have notMinus : first ≠ '-' := by
      rintro rfl
      exact absurd digit (by decide)
    refine .natural (List.cons_ne_nil _ _) (List.forall_mem_cons.mpr ⟨digit, allDigits⟩) ?_
    rw [sameValue, literalValue]
    intro later same
    exact notMinus (List.cons.inj same).1
  · exact .negative nonempty allDigits sameValue

/-- A run of characters after a first one. -/
private theorem extract_of_run
    {start stop : Nat}
    {first : Char}
    (here : characters[start]? = some first)
    (ordered : start + 1 ≤ stop) :
    characters.extract start stop = first :: characters.extract (start + 1) stop := by
  obtain ⟨inside, isFirst⟩ := List.getElem?_eq_some_iff.mp here
  simp only [List.extract_eq_take_drop, List.drop_eq_getElem_cons inside, isFirst]
  rw [show stop - start = (stop - (start + 1)) + 1 by omega, List.take_succ_cons]

/-- The characters of a run are of its class. -/
private theorem forall_mem_of_run
    {accepts : Char → Bool}
    {start stop : Nat}
    (run : LongestRun characters accepts start stop) :
    ∀ character ∈ characters.extract start stop, accepts character = true := by
  intro character member
  obtain ⟨offset, isHere⟩ := List.mem_iff_getElem?.mp member
  rw [List.extract_eq_take_drop, List.getElem?_take, List.getElem?_drop] at isHere
  split at isHere
  · have accepted := run.accepted (start + offset) (by omega) (by omega)
    rwa [isHere, Option.any_some] at accepted
  · contradiction

/-- What a token that has been scanned takes from the text, as much as possible. -/
structure TakesLexeme
    (characters : List Char)
    (start : Nat)
    (token : Token)
    (stop : Nat) : Prop where
  start_lt_stop : start < stop
  stop_le_length : stop ≤ characters.length
  spelled : Spells token (characters.extract start stop)
  longest : token.isWordLike = true → characters[stop]?.any isWordPart = false

private theorem exists_scanLiteral
    {first : Char}
    {position : Position}
    {token : Token}
    {start : Nat}
    {following : Cursor}
    (here : characters[start]? = some first)
    (starts :
      isDigit first = true ∨
        first = '-' ∧ (Cursor.atIndex characters (start + 1)).startsWith isDigit = true)
    (scanned :
      scanLiteral first position (Cursor.atIndex characters (start + 1)) =
        .ok token following) :
    ∃ stop, following = Cursor.atIndex characters stop ∧
      TakesLexeme characters start token stop := by
  obtain ⟨stop, digits, taken, afterDigits⟩ :=
    Cursor.exists_run (List.getElem?_eq_some_iff.mp here).1 isDigit
  have spelling := extract_of_run here digits.start_le_stop
  simp only [scanLiteral, taken, afterDigits, Cursor.startsWith_atIndex] at scanned
  split at scanned
  · contradiction
  case isFalse noWord =>
    split at scanned
    case h_1 value denotes =>
      cases scanned
      refine ⟨stop, rfl, digits.start_le_stop, digits.stop_le_length, ?_, ?_⟩
      · rw [spelling]
        refine spells_literal (forall_mem_of_run digits) ?_ denotes
        refine starts.imp_right fun ⟨isMinus, digitFollows⟩ => ⟨isMinus, fun noDigits => ?_⟩
        have sameIndex : stop = start + 1 := by
          have noLength := congrArg List.length noDigits
          have ordered := digits.start_le_stop
          have inText := digits.stop_le_length
          simp only [List.extract_eq_take_drop, List.length_take, List.length_drop,
            List.length_nil] at noLength
          omega
        rw [Cursor.startsWith_atIndex, ← sameIndex, digits.ended] at digitFollows
        contradiction
      · intro _
        have noDigit := digits.ended
        cases next : characters[stop]? with
        | none =>
            rfl
        | some character =>
            simp only [next, Option.any_some] at noWord noDigit ⊢
            simp [isWordPart, noWord, noDigit]
    case h_2 =>
      contradiction

private theorem exists_scanWord
    {first : Char}
    {token : Token}
    {start : Nat}
    {following : Cursor}
    (here : characters[start]? = some first)
    (starts : isWordStart first = true)
    (scanned :
      scanWord first (Cursor.atIndex characters (start + 1)) = .ok token following) :
    ∃ stop, following = Cursor.atIndex characters stop ∧
      TakesLexeme characters start token stop := by
  obtain ⟨stop, word, taken, afterWord⟩ :=
    Cursor.exists_run (List.getElem?_eq_some_iff.mp here).1 isWordPart
  have spelling := extract_of_run here word.start_le_stop
  simp only [scanWord, taken, afterWord] at scanned
  cases scanned
  refine ⟨stop, rfl, word.start_le_stop, word.stop_le_length, ?_, fun _ => word.ended⟩
  rw [spelling]
  exact spells_ofWord starts (forall_mem_of_run word)

/-- A token that is scanned takes a lexeme, and the cursor is left at the end of that. -/
theorem exists_scanToken
    {first : Char}
    {position : Position}
    {token : Token}
    {start : Nat}
    {following : Cursor}
    (here : characters[start]? = some first)
    (scanned :
      scanToken first position (Cursor.atIndex characters (start + 1)) =
        .ok token following) :
    ∃ stop, following = Cursor.atIndex characters stop ∧
      TakesLexeme characters start token stop := by
  have brace (isBrace : Spells token [first]) (notWord : token.isWordLike = false) :
      TakesLexeme characters start token (start + 1) := by
    refine ⟨Nat.lt_succ_self start, (List.getElem?_eq_some_iff.mp here).1, ?_, ?_⟩
    · rw [extract_of_run here (Nat.le_refl _), List.extract_eq_take_drop, Nat.sub_self,
        List.take_zero]
      exact isBrace
    · intro isWord
      rw [notWord] at isWord
      contradiction
  unfold scanToken at scanned
  split at scanned
  case isTrue opens =>
    cases scanned
    subst opens
    exact ⟨start + 1, rfl, brace .openBrace rfl⟩
  split at scanned
  case isTrue closes =>
    cases scanned
    subst closes
    exact ⟨start + 1, rfl, brace .closeBrace rfl⟩
  split at scanned
  case isTrue number =>
    refine exists_scanLiteral here ?_ scanned
    simpa using number
  split at scanned
  case isTrue word =>
    exact exists_scanWord here word scanned
  case isFalse =>
    contradiction

/-! ## The lexemes of a text -/

/-- No character of a lexeme separates tokens, if no comment reaches over its start. -/
private theorem TakesLexeme.not_isSeparator
    {token : Token}
    {start stop : Nat}
    (takes : TakesLexeme characters start token stop)
    (closed : CommentsClosed characters start) :
    CommentsClosed characters stop ∧
      ∀ index, start ≤ index → index < stop → ¬ IsSeparator characters index := by
  have lexical (index : Nat) (after : start ≤ index) (before : index < stop) :
      characters[index]?.any isLexical = true := by
    have inText := Nat.lt_of_lt_of_le before takes.stop_le_length
    have inSpelling :
        (characters.extract start stop)[index - start]? = some characters[index] := by
      rw [List.extract_eq_take_drop, List.getElem?_take_of_lt (by omega), List.getElem?_drop,
        Nat.add_sub_cancel' after, List.getElem?_eq_getElem inText]
    rw [List.getElem?_eq_getElem inText, Option.any_some]
    exact takes.spelled.isLexical _ (List.mem_of_getElem? inSpelling)
  have closedUpTo (index : Nat) (after : start ≤ index) (before : index ≤ stop) :
      CommentsClosed characters index :=
    closed.extend after fun other fromStart beforeIndex =>
      getElem?_ne_of_any (lexical other fromStart (Nat.lt_of_lt_of_le beforeIndex before)) rfl
  refine ⟨closedUpTo stop (Nat.le_of_lt takes.start_lt_stop) (Nat.le_refl stop), ?_⟩
  rintro index after before (blank | lineFeed | ⟨opening, upToIndex, opens, sameLine⟩)
  · have notBlank := lexical index after before
    cases here : characters[index]? with
    | none => simp [here] at blank
    | some character => simp_all [isLexical]
  · exact getElem?_ne_of_any (lexical index after before) rfl lineFeed
  · obtain ⟨lineFeed, afterOpening, beforeNext, isLineFeed⟩ :=
      closedUpTo (index + 1) (by omega) before opening (by omega) opens
    exact sameLine lineFeed (by omega) (by omega) isLineFeed

namespace Lexed

variable {lexemes : List Lexeme} {start stop : Nat}

/-- A text that goes on with separators only has no more lexemes. -/
theorem nil
    (separators :
      ∀ index, start ≤ index → index < characters.length → IsSeparator characters index) :
    Lexed characters start [] where
  ordered := .nil
  located _ impossible := absurd impossible List.not_mem_nil
  spelled _ impossible := absurd impossible List.not_mem_nil
  longest _ impossible := absurd impossible List.not_mem_nil
  complete index after before := by
    simp [separators index after before]

/-- Separators before the lexemes add none. -/
theorem skip
    (lexed : Lexed characters stop lexemes)
    (ordered : start ≤ stop)
    (separators : ∀ index, start ≤ index → index < stop → IsSeparator characters index) :
    Lexed characters start lexemes where
  ordered := lexed.ordered
  located lexeme member :=
    ⟨Nat.le_trans ordered (lexed.located lexeme member).1, (lexed.located lexeme member).2⟩
  spelled := lexed.spelled
  longest := lexed.longest
  complete index after before := by
    rcases Nat.lt_or_ge index stop with skipped | later
    · refine iff_of_false ?_ (not_not_intro (separators index after skipped))
      rintro ⟨lexeme, member, fromStart, _⟩
      have located := (lexed.located lexeme member).1
      omega
    · exact lexed.complete index later before

/-- A lexeme before the lexemes. -/
theorem cons
    {token : Token}
    (lexed : Lexed characters stop lexemes)
    (takes : TakesLexeme characters start token stop)
    (noSeparators :
      ∀ index, start ≤ index → index < stop → ¬ IsSeparator characters index) :
    Lexed characters start (⟨token, start, stop⟩ :: lexemes) where
  ordered :=
    List.pairwise_cons.mpr
      ⟨fun later member => (lexed.located later member).1, lexed.ordered⟩
  located := by
    refine List.forall_mem_cons.mpr
      ⟨⟨Nat.le_refl start, takes.start_lt_stop, takes.stop_le_length⟩, ?_⟩
    intro later member
    have located := lexed.located later member
    have ordered := takes.start_lt_stop
    omega
  spelled := List.forall_mem_cons.mpr ⟨takes.spelled, lexed.spelled⟩
  longest := List.forall_mem_cons.mpr ⟨takes.longest, lexed.longest⟩
  complete index after before := by
    rcases Nat.lt_or_ge index stop with inside | later
    · exact iff_of_true ⟨_, List.mem_cons_self, after, inside⟩ (noSeparators index after inside)
    · rw [← lexed.complete index later before]
      constructor
      · rintro ⟨lexeme, member, fromStart, beforeStop⟩
        rcases List.mem_cons.mp member with rfl | inLexemes
        · exact absurd beforeStop (Nat.not_lt_of_le later)
        · exact ⟨lexeme, inLexemes, fromStart, beforeStop⟩
      · rintro ⟨lexeme, member, range⟩
        exact ⟨lexeme, List.mem_cons_of_mem _ member, range⟩

end Lexed

/--
A scan that succeeds has found the lexemes that follow the cursor.

What has been read are the tokens up to the last lexeme, and the line break
between that lexeme and the cursor.
-/
theorem exists_lexemes_of_scanRest
    {index : Nat}
    {ended : Option Nat}
    {read tokens : List LocatedToken}
    {final : Cursor}
    (inside : index ≤ characters.length)
    (endedBefore : ∀ stop ∈ ended, stop ≤ index)
    (endsWithWord : EndsWithWord ended read)
    (closed : CommentsClosed characters index)
    (scanned :
      scanRest (breakBetween characters ended index ++ read)
        (Cursor.atIndex characters index) = .ok tokens final) :
    ∃ lexemes,
      Lexed characters index lexemes ∧
        tokens = read.reverse ++ tokensAfter characters ended lexemes := by
  obtain ⟨start, trivia, skipped⟩ := exists_skipTrivia inside
  have sameBreak :
      breakBetween characters ended start = breakBetween characters ended index :=
    breakBetween_of_no_lineFeed endedBefore trivia.start_le_stop trivia.noLineFeed
  have endedBeforeStart : ∀ stop ∈ ended, stop ≤ start := fun stop isEnd =>
    Nat.le_trans (endedBefore stop isEnd) trivia.start_le_stop
  unfold scanRest at scanned
  split at scanned
  case h_1 noNext =>
    rw [skipped, Cursor.next?_atIndex, Option.map_eq_none_iff, List.getElem?_eq_none_iff]
      at noNext
    have atEnd : start = characters.length :=
      Nat.le_antisymm trivia.stop_le_length noNext
    subst atEnd
    refine ⟨[], .nil trivia.separators, ?_⟩
    cases scanned
    simp [skipped, tokensAfter, sameBreak]
  case h_2 first rest next =>
    rw [skipped, Cursor.next?_atIndex, Option.map_eq_some_iff] at next
    obtain ⟨_, here, same⟩ := next
    cases same
    have beforeEnd : start < characters.length :=
      (List.getElem?_eq_some_iff.mp here).1
    have shorter := trivia.start_le_stop
    simp only [skipped, Cursor.position_atIndex, ← sameBreak] at scanned
    split at scanned
    case isTrue isLineFeed =>
      subst isLineFeed
      rw [breakLine_breakBetween endsWithWord endedBeforeStart here] at scanned
      obtain ⟨lexemes, lexed, sameTokens⟩ :=
        exists_lexemes_of_scanRest beforeEnd
          (fun stop isEnd => Nat.le_succ_of_le (endedBeforeStart stop isEnd))
          endsWithWord (commentsClosed_of_lineFeed here) scanned
      refine ⟨lexemes, ?_, sameTokens⟩
      refine (lexed.skip (Nat.le_succ start) ?_).skip trivia.start_le_stop trivia.separators
      intro other after before
      have isStart : other = start := by omega
      exact Or.inr (Or.inl (isStart ▸ here))
    case isFalse notLineFeed =>
      split at scanned
      case h_1 token following isToken =>
        obtain ⟨stop, rfl, takes⟩ := exists_scanToken here isToken
        obtain ⟨closedAfter, noSeparators⟩ :=
          takes.not_isSeparator (trivia.closed closed first here notLineFeed)
        have progress := takes.start_lt_stop
        have notNewline : token ≠ .newline := by
          rintro rfl
          cases takes.spelled
        rw [← List.nil_append (_ :: _), ← breakBetween_self stop] at scanned
        obtain ⟨lexemes, lexed, sameTokens⟩ :=
          exists_lexemes_of_scanRest takes.stop_le_length
            (fun other isEnd => Nat.le_of_eq (Option.some.inj isEnd).symm)
            ⟨_, _, rfl, notNewline⟩ closedAfter scanned
        refine ⟨⟨token, start, stop⟩ :: lexemes, ?_, ?_⟩
        · exact (lexed.cons takes noSeparators).skip trivia.start_le_stop trivia.separators
        · rw [sameTokens]
          simp [tokensAfter]
      case h_2 =>
        contradiction
termination_by characters.length - index

/-- The tokens of a text are those of its lexemes. -/
theorem exists_lexemes_of_tokensOf
    {text : String}
    {tokens : List LocatedToken}
    (scanned : tokensOf text = .ok tokens) :
    ∃ lexemes,
      Lexed text.toList 0 lexemes ∧ tokens = tokensAfter text.toList none lexemes := by
  unfold tokensOf tokenize at scanned
  split at scanned
  case h_1 found final isFound =>
    cases scanned
    rw [Cursor.ofString_eq] at isFound
    have noLexeme : EndsWithWord none [] := rfl
    exact exists_lexemes_of_scanRest (Nat.zero_le _) (by simp) noLexeme commentsClosed_zero
      isFound
  case h_2 =>
    contradiction

/-- The tokens of a given text can be computed, since positions and tokens can be compared. -/
theorem tokensOf_of_toOption
    {text : String}
    {tokens : List LocatedToken}
    (computed : (tokensOf text).toOption = some tokens) :
    tokensOf text = .ok tokens := by
  cases scanned : tokensOf text with
  | ok found =>
      rw [scanned] at computed
      exact congrArg _ (Option.some.inj computed)
  | error error =>
      rw [scanned] at computed
      cases computed

/--
A text that can be scanned is made of lexemes and separators.

The lexemes follow each other without overlap, each spells its token and is as
long as possible, and every character outside them is a blank, a line feed or
part of a comment. The tokens are those of the lexemes, each at the position of
its first character, with a line break, at the first line feed, after each one
that a line feed follows before the next or before the end of the text.
-/
theorem tokens_spelled_by_lexemes
    {text : String}
    {tokens : List LocatedToken}
    (scanned : tokensOf text = .ok tokens) :
    ∃ lexemes,
      Lexed text.toList 0 lexemes ∧
        tokens = tokensAfter text.toList none lexemes ∧
        (tokens.filter fun found => found.token.isSpelled) =
          lexemes.map fun lexeme =>
            ⟨lexeme.token, Position.ofIndex text.toList lexeme.start⟩ := by
  obtain ⟨lexemes, lexed, sameTokens⟩ := exists_lexemes_of_tokensOf scanned
  refine ⟨lexemes, lexed, sameTokens, ?_⟩
  rw [sameTokens]
  exact filter_tokensAfter (fun lexeme member => (lexed.spelled lexeme member).isSpelled) none

/-- Leading zeros, a comment, a blank line and a last line without a line feed. -/
theorem commentedLine_spelled_by_lexemes :
    let text := "set x -007 # seven\n\n\x7b"
    let tokens : List LocatedToken :=
      [⟨.keyword .set, ⟨1, 1⟩⟩, ⟨.identifier "x", ⟨1, 5⟩⟩, ⟨.literal (-7), ⟨1, 7⟩⟩,
        ⟨.newline, ⟨1, 19⟩⟩, ⟨.openBrace, ⟨3, 1⟩⟩, ⟨.endOfFile, ⟨3, 2⟩⟩]
    tokensOf text = .ok tokens ∧
      ∃ lexemes,
        Lexed text.toList 0 lexemes ∧
          tokens = tokensAfter text.toList none lexemes ∧
          (tokens.filter fun found => found.token.isSpelled) =
            lexemes.map fun lexeme =>
              ⟨lexeme.token, Position.ofIndex text.toList lexeme.start⟩ := by
  intro text tokens
  have scanned : tokensOf text = .ok tokens := tokensOf_of_toOption (by decide +kernel)
  exact ⟨scanned, tokens_spelled_by_lexemes scanned⟩

end RefScript
