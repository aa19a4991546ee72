import RefScript.Proofs.Text.Alongside

namespace RefScript

/-!
# Joining texts

A text is scanned line by line: what stands before a line feed is scanned as if
the text ended there, and what stands after it as if the text began there, but
for the numbers of the lines. Two facts about moving a cursor carry this. Further
lines after the last one change nothing about a scan before them, and a scan
further down finds the same tokens further down.
-/

/-! ## Further down -/

/-- The same column, a number of lines further down. -/
def Position.lowered (lines : Nat) (position : Position) : Position :=
  ⟨position.line + lines, position.column⟩

/-- The same token, a number of lines further down. -/
def LocatedToken.lowered (lines : Nat) (found : LocatedToken) : LocatedToken :=
  ⟨found.token, found.position.lowered lines⟩

/-- The same failure, a number of lines further down. -/
def ScanError.lowered (lines : Nat) (error : ScanError) : ScanError :=
  ⟨error.failure, error.position.lowered lines⟩

theorem Position.after_lowered (lines : Nat) (position : Position) (character : Char) :
    (position.lowered lines).after character = (position.after character).lowered lines := by
  unfold after
  split
  · rw [lowered, lowered, Nat.add_right_comm]
  · rfl

theorem Position.afterAll_lowered (lines : Nat) (position : Position) (characters : List Char) :
    (position.lowered lines).afterAll characters =
      (position.afterAll characters).lowered lines := by
  induction characters generalizing position with
  | nil =>
      rfl
  | cons character rest inductionHypothesis =>
      rw [afterAll_cons, afterAll_cons, after_lowered, inductionHypothesis]

namespace Cursor

/-- The same place in the same text, a number of lines further down. -/
def lowered (lines : Nat) (cursor : Cursor) : Cursor :=
  ⟨cursor.remaining, cursor.position.lowered lines⟩

/-- The same place in a text that goes on after another line feed. -/
def followedBy (later : List Char) (cursor : Cursor) : Cursor :=
  ⟨cursor.remaining ++ '\n' :: later, cursor.position⟩

end Cursor

/-! ## Scans that do not see a move -/

/-- Within a line, nothing that the scanner looks at changes with the move but positions. -/
structure Carries (move : Cursor → Cursor) (place : Position → Position) : Prop where
  position : ∀ cursor, (move cursor).position = place cursor.position
  run :
    ∀ {accepts : Char → Bool}, accepts '\n' = false → ∀ cursor,
      (move cursor).run accepts = cursor.run accepts
  afterRun :
    ∀ {accepts : Char → Bool}, accepts '\n' = false → ∀ cursor,
      (move cursor).afterRun accepts = move (cursor.afterRun accepts)
  startsWith :
    ∀ {accepts : Char → Bool}, accepts '\n' = false → ∀ cursor,
      (move cursor).startsWith accepts = cursor.startsWith accepts
  next? :
    ∀ {cursor rest : Cursor} {first : Char}, cursor.next? = some (first, rest) →
      (move cursor).next? = some (first, move rest)

/-- A failure at another position, with the cursor moved. -/
def movedResult {α : Type} (move : Cursor → Cursor) (place : Position → Position) :
    EStateM.Result ScanError Cursor α → EStateM.Result ScanError Cursor α
  | .ok value rest => .ok value (move rest)
  | .error error rest => .error ⟨error.failure, place error.position⟩ (move rest)

theorem carries_lowered (lines : Nat) : Carries (.lowered lines) (.lowered lines) where
  position _ := rfl
  run _ _ := rfl
  afterRun _ cursor := by
    simp only [Cursor.afterRun, Cursor.lowered, Cursor.run, Position.afterAll_lowered]
  startsWith _ _ := rfl
  next? {cursor rest first} next := by
    obtain ⟨remaining, position⟩ := cursor
    cases remaining with
    | nil =>
        cases next
    | cons character others =>
        cases next
        simp only [Cursor.next?, Cursor.lowered, Position.after_lowered]

private theorem takeWhile_append_lineFeed
    {accepts : Char → Bool} (ends : accepts '\n' = false) (characters later : List Char) :
    (characters ++ '\n' :: later).takeWhile accepts = characters.takeWhile accepts ∧
      (characters ++ '\n' :: later).dropWhile accepts =
        characters.dropWhile accepts ++ '\n' :: later := by
  induction characters with
  | nil =>
      simp [ends]
  | cons character rest inductionHypothesis =>
      cases accepted : accepts character <;> simp [accepted, inductionHypothesis]

theorem carries_followedBy (later : List Char) : Carries (.followedBy later) id where
  position _ := rfl
  run ends cursor := (takeWhile_append_lineFeed ends cursor.remaining later).1
  afterRun ends cursor := by
    obtain ⟨taken, left⟩ := takeWhile_append_lineFeed ends cursor.remaining later
    simp only [Cursor.afterRun, Cursor.run, Cursor.followedBy, taken, left]
  startsWith ends cursor := by
    obtain ⟨remaining, position⟩ := cursor
    cases remaining with
    | nil => simp [Cursor.startsWith, Cursor.followedBy, ends]
    | cons character rest => rfl
  next? {cursor rest first} next := by
    obtain ⟨remaining, position⟩ := cursor
    cases remaining with
    | nil =>
        cases next
    | cons character others =>
        cases next
        rfl

namespace Carries

variable {move : Cursor → Cursor} {place : Position → Position}

theorem skipTrivia (carries : Carries move place) (cursor : Cursor) :
    (move cursor).skipTrivia = move cursor.skipTrivia := by
  have endsBlanks : isBlank '\n' = false := rfl
  simp only [Cursor.skipTrivia, carries.afterRun endsBlanks]
  rw [carries.startsWith (by decide)]
  split
  · rw [carries.afterRun (by decide)]
  · rfl

theorem sharesWords (carries : Carries move place) :
    SharesWords fun cursor cursor' => cursor' = move cursor where
  run {_ cursor _} within before := by
    subst before
    exact carries.run within.lineFeed cursor
  afterRun {_ cursor _} within before := by
    subst before
    exact carries.afterRun within.lineFeed cursor

theorem scanToken (carries : Carries move place)
    (first : Char) (start : Position) (cursor : Cursor) :
    scanToken first (place start) (move cursor) =
      movedResult move place (scanToken first start cursor) := by
  have same :
      SameScan (fun before after => after = move before) (fun before after => after = place before)
        (RefScript.scanToken first start cursor)
        (RefScript.scanToken first (place start) (move cursor)) :=
    carries.sharesWords.scanToken first rfl rfl
  generalize RefScript.scanToken first start cursor = result,
    RefScript.scanToken first (place start) (move cursor) = result' at same ⊢
  cases same with
  | ok after =>
      rw [after]
      rfl
  | error isPlaced after =>
      rw [isPlaced, after]
      rfl

section Steps

variable {read : List LocatedToken} {cursor rest following : Cursor} {first : Char}
  {token : Token} {error : ScanError}

theorem next?_skipTrivia
    (carries : Carries move place)
    (next : cursor.skipTrivia.next? = some (first, rest)) :
    (move cursor).skipTrivia.next? = some (first, move rest) := by
  rw [carries.skipTrivia]
  exact carries.next? next

theorem position_skipTrivia (carries : Carries move place) (cursor : Cursor) :
    (move cursor).skipTrivia.position = place cursor.skipTrivia.position := by
  rw [carries.skipTrivia, carries.position]

theorem scanRest_ended
    (carries : Carries move place)
    (next : cursor.skipTrivia.next? = some ('\n', rest)) :
    scanRest read (move cursor) =
      scanRest (breakLine read (place cursor.skipTrivia.position)) (move rest) := by
  rw [RefScript.scanRest_ended (carries.next?_skipTrivia next), carries.position_skipTrivia]

theorem scanRest_taken
    (carries : Carries move place)
    (next : cursor.skipTrivia.next? = some (first, rest)) (notLineFeed : first ≠ '\n')
    (scanned : RefScript.scanToken first cursor.skipTrivia.position rest = .ok token following) :
    scanRest read (move cursor) =
      scanRest (⟨token, place cursor.skipTrivia.position⟩ :: read) (move following) := by
  have scanned' := carries.scanToken first cursor.skipTrivia.position rest
  rw [scanned, ← carries.position_skipTrivia] at scanned'
  rw [RefScript.scanRest_taken (carries.next?_skipTrivia next) notLineFeed scanned',
    carries.position_skipTrivia]

theorem scanRest_failed
    (carries : Carries move place)
    (next : cursor.skipTrivia.next? = some (first, rest)) (notLineFeed : first ≠ '\n')
    (scanned :
      RefScript.scanToken first cursor.skipTrivia.position rest = .error error following) :
    scanRest read (move cursor) =
      .error ⟨error.failure, place error.position⟩ (move following) := by
  have scanned' := carries.scanToken first cursor.skipTrivia.position rest
  rw [scanned, ← carries.position_skipTrivia] at scanned'
  exact RefScript.scanRest_failed (carries.next?_skipTrivia next) notLineFeed scanned'

end Steps

end Carries

/-! ## The lines before a line feed -/

/-- What follows the end of a text after a line feed is scanned from there on. -/
theorem next?_followedBy_of_end
    {cursor : Cursor} (atEnd : cursor.next? = none) (later : List Char) :
    (cursor.followedBy later).next? = some ('\n', ⟨later, cursor.position.after '\n'⟩) := by
  obtain ⟨remaining, position⟩ := cursor
  cases remaining with
  | nil => rfl
  | cons character rest => cases atEnd

/--
A scan goes on past what was the end of the text, if a line feed and more follow:
the line is ended there, and the scan starts again on the next one.
-/
def GoesOn (later : List Char) (joined : EStateM.Result ScanError Cursor (List LocatedToken)) :
    EStateM.Result ScanError Cursor (List LocatedToken) → Prop
  | .ok tokens final =>
      ∃ earlier, tokens = earlier ++ [⟨.endOfFile, final.position⟩] ∧
        joined =
          scanRest (breakLine earlier.reverse final.position)
            ⟨later, final.position.after '\n'⟩
  | .error error stopped => joined = .error error (stopped.followedBy later)

theorem goesOn_scanRest (later : List Char) (read : List LocatedToken) (cursor : Cursor) :
    GoesOn later (scanRest read (cursor.followedBy later)) (scanRest read cursor) := by
  have carries := carries_followedBy later
  fun_induction scanRest read cursor with
  | case1 read cursor atEnd =>
      have next := next?_followedBy_of_end atEnd later
      rw [← carries.skipTrivia] at next
      refine ⟨read.reverse, List.reverse_cons, ?_⟩
      rw [scanRest_ended next, List.reverse_reverse, carries.position_skipTrivia]
      rfl
  | case2 read cursor rest start next inductionHypothesis =>
      rw [carries.scanRest_ended next]
      exact inductionHypothesis
  | case3 read cursor first rest next start notLineFeed token following scanned
      inductionHypothesis =>
      rw [carries.scanRest_taken next notLineFeed scanned]
      exact inductionHypothesis
  | case4 read cursor first rest next start notLineFeed error following scanned =>
      rw [carries.scanRest_failed next notLineFeed scanned]
      rfl

/-! ## The lines after a line feed -/

theorem next?_lowered_eq_none_iff (lines : Nat) {cursor : Cursor} :
    (cursor.lowered lines).next? = none ↔ cursor.next? = none := by
  obtain ⟨remaining, position⟩ := cursor
  cases remaining <;> simp [Cursor.next?, Cursor.lowered]

/-- Tokens after which a line feed is dropped: none, or those up to a line break. -/
def AtLineStart : List LocatedToken → Prop
  | [] => True
  | last :: _ => last.token = .newline

theorem breakLine_atLineStart
    {read : List LocatedToken} (atLineStart : AtLineStart read) (position : Position) :
    breakLine read position = read := by
  cases read with
  | nil =>
      rfl
  | cons last earlier =>
      obtain ⟨token, start⟩ := last
      cases atLineStart
      rfl

/-- A line feed is kept or dropped wherever the tokens stand, and whatever came before. -/
theorem breakLine_lowered
    {earlier : List LocatedToken} (atLineStart : AtLineStart earlier)
    (lines : Nat) (read : List LocatedToken) (position : Position) :
    breakLine (read.map (.lowered lines) ++ earlier) (position.lowered lines) =
      (breakLine read position).map (.lowered lines) ++ earlier := by
  cases read with
  | nil =>
      exact breakLine_atLineStart atLineStart _
  | cons last others =>
      obtain ⟨token, start⟩ := last
      cases token <;> rfl

/-- What is scanned on later lines comes after the tokens of the earlier ones. -/
def loweredResult (lines : Nat) (earlier : List LocatedToken) :
    EStateM.Result ScanError Cursor (List LocatedToken) →
      EStateM.Result ScanError Cursor (List LocatedToken)
  | .ok tokens final => .ok (earlier.reverse ++ tokens.map (.lowered lines)) (final.lowered lines)
  | .error error stopped => .error (error.lowered lines) (stopped.lowered lines)

theorem scanRest_lowered
    {earlier : List LocatedToken} (atLineStart : AtLineStart earlier)
    (lines : Nat) (read : List LocatedToken) (cursor : Cursor) :
    scanRest (read.map (.lowered lines) ++ earlier) (cursor.lowered lines) =
      loweredResult lines earlier (scanRest read cursor) := by
  have carries := carries_lowered lines
  fun_induction scanRest read cursor with
  | case1 read cursor atEnd final =>
      rw [← next?_lowered_eq_none_iff lines, ← carries.skipTrivia] at atEnd
      rw [scanRest_end atEnd, carries.skipTrivia]
      simp [loweredResult, LocatedToken.lowered, Cursor.lowered, final]
  | case2 read cursor rest start next inductionHypothesis =>
      rw [carries.scanRest_ended next, breakLine_lowered atLineStart, inductionHypothesis]
  | case3 read cursor first rest next start notLineFeed token following scanned
      inductionHypothesis =>
      rw [carries.scanRest_taken next notLineFeed scanned]
      exact inductionHypothesis
  | case4 read cursor first rest next start notLineFeed error following scanned =>
      rw [carries.scanRest_failed next notLineFeed scanned]
      rfl

/-! ## Texts -/

/-- Tokens with the end of their last line, unless there is none or it has been ended. -/
def closeLine (tokens : List LocatedToken) (ending : Position) : List LocatedToken :=
  match tokens.getLast? with
  | none => tokens
  | some last => if last.token = .newline then tokens else tokens ++ [⟨.newline, ending⟩]

theorem breakLine_reverse (tokens : List LocatedToken) (ending : Position) :
    breakLine tokens.reverse ending = (closeLine tokens ending).reverse := by
  rcases List.eq_nil_or_concat' tokens with rfl | ⟨earlier, ⟨token, position⟩, rfl⟩
  · rfl
  · cases token <;> simp [closeLine, breakLine]

theorem atLineStart_breakLine (read : List LocatedToken) (position : Position) :
    AtLineStart (breakLine read position) := by
  unfold breakLine
  split
  · trivial
  · rfl
  · rfl

/-- The last token of a text is its end. -/
theorem exists_tokensAfter_eq_append
    (characters : List Char) (ended : Option Nat) (lexemes : List Lexeme) :
    ∃ earlier,
      tokensAfter characters ended lexemes =
        earlier ++ [⟨.endOfFile, Position.ofIndex characters characters.length⟩] := by
  induction lexemes generalizing ended with
  | nil =>
      exact ⟨_, rfl⟩
  | cons lexeme rest inductionHypothesis =>
      obtain ⟨earlier, same⟩ := inductionHypothesis (some lexeme.stop)
      exact ⟨_ ++ _ :: earlier, by rw [tokensAfter, same, List.append_assoc]; rfl⟩

/-- The scan of a text ends where the text does. -/
theorem exists_tokensOf_eq_append
    {text : String} {tokens : List LocatedToken}
    (scanned : tokensOf text = .ok tokens) :
    ∃ earlier,
      tokens =
        earlier ++ [⟨.endOfFile, Position.ofIndex text.toList text.toList.length⟩] := by
  obtain ⟨lexemes, _, rfl⟩ := exists_lexemes_of_tokensOf scanned
  exact exists_tokensAfter_eq_append _ _ _

theorem toList_joined (first second : String) :
    (first ++ "\n" ++ second).toList = first.toList ++ '\n' :: second.toList := by
  simp

/-- The number of lines that a text takes up, if another one follows after a line feed. -/
def lineCount (text : String) : Nat :=
  text.toList.count '\n' + 1

/-- The position of the end of a text. -/
def endOf (text : String) : Position :=
  Position.ofIndex text.toList text.toList.length

theorem after_endOf (text : String) :
    (endOf text).after '\n' = Position.first.lowered (lineCount text) := by
  simp [endOf, Position.ofIndex, Position.after, Position.first, Position.lowered, lineCount,
    Nat.add_comm]

variable {first : String} {tokens : List LocatedToken} {error : ScanError}

/-- The cursor before two texts with a line feed between them. -/
theorem ofString_joined (first second : String) :
    Cursor.ofString (first ++ "\n" ++ second) =
      (Cursor.ofString first).followedBy second.toList := by
  rw [Cursor.ofString, toList_joined]
  rfl

theorem tokenize_of_tokensOf
    (scanned : tokensOf first = .ok tokens) :
    ∃ final, scanRest [] (Cursor.ofString first) = .ok tokens final := by
  unfold tokensOf tokenize at scanned
  split at scanned
  case h_1 final isScanned =>
    cases scanned
    exact ⟨final, isScanned⟩
  case h_2 => cases scanned

/-- A text that cannot be scanned cannot be scanned either if more lines follow. -/
theorem tokensOf_joined_of_error
    (failed : tokensOf first = .error error) (second : String) :
    tokensOf (first ++ "\n" ++ second) = .error error := by
  have goesOn := goesOn_scanRest second.toList [] (Cursor.ofString first)
  unfold tokensOf tokenize at failed
  split at failed
  case h_1 => cases failed
  case h_2 stopped scanned =>
    cases failed
    rw [scanned] at goesOn
    have joined : scanRest [] (Cursor.ofString (first ++ "\n" ++ second)) = .error error _ :=
      (congrArg _ (ofString_joined first second)).trans goesOn
    rw [tokensOf, tokenize, joined]

/-- Of two texts with a line feed between them, the second one is scanned further down. -/
theorem tokensOf_joined
    (scanned : tokensOf first = .ok tokens) (second : String) :
    ∃ earlier, tokens = earlier ++ [⟨.endOfFile, endOf first⟩] ∧
      tokensOf (first ++ "\n" ++ second) =
        match tokensOf second with
        | .ok later =>
            .ok (closeLine earlier (endOf first) ++ later.map (.lowered (lineCount first)))
        | .error error => .error (error.lowered (lineCount first)) := by
  obtain ⟨earlier, isEarlier⟩ := exists_tokensOf_eq_append scanned
  obtain ⟨final, isScanned⟩ := tokenize_of_tokensOf scanned
  have goesOn := goesOn_scanRest second.toList [] (Cursor.ofString first)
  rw [isScanned] at goesOn
  obtain ⟨_, sameTokens, joined⟩ := goesOn
  rw [isEarlier] at sameTokens
  obtain ⟨rfl, sameEnd⟩ := List.append_inj' sameTokens rfl
  have atEnd : final.position = endOf first := by
    simpa [endOf] using (congrArg (List.map LocatedToken.position) sameEnd).symm
  -- After the line feed the scan starts as on the second text alone, but further down.
  have start :
      (⟨second.toList, final.position.after '\n'⟩ : Cursor) =
        (Cursor.ofString second).lowered (lineCount first) := by
    rw [atEnd, after_endOf]
    rfl
  have lowered :=
    scanRest_lowered (atLineStart_breakLine earlier.reverse final.position) (lineCount first) []
      (Cursor.ofString second)
  rw [List.map_nil, List.nil_append, ← start, ← joined, ← ofString_joined, breakLine_reverse,
    atEnd] at lowered
  refine ⟨earlier, isEarlier, ?_⟩
  rw [tokensOf, tokenize, lowered, tokensOf, tokenize]
  cases scanRest [] (Cursor.ofString second) with
  | ok later final => simp [loweredResult]
  | error error stopped => rfl

end RefScript
