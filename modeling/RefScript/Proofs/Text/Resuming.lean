import RefScript.Proofs.Text.Alongside

namespace RefScript

/-!
# Scanning on after an error

A scan that fails leaves its cursor further on in the text, and the text can be
scanned on from there. The cursor is always the one at some index, so the position
that it carries is the true one; and the next scan does what a scan of the rest of
the text alone would do, but for the positions, which are counted on from there.
-/

variable {characters : List Char}

/-! ## Where a scan stops -/

/-- Whether a token is found or not, the cursor is left at an index. -/
theorem exists_leftBy_scanToken
    {start : Nat} (inside : start ≤ characters.length) (first : Char) (position : Position) :
    ∃ stop, start ≤ stop ∧ stop ≤ characters.length ∧
      leftBy (scanToken first position (Cursor.atIndex characters start)) =
        Cursor.atIndex characters stop := by
  unfold scanToken
  split
  · exact ⟨start, Nat.le_refl start, inside, rfl⟩
  split
  · exact ⟨start, Nat.le_refl start, inside, rfl⟩
  split
  · obtain ⟨middle, digits, _, afterDigits⟩ := Cursor.exists_run inside isDigit
    simp only [scanLiteral, afterDigits]
    split
    · obtain ⟨stop, word, _, afterWord⟩ := Cursor.exists_run digits.stop_le_length isWordPart
      exact ⟨stop, Nat.le_trans digits.start_le_stop word.start_le_stop, word.stop_le_length,
        afterWord⟩
    · refine ⟨middle, digits.start_le_stop, digits.stop_le_length, ?_⟩
      split <;> rfl
  split
  · obtain ⟨stop, word, _, afterWord⟩ := Cursor.exists_run inside isWordPart
    exact ⟨stop, word.start_le_stop, word.stop_le_length, afterWord⟩
  · exact ⟨start, Nat.le_refl start, inside, rfl⟩

/-- Where a scan from one index stops: further on if it fails, and else at the end. -/
structure ScansUpTo
    (characters : List Char) (index stop : Nat)
    (result : EStateM.Result ScanError Cursor (List LocatedToken)) : Prop where
  index_le_stop : index ≤ stop
  stop_le_length : stop ≤ characters.length
  left : leftBy result = Cursor.atIndex characters stop
  failed : ∀ error, outcomeOf result = .error error → index < stop
  finished : ∀ tokens, outcomeOf result = .ok tokens → stop = characters.length

theorem ScansUpTo.of_le
    {index start stop : Nat} {result : EStateM.Result ScanError Cursor (List LocatedToken)}
    (scans : ScansUpTo characters start stop result) (ordered : index ≤ start) :
    ScansUpTo characters index stop result :=
  { scans with
    index_le_stop := Nat.le_trans ordered scans.index_le_stop
    failed := fun error failed => Nat.lt_of_le_of_lt ordered (scans.failed error failed) }

theorem exists_scansUpTo
    {index : Nat} (inside : index ≤ characters.length) (read : List LocatedToken) :
    ∃ stop,
      ScansUpTo characters index stop (scanRest read (Cursor.atIndex characters index)) := by
  obtain ⟨start, trivia, skipped⟩ := exists_skipTrivia inside
  have shorter := trivia.start_le_stop
  have next := Cursor.next?_atIndex characters start
  rw [← skipped] at next
  cases here : characters[start]? with
  | none =>
      rw [here] at next
      have atEnd : start = characters.length :=
        Nat.le_antisymm trivia.stop_le_length (List.getElem?_eq_none_iff.mp here)
      rw [scanRest_end next, skipped]
      exact ⟨start, shorter, trivia.stop_le_length, rfl, nofun, fun _ _ => atEnd⟩
  | some first =>
      rw [here] at next
      have beforeEnd : start < characters.length := (List.getElem?_eq_some_iff.mp here).1
      by_cases lineFeed : first = '\n'
      · subst lineFeed
        rw [scanRest_ended next]
        obtain ⟨stop, scans⟩ := exists_scansUpTo beforeEnd (breakLine read _)
        exact ⟨stop, scans.of_le (Nat.le_succ_of_le shorter)⟩
      let position := (Cursor.atIndex characters index).skipTrivia.position
      obtain ⟨middle, ordered, inText, left⟩ := exists_leftBy_scanToken beforeEnd first position
      cases scanned : scanToken first position (Cursor.atIndex characters (start + 1)) with
      | error error following =>
          rw [scanned] at left
          rw [scanRest_failed next lineFeed scanned]
          exact ⟨middle, by omega, inText, left, fun _ _ => by omega, nofun⟩
      | ok token following =>
          rw [scanned] at left
          change following = _ at left
          rw [scanRest_taken next lineFeed scanned, left]
          obtain ⟨stop, scans⟩ := exists_scansUpTo inText (⟨token, _⟩ :: read)
          exact ⟨stop, scans.of_le (by omega)⟩
termination_by characters.length - index

/-! ## Positions in the rest of a text -/

/--
A position in the rest of a text, counted in the whole text, if the rest starts at
the given one. Only what stands on its first line moves to other columns.
-/
def Position.shifted (position origin : Position) : Position :=
  ⟨position.line + (origin.line - 1),
    if position.line = 1 then position.column + (origin.column - 1) else position.column⟩

/-- The same token, counted in the whole text. -/
def LocatedToken.shifted (origin : Position) (found : LocatedToken) : LocatedToken :=
  ⟨found.token, found.position.shifted origin⟩

/-- The same failure, counted in the whole text. -/
def ScanError.shifted (origin : Position) (error : ScanError) : ScanError :=
  ⟨error.failure, error.position.shifted origin⟩

/-- The same outcome, counted in the whole text. -/
def shiftedOutcome (origin : Position) :
    Except ScanError (List LocatedToken) → Except ScanError (List LocatedToken)
  | .ok tokens => .ok (tokens.map (.shifted origin))
  | .error error => .error (error.shifted origin)

/-- The two positions designate the same place, in the rest of a text and in the whole. -/
def Shifted (origin position position' : Position) : Prop :=
  1 ≤ position.line ∧ position' = position.shifted origin

theorem Shifted.after
    {origin position position' : Position} (shifted : Shifted origin position position')
    (character : Char) :
    Shifted origin (position.after character) (position'.after character) := by
  obtain ⟨fromFirst, rfl⟩ := shifted
  unfold Position.after
  split
  · refine ⟨Nat.le_succ_of_le fromFirst, ?_⟩
    have notFirst : position.line + 1 ≠ 1 := by omega
    simp only [Position.shifted, if_neg notFirst, Nat.add_right_comm]
  · refine ⟨fromFirst, ?_⟩
    simp only [Position.shifted]
    split <;> simp only [Nat.add_right_comm]

theorem Shifted.afterAll
    {origin position position' : Position} (shifted : Shifted origin position position')
    (passed : List Char) :
    Shifted origin (position.afterAll passed) (position'.afterAll passed) := by
  induction passed generalizing position position' with
  | nil => exact shifted
  | cons character rest inductionHypothesis => exact inductionHypothesis (shifted.after character)

/-- Two cursors before the same characters, in the rest of a text and in the whole. -/
structure SameRest (origin : Position) (cursor cursor' : Cursor) : Prop where
  remaining : cursor'.remaining = cursor.remaining
  shifted : Shifted origin cursor.position cursor'.position

namespace SameRest

variable {origin : Position} {cursor cursor' : Cursor}

theorem run (same : SameRest origin cursor cursor') (accepts : Char → Bool) :
    cursor'.run accepts = cursor.run accepts := by
  rw [Cursor.run, same.remaining, Cursor.run]

theorem afterRun (same : SameRest origin cursor cursor') (accepts : Char → Bool) :
    SameRest origin (cursor.afterRun accepts) (cursor'.afterRun accepts) where
  remaining := by rw [Cursor.afterRun, same.remaining, Cursor.afterRun]
  shifted := by
    rw [Cursor.afterRun, Cursor.afterRun, same.run accepts]
    exact same.shifted.afterAll _

theorem skipTrivia (same : SameRest origin cursor cursor') :
    SameRest origin cursor.skipTrivia cursor'.skipTrivia := by
  have unblanked := same.afterRun isBlank
  unfold Cursor.skipTrivia
  dsimp only
  rw [Cursor.startsWith_eq, Cursor.startsWith_eq, unblanked.run]
  split
  · exact unblanked.afterRun _
  · exact unblanked

theorem nextAlike (same : SameRest origin cursor cursor') :
    NextAlike (SameRest origin) (Shifted origin) (Shifted origin) cursor cursor' := by
  obtain ⟨_, position⟩ := cursor
  obtain ⟨remaining, position'⟩ := cursor'
  obtain ⟨rfl, shifted⟩ := same
  cases remaining with
  | nil =>
      exact .textEnd rfl rfl shifted
  | cons character rest =>
      by_cases lineFeed : character = '\n'
      · subst lineFeed
        exact .lineEnd rfl rfl shifted ⟨rfl, shifted.after '\n'⟩
      · exact .character rfl rfl lineFeed shifted ⟨rfl, shifted.after character⟩

end SameRest

theorem alongside_sameRest (origin : Position) :
    Alongside (SameRest origin) (Shifted origin) (Shifted origin) where
  run _ same := same.run _
  afterRun _ same := same.afterRun _
  next same := same.skipTrivia.nextAlike

theorem eq_shiftedOutcome
    {origin : Position} {outcome outcome' : Except ScanError (List LocatedToken)}
    (same : SameTokens (Shifted origin) (Shifted origin) outcome outcome') :
    outcome' = shiftedOutcome origin outcome := by
  cases same with
  | error isPlaced =>
      obtain ⟨_, rfl⟩ := isPlaced
      rfl
  | @ok tokens tokens' sameTokens =>
      have located :
          List.Forall₂ (fun found found' => found.shifted origin = found') tokens tokens' := by
        refine sameTokens.imp fun found found' ⟨token, position⟩ => ?_
        obtain ⟨-, position⟩ := position.elim id And.right
        cases found'
        cases token
        cases position
        rfl
      rw [← List.forall₂_map_left_iff, List.forall₂_eq_eq_eq] at located
      rw [shiftedOutcome, located]

/-! ## Scanning again and again -/

/-- Scanning on from an index does what scanning the rest of the text does. -/
theorem outcomeOf_tokenize_atIndex (characters : List Char) (index : Nat) :
    outcomeOf (tokenize (Cursor.atIndex characters index)) =
      shiftedOutcome (Position.ofIndex characters index)
        (tokensOf (String.ofList (characters.drop index))) := by
  have same :
      SameRest (Position.ofIndex characters index)
        (Cursor.ofString (String.ofList (characters.drop index)))
        (Cursor.atIndex characters index) := by
    refine ⟨by simp [Cursor.ofString, Cursor.atIndex], Nat.le_refl 1, ?_⟩
    simp [Cursor.ofString, Position.shifted, Position.first, Position.ofIndex, Nat.add_comm]
  rw [tokensOf_eq_outcomeOf]
  exact eq_shiftedOutcome ((alongside_sameRest _).scanRest [] _ _ _ .nil same)

/-- At the end of a text nothing but that is found. -/
theorem tokenize_end (characters : List Char) :
    tokenize (Cursor.atIndex characters characters.length) =
      .ok [⟨.endOfFile, Position.ofIndex characters characters.length⟩]
        (Cursor.atIndex characters characters.length) := by
  have atEnd :
      (Cursor.atIndex characters characters.length).skipTrivia =
        Cursor.atIndex characters characters.length := by
    rw [Cursor.atIndex, List.drop_length]
    rfl
  have noNext : (Cursor.atIndex characters characters.length).skipTrivia.next? = none := by
    rw [atEnd, Cursor.next?_atIndex, List.getElem?_eq_none (Nat.le_refl _)]
    rfl
  rw [tokenize, scanRest_end noNext, atEnd]
  rfl

/-- However often a text has been scanned, the cursor is at one of its indices. -/
theorem exists_afterCalls_tokenize (text : String) (calls : Nat) :
    ∃ offset ≤ text.toList.length,
      afterCalls tokenize (Cursor.ofString text) calls = Cursor.atIndex text.toList offset := by
  induction calls with
  | zero =>
      exact ⟨0, Nat.zero_le _, Cursor.ofString_eq text⟩
  | succ calls inductionHypothesis =>
      obtain ⟨offset, inside, same⟩ := inductionHypothesis
      obtain ⟨stop, scans⟩ := exists_scansUpTo inside []
      refine ⟨stop, scans.stop_le_length, ?_⟩
      rw [afterCalls, same]
      exact scans.left

/--
However often a text has been scanned, the cursor is at one of its indices, at the
position that this has in the text. The next scan gives what the scan of the rest of
the text gives, with positions counted in the whole text. If it fails, it stops
further on; and if it succeeds, all later ones find nothing but the end of the text.
-/
theorem scanning_resumes (text : String) (calls : Nat) :
    ∃ offset ≤ text.toList.length,
      afterCalls tokenize (Cursor.ofString text) calls = Cursor.atIndex text.toList offset ∧
      outcomeOf (tokenize (Cursor.atIndex text.toList offset)) =
        shiftedOutcome (Position.ofIndex text.toList offset)
          (tokensOf (String.ofList (text.toList.drop offset))) ∧
      (∀ error,
        outcomeOf (tokenize (Cursor.atIndex text.toList offset)) = .error error →
          ∃ next ≤ text.toList.length, offset < next ∧
            afterCalls tokenize (Cursor.ofString text) (calls + 1) =
              Cursor.atIndex text.toList next) ∧
      ∀ tokens,
        outcomeOf (tokenize (Cursor.atIndex text.toList offset)) = .ok tokens →
          ∀ later > calls,
            afterCalls tokenize (Cursor.ofString text) later =
                Cursor.atIndex text.toList text.toList.length ∧
              tokenize (afterCalls tokenize (Cursor.ofString text) later) =
                .ok [⟨.endOfFile, Position.ofIndex text.toList text.toList.length⟩]
                  (Cursor.atIndex text.toList text.toList.length) := by
  obtain ⟨offset, inside, same⟩ := exists_afterCalls_tokenize text calls
  obtain ⟨stop, scans⟩ := exists_scansUpTo inside []
  have sameLater :
      afterCalls tokenize (Cursor.ofString text) (calls + 1) = Cursor.atIndex text.toList stop := by
    rw [afterCalls, same]
    exact scans.left
  refine ⟨offset, inside, same, outcomeOf_tokenize_atIndex text.toList offset, ?_, ?_⟩
  · intro error failed
    exact ⟨stop, scans.stop_le_length, scans.failed error failed, sameLater⟩
  · intro tokens finished later isLater
    rw [scans.finished tokens finished] at sameLater
    have unchanged := congrArg leftBy (tokenize_end text.toList)
    have stays := afterCalls_of_unchanged unchanged sameLater (Nat.succ_le_of_lt isLater)
    exact ⟨stays, by rw [stays, tokenize_end]⟩

end RefScript
