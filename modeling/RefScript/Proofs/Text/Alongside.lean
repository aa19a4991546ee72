import Mathlib.Data.List.Forall2
import RefScript.Proofs.Repetition
import RefScript.Proofs.Text.DataScanning

namespace RefScript

/-!
# Scans side by side

Two scans go on side by side while their cursors are related: the same words and
numbers follow both, and after blanks and comments both are at the end of the text,
or at the end of a line, or at the same character. Then they find the same tokens,
or fail for the same reason. How the positions in the two texts correspond is left
open; those where lines end may correspond less closely than those of other tokens.
-/

/-! ## Steps of a scan -/

section Steps

variable {read : List LocatedToken} {cursor rest following : Cursor} {first : Char}

/-- Nothing but blanks and a comment is left. -/
theorem scanRest_end (atEnd : cursor.skipTrivia.next? = none) :
    scanRest read cursor =
      .ok (⟨.endOfFile, cursor.skipTrivia.position⟩ :: read).reverse cursor.skipTrivia := by
  rw [scanRest]
  split
  case h_1 => rfl
  case h_2 next => cases atEnd.symm.trans next

theorem scanRest_next (next : cursor.skipTrivia.next? = some (first, rest)) :
    scanRest read cursor =
      if first = '\n' then
        scanRest (breakLine read cursor.skipTrivia.position) rest
      else
        match scanToken first cursor.skipTrivia.position rest with
        | .ok token following =>
            scanRest (⟨token, cursor.skipTrivia.position⟩ :: read) following
        | .error error following => .error error following := by
  rw [scanRest]
  split
  case h_1 atEnd => cases next.symm.trans atEnd
  case h_2 next' =>
    cases next.symm.trans next'
    dsimp only
    split
    · rfl
    · cases scanToken first cursor.skipTrivia.position rest <;> rfl

theorem scanRest_ended (next : cursor.skipTrivia.next? = some ('\n', rest)) :
    scanRest read cursor = scanRest (breakLine read cursor.skipTrivia.position) rest := by
  rw [scanRest_next next, if_pos rfl]

variable {token : Token} {error : ScanError}

theorem scanRest_taken
    (next : cursor.skipTrivia.next? = some (first, rest)) (notLineFeed : first ≠ '\n')
    (scanned : scanToken first cursor.skipTrivia.position rest = .ok token following) :
    scanRest read cursor =
      scanRest (⟨token, cursor.skipTrivia.position⟩ :: read) following := by
  rw [scanRest_next next, if_neg notLineFeed, scanned]

theorem scanRest_failed
    (next : cursor.skipTrivia.next? = some (first, rest)) (notLineFeed : first ≠ '\n')
    (scanned : scanToken first cursor.skipTrivia.position rest = .error error following) :
    scanRest read cursor = .error error following := by
  rw [scanRest_next next, if_neg notLineFeed, scanned]

end Steps

/-! ## One token -/

/-- Whether a character of a class follows, can be told from the run of that class. -/
theorem Cursor.startsWith_eq (cursor : Cursor) (accepts : Char → Bool) :
    cursor.startsWith accepts = !(cursor.run accepts).isEmpty := by
  obtain ⟨remaining, position⟩ := cursor
  cases remaining with
  | nil =>
      rfl
  | cons character rest =>
      cases accepted : accepts character <;> simp [startsWith, run, accepted]

/-- Only characters of words are accepted. -/
def WithinWords (accepts : Char → Bool) : Prop :=
  ∀ character, accepts character = true → isWordPart character = true

/-- No word reaches over the end of a line. -/
theorem WithinWords.lineFeed {accepts : Char → Bool} (within : WithinWords accepts) :
    accepts '\n' = false :=
  Bool.eq_false_iff.mpr fun accepted => absurd (within '\n' accepted) (by decide)

/-- Whatever is accepted within words stands before both of two related cursors. -/
structure SharesWords (together : Cursor → Cursor → Prop) : Prop where
  run :
    ∀ {accepts : Char → Bool} {cursor cursor' : Cursor},
      WithinWords accepts → together cursor cursor' →
        cursor'.run accepts = cursor.run accepts
  afterRun :
    ∀ {accepts : Char → Bool} {cursor cursor' : Cursor},
      WithinWords accepts → together cursor cursor' →
        together (cursor.afterRun accepts) (cursor'.afterRun accepts)

/-- The same result; a failure may be at another position, and the cursors are related again. -/
inductive SameScan {α : Type}
    (together : Cursor → Cursor → Prop) (placed : Position → Position → Prop) :
    EStateM.Result ScanError Cursor α → EStateM.Result ScanError Cursor α → Prop where
  | ok
      {value : α} {rest rest' : Cursor}
      (after : together rest rest') :
      SameScan together placed (.ok value rest) (.ok value rest')
  | error
      {failure : ScanFailure} {position position' : Position} {rest rest' : Cursor}
      (isPlaced : placed position position')
      (after : together rest rest') :
      SameScan together placed (.error ⟨failure, position⟩ rest) (.error ⟨failure, position'⟩ rest')

namespace SharesWords

variable {together : Cursor → Cursor → Prop} {placed : Position → Position → Prop}
  {cursor cursor' : Cursor} {start start' : Position}

theorem startsWith
    (shares : SharesWords together)
    {accepts : Char → Bool} (within : WithinWords accepts)
    (before : together cursor cursor') :
    cursor'.startsWith accepts = cursor.startsWith accepts := by
  rw [Cursor.startsWith_eq, shares.run within before, ← Cursor.startsWith_eq]

theorem scanLiteral
    (shares : SharesWords together) (first : Char)
    (isPlaced : placed start start') (before : together cursor cursor') :
    SameScan together placed
      (scanLiteral first start cursor) (scanLiteral first start' cursor') := by
  have digits : WithinWords isDigit := fun _ => isWordPart_of_isDigit
  have wordParts : WithinWords isWordPart := fun _ => id
  have after := shares.afterRun digits before
  simp only [RefScript.scanLiteral, shares.run digits before, shares.run wordParts after,
    shares.startsWith (fun _ => isWordPart_of_isWordStart) after]
  split
  · exact .error isPlaced (shares.afterRun wordParts after)
  · split
    · exact .ok after
    · exact .error isPlaced after

theorem scanToken
    (shares : SharesWords together) (first : Char)
    (isPlaced : placed start start') (before : together cursor cursor') :
    SameScan together placed (scanToken first start cursor) (scanToken first start' cursor') := by
  have wordParts : WithinWords isWordPart := fun _ => id
  simp only [RefScript.scanToken, shares.startsWith (fun _ => isWordPart_of_isDigit) before]
  split
  · exact .ok before
  split
  · exact .ok before
  split
  · exact shares.scanLiteral first isPlaced before
  split
  · rw [scanWord, scanWord, shares.run wordParts before]
    exact .ok (shares.afterRun wordParts before)
  · exact .error isPlaced before

end SharesWords

/-! ## All tokens -/

/--
Two cursors after blanks and comments: the texts end there, or the lines do, or the
same character follows.
-/
inductive NextAlike
    (together : Cursor → Cursor → Prop) (placed ended : Position → Position → Prop) :
    Cursor → Cursor → Prop where
  | textEnd
      {cursor cursor' : Cursor}
      (next : cursor.next? = none) (next' : cursor'.next? = none)
      (isEnded : ended cursor.position cursor'.position) :
      NextAlike together placed ended cursor cursor'
  | lineEnd
      {cursor cursor' rest rest' : Cursor}
      (next : cursor.next? = some ('\n', rest)) (next' : cursor'.next? = some ('\n', rest'))
      (isEnded : ended cursor.position cursor'.position)
      (after : together rest rest') :
      NextAlike together placed ended cursor cursor'
  | character
      {cursor cursor' rest rest' : Cursor} {first : Char}
      (next : cursor.next? = some (first, rest)) (next' : cursor'.next? = some (first, rest'))
      (notLineFeed : first ≠ '\n')
      (isPlaced : placed cursor.position cursor'.position)
      (after : together rest rest') :
      NextAlike together placed ended cursor cursor'

namespace NextAlike

variable {together : Cursor → Cursor → Prop} {placed ended : Position → Position → Prop}
  {cursor cursor' rest : Cursor} {first : Char}

theorem of_textEnd
    (alike : NextAlike together placed ended cursor cursor') (atEnd : cursor.next? = none) :
    cursor'.next? = none ∧ ended cursor.position cursor'.position := by
  cases alike with
  | textEnd _ next' isEnded => exact ⟨next', isEnded⟩
  | lineEnd next => cases atEnd.symm.trans next
  | character next => cases atEnd.symm.trans next

theorem of_lineEnd
    (alike : NextAlike together placed ended cursor cursor')
    (isNext : cursor.next? = some ('\n', rest)) :
    ∃ rest', cursor'.next? = some ('\n', rest') ∧ ended cursor.position cursor'.position ∧
      together rest rest' := by
  cases alike with
  | textEnd next => cases isNext.symm.trans next
  | lineEnd next next' isEnded after =>
      cases isNext.symm.trans next
      exact ⟨_, next', isEnded, after⟩
  | character next _ notLineFeed =>
      cases isNext.symm.trans next
      exact (notLineFeed rfl).elim

theorem of_character
    (alike : NextAlike together placed ended cursor cursor')
    (isNext : cursor.next? = some (first, rest)) (notLineFeed : first ≠ '\n') :
    ∃ rest', cursor'.next? = some (first, rest') ∧ placed cursor.position cursor'.position ∧
      together rest rest' := by
  cases alike with
  | textEnd next => cases isNext.symm.trans next
  | lineEnd next =>
      cases isNext.symm.trans next
      exact (notLineFeed rfl).elim
  | character next next' _ isPlaced after =>
      cases isNext.symm.trans next
      exact ⟨_, next', isPlaced, after⟩

end NextAlike

/-- Scans from related cursors go on side by side. -/
structure Alongside
    (together : Cursor → Cursor → Prop) (placed ended : Position → Position → Prop) : Prop
    extends SharesWords together where
  next :
    ∀ {cursor cursor' : Cursor}, together cursor cursor' →
      NextAlike together placed ended cursor.skipTrivia cursor'.skipTrivia

/-- The same token, at corresponding positions. -/
structure SameToken
    (placed ended : Position → Position → Prop) (found found' : LocatedToken) : Prop where
  token : found'.token = found.token
  position :
    placed found.position found'.position ∨
      found.token.isSpelled = false ∧ ended found.position found'.position

/-- The same tokens, or the same failure, at corresponding positions. -/
inductive SameTokens (placed ended : Position → Position → Prop) :
    Except ScanError (List LocatedToken) → Except ScanError (List LocatedToken) → Prop where
  | ok
      {tokens tokens' : List LocatedToken}
      (same : List.Forall₂ (SameToken placed ended) tokens tokens') :
      SameTokens placed ended (.ok tokens) (.ok tokens')
  | error
      {failure : ScanFailure} {position position' : Position}
      (isPlaced : placed position position') :
      SameTokens placed ended (.error ⟨failure, position⟩) (.error ⟨failure, position'⟩)

variable {together : Cursor → Cursor → Prop} {placed ended : Position → Position → Prop}

/-- A line feed is kept or dropped alike. -/
theorem sameTokens_breakLine
    {read read' : List LocatedToken} {position position' : Position}
    (sameRead : List.Forall₂ (SameToken placed ended) read read')
    (isEnded : ended position position') :
    List.Forall₂ (SameToken placed ended)
      (breakLine read position) (breakLine read' position') := by
  cases sameRead with
  | nil =>
      exact .nil
  | @cons last last' others others' same sameOthers =>
      have sameRead := List.Forall₂.cons same sameOthers
      obtain ⟨_, start⟩ := last
      obtain ⟨token, start'⟩ := last'
      obtain ⟨rfl, -⟩ := same
      cases token with
      | newline => exact sameRead
      | _ => exact .cons ⟨rfl, Or.inr ⟨rfl, isEnded⟩⟩ sameRead

theorem Alongside.scanRest
    (alongside : Alongside together placed ended) (read : List LocatedToken) (cursor : Cursor) :
    ∀ (read' : List LocatedToken) (cursor' : Cursor),
      List.Forall₂ (SameToken placed ended) read read' →
        together cursor cursor' →
          SameTokens placed ended
            (outcomeOf (scanRest read cursor)) (outcomeOf (scanRest read' cursor')) := by
  fun_induction RefScript.scanRest read cursor with
  | case1 read cursor atEnd =>
      intro read' cursor' sameRead before
      obtain ⟨next', isEnded⟩ := (alongside.next before).of_textEnd atEnd
      rw [scanRest_end next']
      exact .ok (List.rel_reverse (.cons ⟨rfl, Or.inr ⟨rfl, isEnded⟩⟩ sameRead))
  | case2 read cursor rest start next inductionHypothesis =>
      intro read' cursor' sameRead before
      obtain ⟨rest', next', isEnded, after⟩ := (alongside.next before).of_lineEnd next
      rw [scanRest_ended next']
      exact inductionHypothesis _ _ (sameTokens_breakLine sameRead isEnded) after
  | case3 read cursor first rest next start notLineFeed token following scanned
      inductionHypothesis =>
      intro read' cursor' sameRead before
      obtain ⟨rest', next', isPlaced, after⟩ :=
        (alongside.next before).of_character next notLineFeed
      have same := alongside.scanToken first isPlaced after
      generalize scanned' : scanToken first cursor'.skipTrivia.position rest' = result at same
      rw [scanned] at same
      cases same with
      | ok afterToken =>
          rw [scanRest_taken next' notLineFeed scanned']
          exact inductionHypothesis _ _ (.cons ⟨rfl, Or.inl isPlaced⟩ sameRead) afterToken
  | case4 read cursor first rest next start notLineFeed error following scanned =>
      intro read' cursor' sameRead before
      obtain ⟨rest', next', isPlaced, after⟩ :=
        (alongside.next before).of_character next notLineFeed
      have same := alongside.scanToken first isPlaced after
      generalize scanned' : scanToken first cursor'.skipTrivia.position rest' = result at same
      rw [scanned] at same
      cases same with
      | error isPlacedError _ =>
          rw [scanRest_failed next' notLineFeed scanned']
          exact .error isPlacedError

/-- Scanning a whole text is calling the scanner once, before its first character. -/
theorem tokensOf_eq_outcomeOf (text : String) :
    tokensOf text = outcomeOf (tokenize (Cursor.ofString text)) := by
  unfold tokensOf
  cases tokenize (Cursor.ofString text) <;> rfl

end RefScript
