import RefScript.InputTape
import RefScript.Proofs.Text.DataText

namespace RefScript

/-!
# Scanning data texts

A data text is scanned into the tokens of scripts, of which only numbers and line
breaks are let through. It is accepted exactly if it is one of the grammar, and
the tape then holds its numbers. Since tokens need no gap between them, more is
accepted than is documented.
-/

namespace InputTape

/-- A line feed changes nothing about the numbers that have been read. -/
theorem literalsOf_breakLine (read : List LocatedToken) (position : Position) (values : List Word) :
    literalsOf (breakLine read position).reverse = .ok values ↔
      literalsOf read.reverse = .ok values := by
  unfold breakLine
  split
  · rfl
  · rfl
  · rw [List.reverse_cons, literalsOf_append_eq_ok_iff]
    constructor
    · rintro ⟨earlier, later, isEarlier, isLater, rfl⟩
      cases isLater
      rw [List.append_nil]
      exact isEarlier
    · intro isEarlier
      exact ⟨values, [], isEarlier, rfl, (List.append_nil values).symm⟩

end InputTape

/-! ## Accepted texts are of the grammar -/

private theorem dataText_of_blanks
    {blanks rest : List Char} {values : List Word}
    (allBlank : ∀ character ∈ blanks, isBlank character = true)
    (data : DataText rest values) :
    DataText (blanks ++ rest) values := by
  induction blanks with
  | nil =>
      exact data
  | cons character later inductionHypothesis =>
      obtain ⟨blank, others⟩ := List.forall_mem_cons.mp allBlank
      exact .gap (by simp [isGap, blank]) (inductionHypothesis others)

/-- Blanks and a comment before a data text leave it one. -/
theorem dataText_of_skipTrivia
    {cursor : Cursor} {values : List Word}
    (data : DataText cursor.skipTrivia.remaining values) :
    DataText cursor.remaining values := by
  have split : cursor.remaining = cursor.run isBlank ++ (cursor.afterRun isBlank).remaining :=
    List.takeWhile_append_dropWhile.symm
  rw [split]
  apply dataText_of_blanks (List.all_eq_true.mp List.all_takeWhile)
  unfold Cursor.skipTrivia at data
  dsimp only at data
  split at data
  case isFalse =>
    exact data
  case isTrue opens =>
    cases remaining : (cursor.afterRun isBlank).remaining with
    | nil =>
        simp [Cursor.startsWith, remaining] at opens
    | cons first rest =>
        have isComment : first = '#' := by simpa [Cursor.startsWith, remaining] using opens
        subst isComment
        rw [Cursor.afterRun, remaining] at data
        exact .comment data

/-- The text from a lexeme on is the spelling of the lexeme and what follows it. -/
theorem TakesLexeme.drop_start
    {characters : List Char} {start stop : Nat} {token : Token}
    (takes : TakesLexeme characters start token stop) :
    characters.drop start = characters.extract start stop ++ characters.drop stop := by
  have ordered := Nat.add_sub_cancel' (Nat.le_of_lt takes.start_lt_stop)
  rw [List.extract_eq_take_drop, ← ordered, ← List.drop_drop, Nat.add_sub_cancel_left,
    List.take_append_drop]

/--
What follows the cursor of a scan is of the grammar, if all the tokens are let
through in the end. The numbers among the tokens that had been read before come
first.
-/
theorem dataText_of_scanRest
    {characters : List Char} {index : Nat}
    {read tokens : List LocatedToken} {final : Cursor} {all : List Word}
    (inside : index ≤ characters.length)
    (scanned : scanRest read (Cursor.atIndex characters index) = .ok tokens final)
    (numbers : InputTape.literalsOf tokens = .ok all) :
    ∃ earlier values,
      InputTape.literalsOf read.reverse = .ok earlier ∧
        all = earlier ++ values ∧ DataText (characters.drop index) values := by
  obtain ⟨start, trivia, skipped⟩ := exists_skipTrivia inside
  have skipping {values : List Word} (data : DataText (characters.drop start) values) :
      DataText (characters.drop index) values := by
    have data' : DataText (Cursor.atIndex characters index).skipTrivia.remaining values := by
      rw [skipped]
      exact data
    exact dataText_of_skipTrivia data'
  unfold scanRest at scanned
  split at scanned
  case h_1 noNext =>
    rw [skipped, Cursor.next?_atIndex, Option.map_eq_none_iff, List.getElem?_eq_none_iff]
      at noNext
    cases scanned
    rw [List.reverse_cons, InputTape.literalsOf_append_eq_ok_iff] at numbers
    obtain ⟨earlier, later, isEarlier, isLater, rfl⟩ := numbers
    cases isLater
    refine ⟨earlier, [], isEarlier, rfl, skipping ?_⟩
    rw [List.drop_eq_nil_of_le noNext]
    exact .nil
  case h_2 first rest next =>
    rw [skipped, Cursor.next?_atIndex, Option.map_eq_some_iff] at next
    obtain ⟨_, here, same⟩ := next
    cases same
    obtain ⟨beforeEnd, isFirst⟩ := List.getElem?_eq_some_iff.mp here
    have shorter := trivia.start_le_stop
    have dropped : characters.drop start = first :: characters.drop (start + 1) := by
      rw [List.drop_eq_getElem_cons beforeEnd, isFirst]
    simp only [skipped, Cursor.position_atIndex] at scanned
    split at scanned
    case isTrue isLineFeed =>
      subst isLineFeed
      obtain ⟨earlier, values, isEarlier, isAll, data⟩ :=
        dataText_of_scanRest beforeEnd scanned numbers
      rw [InputTape.literalsOf_breakLine] at isEarlier
      refine ⟨earlier, values, isEarlier, isAll, skipping ?_⟩
      rw [dropped]
      exact .gap rfl data
    case isFalse notLineFeed =>
      split at scanned
      case h_1 token following isToken =>
        obtain ⟨stop, rfl, takes⟩ := exists_scanToken here isToken
        have progress := takes.start_lt_stop
        obtain ⟨known, values, isKnown, rfl, data⟩ :=
          dataText_of_scanRest takes.stop_le_length scanned numbers
        rw [List.reverse_cons, InputTape.literalsOf_append_eq_ok_iff] at isKnown
        obtain ⟨earlier, later, isEarlier, isLater, rfl⟩ := isKnown
        cases token with
        | literal value =>
            cases isLater
            refine ⟨earlier, value :: values, isEarlier, by simp, skipping ?_⟩
            rw [takes.drop_start]
            refine .literal takes.spelled ?_ data
            rw [List.head?_drop]
            exact takes.longest rfl
        | newline | endOfFile =>
            cases takes.spelled
        | _ =>
            cases isLater
      case h_2 =>
        contradiction
termination_by characters.length - index

/-! ## Texts of the grammar are accepted -/

theorem scanRest_congr
    {cursor cursor' : Cursor} {read : List LocatedToken}
    (same : cursor.skipTrivia = cursor'.skipTrivia) :
    scanRest read cursor = scanRest read cursor' := by
  unfold scanRest
  generalize cursor.skipTrivia = skipped, cursor'.skipTrivia = skipped' at same
  subst same
  rfl

theorem scanRest_blank
    {character : Char} (blank : isBlank character = true)
    (read : List LocatedToken) (rest : List Char) (position : Position) :
    scanRest read ⟨character :: rest, position⟩ =
      scanRest read ⟨rest, position.after character⟩ := by
  apply scanRest_congr
  simp [Cursor.skipTrivia, Cursor.afterRun, Cursor.run, blank]

theorem scanRest_lineFeed
    (read : List LocatedToken) (rest : List Char) (position : Position) :
    scanRest read ⟨'\n' :: rest, position⟩ =
      scanRest (breakLine read position) ⟨rest, position.after '\n'⟩ := by
  have skipped : Cursor.skipTrivia ⟨'\n' :: rest, position⟩ = ⟨'\n' :: rest, position⟩ := rfl
  rw [scanRest]
  generalize Cursor.skipTrivia ⟨'\n' :: rest, position⟩ = cursor at skipped
  subst skipped
  rfl

theorem scanRest_comment
    (read : List LocatedToken) (rest : List Char) (position : Position) :
    ∃ later,
      scanRest read ⟨'#' :: rest, position⟩ =
        scanRest read ⟨rest.dropWhile (· ≠ '\n'), later⟩ := by
  have opened :
      Cursor.skipTrivia ⟨'#' :: rest, position⟩ =
        ⟨rest.dropWhile (· ≠ '\n'),
          position.afterAll ('#' :: rest.takeWhile (· ≠ '\n'))⟩ :=
    rfl
  have ended := List.head?_dropWhile_not (fun character : Char => character ≠ '\n') rest
  refine ⟨position.afterAll ('#' :: rest.takeWhile (· ≠ '\n')), scanRest_congr (opened.trans ?_)⟩
  cases remaining : rest.dropWhile fun character => character ≠ '\n' with
  | nil =>
      rfl
  | cons character later =>
      rw [remaining] at ended
      have lineFeed : character = '\n' := by simpa using ended
      subst lineFeed
      rfl

theorem scanRest_token
    {first : Char} {rest : List Char} {position : Position}
    {token : Token} {following : Cursor}
    (lexical : isLexical first = true)
    (scanned :
      scanToken first position ⟨rest, position.after first⟩ = .ok token following)
    (read : List LocatedToken) :
    scanRest read ⟨first :: rest, position⟩ =
      scanRest (⟨token, position⟩ :: read) following := by
  obtain ⟨notBlank, notLineFeed, notComment⟩ := isLexical_iff.mp lexical
  have skipped : Cursor.skipTrivia ⟨first :: rest, position⟩ = ⟨first :: rest, position⟩ := by
    simp [Cursor.skipTrivia, Cursor.afterRun, Cursor.run, Cursor.startsWith, notBlank,
      notComment]
  rw [scanRest]
  generalize Cursor.skipTrivia ⟨first :: rest, position⟩ = cursor at skipped
  subst skipped
  split
  case h_1 noNext =>
    cases noNext
  case h_2 first' rest' next =>
    cases next
    rw [if_neg notLineFeed]
    split
    case h_1 token' following' scanned' =>
      cases scanned.symm.trans scanned'
      rfl
    case h_2 scanned' =>
      cases scanned.symm.trans scanned'

/-- The spelling of a number denotes its value. -/
theorem Spells.literalValue_eq
    {value : Word} {spelling : List Char}
    (spells : Spells (.literal value) spelling) :
    literalValue spelling = value.toInt := by
  cases spells with
  | natural nonempty allDigits denotes =>
      rw [literalValue, denotes]
      rintro digits rfl
      exact absurd (allDigits '-' List.mem_cons_self) (by decide)
  | negative nonempty allDigits denotes =>
      rw [literalValue, denotes]

/-- A run ends before the first character that is not of its class. -/
theorem run_append_of_ended
    {accepts : Char → Bool} {word rest : List Char}
    (accepted : ∀ character ∈ word, accepts character = true)
    (ended : rest.head?.any accepts = false) :
    (word ++ rest).takeWhile accepts = word ∧ (word ++ rest).dropWhile accepts = rest := by
  rw [List.takeWhile_append_of_pos accepted, List.dropWhile_append_of_pos accepted]
  cases rest with
  | nil =>
      simp
  | cons next others =>
      rw [List.head?_cons, Option.any_some] at ended
      simp [ended]

/-- What ends a word ends a run of the characters of a word. -/
theorem run_append
    {accepts : Char → Bool}
    (wordParts : ∀ character, accepts character = true → isWordPart character = true)
    {word rest : List Char}
    (accepted : ∀ character ∈ word, accepts character = true)
    (ended : rest.head?.any isWordPart = false) :
    (word ++ rest).takeWhile accepts = word ∧ (word ++ rest).dropWhile accepts = rest := by
  refine run_append_of_ended accepted ?_
  cases rest with
  | nil =>
      rfl
  | cons next others =>
      refine Bool.eq_false_iff.mpr fun goesOn => ?_
      rw [List.head?_cons, Option.any_some, wordParts next goesOn] at ended
      contradiction

/-- A number is scanned if no letter or underscore follows it. -/
private theorem scanLiteral_of_spells
    {value : Word} {first : Char} {digits rest : List Char}
    (spells : Spells (.literal value) (first :: digits))
    (allDigits : ∀ character ∈ digits, isDigit character = true)
    (ended : rest.head?.any isWordPart = false)
    (start position : Position) :
    scanLiteral first start ⟨digits ++ rest, position⟩ =
      .ok (.literal value) ⟨rest, position.afterAll digits⟩ := by
  obtain ⟨taken, left⟩ := run_append (fun _ => isWordPart_of_isDigit) allDigits ended
  have noWord : rest.head?.any isWordStart = false := by
    cases rest with
    | nil => rfl
    | cons next others => simp_all [isWordPart]
  simp only [scanLiteral, Cursor.run, Cursor.afterRun, Cursor.startsWith, taken, left, noWord,
    spells.literalValue_eq, Word.ofInt?_toInt, Bool.false_eq_true, ↓reduceIte]

/-- A number is scanned up to where it ends. -/
theorem exists_scanRest_literal
    {value : Word} {spelling : List Char}
    (spells : Spells (.literal value) spelling)
    {rest : List Char}
    (ended : rest.head?.any isWordPart = false)
    (read : List LocatedToken) (position : Position) :
    ∃ later,
      scanRest read ⟨spelling ++ rest, position⟩ =
        scanRest (⟨.literal value, position⟩ :: read) ⟨rest, later⟩ := by
  obtain ⟨first, digits, rfl, allDigits, starts⟩ := spells.exists_digits
  have notBrace : first ≠ '\x7b' ∧ first ≠ '\x7d' := by
    rcases starts with digit | ⟨rfl, _⟩
    · constructor <;> rintro rfl <;> exact absurd digit (by decide)
    · decide
  have startsNumber :
      (isDigit first ||
        (first = '-' &&
          Cursor.startsWith ⟨digits ++ rest, position.after first⟩ isDigit)) = true := by
    rcases starts with digit | ⟨rfl, nonempty⟩
    · simp [digit]
    · obtain ⟨next, others, rfl⟩ := List.exists_cons_of_ne_nil nonempty
      simp [Cursor.startsWith, allDigits next List.mem_cons_self]
  have scanned := scanLiteral_of_spells spells allDigits ended position (position.after first)
  have isToken :
      scanToken first position ⟨digits ++ rest, position.after first⟩ =
        .ok (.literal value) ⟨rest, (position.after first).afterAll digits⟩ := by
    rw [scanToken, if_neg notBrace.1, if_neg notBrace.2, if_pos startsNumber]
    exact scanned
  exact ⟨_, scanRest_token (spells.isLexical first List.mem_cons_self) isToken read⟩

/-- A text of the grammar is scanned, and the tokens are its numbers and line breaks. -/
theorem DataText.exists_scanRest
    {characters : List Char} {values : List Word}
    (data : DataText characters values)
    {read : List LocatedToken} {earlier : List Word}
    (isEarlier : InputTape.literalsOf read.reverse = .ok earlier)
    (position : Position) :
    ∃ tokens final,
      scanRest read ⟨characters, position⟩ = .ok tokens final ∧
        InputTape.literalsOf tokens = .ok (earlier ++ values) := by
  induction data generalizing read earlier position with
  | nil =>
      refine ⟨_, _, by rw [scanRest]; rfl, ?_⟩
      rw [List.reverse_cons, InputTape.literalsOf_append_eq_ok_iff]
      exact ⟨earlier, [], isEarlier, rfl, rfl⟩
  | @gap character rest values gap later inductionHypothesis =>
      by_cases lineFeed : character = '\n'
      · subst lineFeed
        rw [scanRest_lineFeed]
        rw [← InputTape.literalsOf_breakLine read position] at isEarlier
        exact inductionHypothesis isEarlier _
      · have blank : isBlank character = true := by simpa [isGap, lineFeed] using gap
        rw [scanRest_blank blank]
        exact inductionHypothesis isEarlier _
  | @comment rest values later inductionHypothesis =>
      obtain ⟨after, skipped⟩ := scanRest_comment read rest position
      rw [skipped]
      exact inductionHypothesis isEarlier after
  | @literal spelling rest value values spells ended later inductionHypothesis =>
      obtain ⟨after, taken⟩ := exists_scanRest_literal spells ended read position
      have isKnown :
          InputTape.literalsOf (⟨.literal value, position⟩ :: read).reverse =
            .ok (earlier ++ [value]) := by
        rw [List.reverse_cons, InputTape.literalsOf_append_eq_ok_iff]
        exact ⟨earlier, [value], isEarlier, rfl, rfl⟩
      rw [taken, List.append_cons]
      exact inductionHypothesis isKnown after

namespace InputTape

/-- A data text is accepted exactly if it is one of the grammar, for the numbers it holds. -/
theorem ofText_eq_ok_iff {text : String} {tape : InputTape} :
    ofText text = .ok tape ↔
      ∃ values, tape = ofLiterals values.toArray ∧ DataText text.toList values := by
  unfold ofText tokensOf tokenize
  rw [Cursor.ofString_eq]
  constructor
  · intro accepted
    cases scanned : scanRest [] (Cursor.atIndex text.toList 0) with
    | error error stopped =>
        simp [scanned] at accepted
    | ok tokens final =>
        simp only [scanned] at accepted
        cases numbers : literalsOf tokens with
        | error error =>
            simp [numbers, Except.map] at accepted
        | ok all =>
            obtain ⟨_, values, noneEarlier, rfl, data⟩ :=
              dataText_of_scanRest (Nat.zero_le _) scanned numbers
            cases noneEarlier
            rw [numbers] at accepted
            cases accepted
            exact ⟨values, rfl, data⟩
  · rintro ⟨values, rfl, data⟩
    have noneEarlier : literalsOf [].reverse = .ok [] := rfl
    obtain ⟨tokens, final, scanned, numbers⟩ :=
      data.exists_scanRest noneEarlier (Position.ofIndex text.toList 0)
    have scannedAll : scanRest [] (Cursor.atIndex text.toList 0) = .ok tokens final := scanned
    simp only [scannedAll, numbers]
    rfl

/--
A data text is accepted exactly if every run of characters other than blanks and
line feeds, once the comments are deleted, is made of numbers that follow each
other without a gap, all but the first one with a minus sign. The tape holds
these numbers in order.

So every text of the documented form is accepted, for the numbers that are its
runs. But of the texts that are accepted, only those have that form in which a
run has no minus sign after its first character.
-/
theorem ofText_accepts_iff (text : String) :
    (∀ tape,
      ofText text = .ok tape ↔
        ∃ groups,
          List.Forall₂ Numerals (runs (withoutComments text.toList)) groups ∧
            tape = ofLiterals groups.flatten.toArray) ∧
    (∀ values,
      Documented text.toList values → ofText text = .ok (ofLiterals values.toArray)) ∧
    (∀ tape,
      ofText text = .ok tape →
        ((∃ values, Documented text.toList values ∧ tape = ofLiterals values.toArray) ↔
          ∀ run ∈ runs (withoutComments text.toList), '-' ∉ run.tail)) := by
  have accepts (tape : InputTape) :
      ofText text = .ok tape ↔
        ∃ groups,
          List.Forall₂ Numerals (runs (withoutComments text.toList)) groups ∧
            tape = ofLiterals groups.flatten.toArray := by
    simp only [ofText_eq_ok_iff, dataText_iff_groups]
    constructor
    · rintro ⟨_, rfl, groups, rfl, numerals⟩
      exact ⟨groups, numerals, rfl⟩
    · rintro ⟨groups, numerals, rfl⟩
      exact ⟨_, rfl, groups, rfl, numerals⟩
  refine ⟨accepts, ?_, ?_⟩
  · intro values documented
    have sameValues : (values.map fun value => [value]).flatten = values :=
      List.flatMap_singleton' values
    exact (accepts _).mpr ⟨_, documented.numerals, by rw [sameValues]⟩
  · intro tape accepted
    obtain ⟨groups, numerals, rfl⟩ := (accepts tape).mp accepted
    constructor
    · rintro ⟨values, documented, _⟩
      exact documented.no_inner_sign
    · intro noInnerSign
      exact ⟨_, documented_of_numerals numerals noInnerSign, rfl⟩

/-- Two numbers without a gap between them are accepted, but not documented. -/
theorem touching_numbers_accepted :
    ofText "1-2" = .ok (ofLiterals #[1, -2]) ∧
      ¬ ∃ values, Documented "1-2".toList values := by
  have scanned :
      tokensOf "1-2" =
        .ok [⟨.literal 1, ⟨1, 1⟩⟩, ⟨.literal (-2), ⟨1, 2⟩⟩, ⟨.endOfFile, ⟨1, 4⟩⟩] :=
    tokensOf_of_toOption (by decide +kernel)
  have oneRun : runs (withoutComments "1-2".toList) = [['1', '-', '2']] := by
    decide +kernel
  constructor
  · rw [ofText, scanned]
    rfl
  · rintro ⟨values, documented⟩
    rw [Documented, oneRun] at documented
    cases documented with
    | cons spells _ => exact spells.no_inner_sign (by decide)

end InputTape

end RefScript
