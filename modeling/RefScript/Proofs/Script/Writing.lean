import RefScript.Proofs.Script.Reading
import RefScript.Proofs.Text.DataScanning

namespace RefScript

/-!
# Writing tokens down

Whatever tokens a script is made of, there is a text with these tokens: each one
is written with a blank after it, and each line break as a line feed. All it
takes is that the tokens can be spelled, and that they are tidy as the tokens of
every text are.
-/

/-- A token that stands in some text: if characters spell it at all, some do. -/
def Token.IsWritable (token : Token) : Prop :=
  token.isSpelled = true → ∃ spelling, Spells token spelling

/-- The tokens of a text can be written, since they have been. -/
theorem isWritable_of_tokensOf
    {text : String} {tokens : List LocatedToken}
    (scanned : tokensOf text = .ok tokens) :
    ∀ found ∈ tokens, found.token.IsWritable := by
  intro found member isSpelled
  obtain ⟨lexemes, lexed, rfl⟩ := exists_lexemes_of_tokensOf scanned
  have allSpelled : ∀ lexeme ∈ lexemes, lexeme.token.isSpelled = true :=
    fun lexeme isLexeme => (lexed.spelled lexeme isLexeme).isSpelled
  have ofLexeme :
      found ∈ (tokensAfter text.toList none lexemes).filter fun other => other.token.isSpelled :=
    List.mem_filter.mpr ⟨member, isSpelled⟩
  rw [filter_tokensAfter allSpelled none, List.mem_map] at ofLexeme
  obtain ⟨lexeme, isLexeme, rfl⟩ := ofLexeme
  exact ⟨_, lexed.spelled lexeme isLexeme⟩

/-! ## Scanning a spelling -/

theorem isWordStart_of_reserved (reserved : Keyword) :
    ∃ first rest, reserved.spelling.toList = first :: rest ∧ isWordStart first = true ∧
      ∀ character ∈ rest, isWordPart character = true := by
  simp only [← List.all_eq_true]
  cases reserved <;> exact ⟨_, _, rfl, rfl, rfl⟩

/-- What is spelled like a word is the token that this word is. -/
theorem Spells.exists_word
    {token : Token} {spelling : List Char}
    (spells : Spells token spelling)
    (isWord : (∃ reserved, token = .keyword reserved) ∨ ∃ name, token = .identifier name) :
    ∃ first rest, spelling = first :: rest ∧ isWordStart first = true ∧
      (∀ character ∈ rest, isWordPart character = true) ∧
      token = .ofWord (String.ofList spelling) := by
  cases spells with
  | keyword reserved =>
      obtain ⟨first, rest, spelled, starts, continues⟩ := isWordStart_of_reserved reserved
      refine ⟨first, rest, spelled, starts, continues, ?_⟩
      rw [Token.ofWord, String.ofList_toList, Keyword.ofSpelling?_eq_some_iff.mpr rfl]
  | @identifier first rest starts continues notReserved =>
      refine ⟨first, rest, rfl, starts, continues, ?_⟩
      have notKeyword : Keyword.ofSpelling? (String.ofList (first :: rest)) = none := by
        rw [Option.eq_none_iff_forall_ne_some]
        intro reserved isReserved
        have spelled := Keyword.ofSpelling?_eq_some_iff.mp isReserved
        exact notReserved reserved (by rw [spelled, String.toList_ofList])
      rw [Token.ofWord, notKeyword]
  | _ =>
      simp at isWord

theorem isWordStart_excludes {character : Char} (starts : isWordStart character = true) :
    character ≠ '\x7b' ∧ character ≠ '\x7d' ∧ character ≠ '-' ∧ isDigit character = false := by
  refine ⟨?_, ?_, ?_, Bool.eq_false_iff.mpr fun digit => ?_⟩
  · rintro rfl
    exact absurd starts (by decide)
  · rintro rfl
    exact absurd starts (by decide)
  · rintro rfl
    exact absurd starts (by decide)
  · -- The digits come before both ranges of letters.
    simp only [isWordStart, isDigit, decide_eq_true_eq] at starts digit
    rcases starts with lower | upper | rfl
    · exact absurd (Char.le_trans lower.1 digit.2) (by decide)
    · exact absurd (Char.le_trans upper.1 digit.2) (by decide)
    · exact absurd digit.2 (by decide)

/-- A word is scanned up to where it ends. -/
theorem exists_scanRest_word
    {token : Token} {spelling : List Char}
    (spells : Spells token spelling)
    (isWord : (∃ reserved, token = .keyword reserved) ∨ ∃ name, token = .identifier name)
    {rest : List Char}
    (ended : rest.head?.any isWordPart = false)
    (read : List LocatedToken) (position : Position) :
    ∃ later,
      scanRest read ⟨spelling ++ rest, position⟩ =
        scanRest (⟨token, position⟩ :: read) ⟨rest, later⟩ := by
  have lexical := spells.isLexical
  obtain ⟨first, others, rfl, starts, continues, rfl⟩ := spells.exists_word isWord
  obtain ⟨taken, left⟩ := run_append (fun _ isPart => isPart) continues ended
  obtain ⟨notOpening, notClosing, notMinus, notDigit⟩ := isWordStart_excludes starts
  have isToken :
      scanToken first position ⟨others ++ rest, position.after first⟩ =
        .ok (.ofWord (String.ofList (first :: others)))
          ⟨rest, (position.after first).afterAll others⟩ := by
    rw [scanToken, if_neg notOpening, if_neg notClosing,
      if_neg (by simp [notDigit, notMinus]), if_pos starts]
    simp only [scanWord, Cursor.run, Cursor.afterRun, taken, left]
  exact ⟨_, scanRest_token (lexical first List.mem_cons_self) isToken read⟩

/-- A token is scanned from any of its spellings, up to where a word would end. -/
theorem Spells.exists_scanRest
    {token : Token} {spelling : List Char}
    (spells : Spells token spelling)
    (rest : List Char)
    (ended : rest.head?.any isWordPart = false)
    (read : List LocatedToken) (position : Position) :
    ∃ later,
      scanRest read ⟨spelling ++ rest, position⟩ =
        scanRest (⟨token, position⟩ :: read) ⟨rest, later⟩ := by
  cases token with
  | literal value =>
      exact exists_scanRest_literal spells ended read position
  | keyword reserved =>
      exact exists_scanRest_word spells (Or.inl ⟨reserved, rfl⟩) ended read position
  | identifier name =>
      exact exists_scanRest_word spells (Or.inr ⟨name, rfl⟩) ended read position
  | openBrace =>
      cases spells
      exact ⟨_, scanRest_token rfl rfl read⟩
  | closeBrace =>
      cases spells
      exact ⟨_, scanRest_token rfl rfl read⟩
  | newline | endOfFile =>
      cases spells

/-! ## Texts with given tokens -/

/-- Tokens that a line break may follow: there is a last one, and it is no line break. -/
def IsInLine : List LocatedToken → Prop
  | [] => False
  | last :: _ => last.token ≠ .newline

theorem breakLine_of_isInLine
    {read : List LocatedToken}
    (inLine : IsInLine read)
    (position : Position) :
    breakLine read position = ⟨.newline, position⟩ :: read := by
  cases read with
  | nil =>
      exact inLine.elim
  | cons last earlier =>
      obtain ⟨token, start⟩ := last
      cases token with
      | newline => exact (inLine rfl).elim
      | _ => rfl

/-- Tidy tokens that can be written are those of some characters, wherever these stand. -/
theorem Tidy.exists_characters
    {inLine : Bool} {tokens : List LocatedToken}
    (tidy : Tidy inLine tokens)
    (writable : ∀ found ∈ tokens, found.token.IsWritable) :
    ∃ characters : List Char, ∀ read position,
      (inLine = true → IsInLine read) →
        ∃ scanned final,
          scanRest read ⟨characters, position⟩ = .ok (read.reverse ++ scanned) final ∧
            scanned.map LocatedToken.token = tokens.map LocatedToken.token := by
  induction tidy with
  | @endOfFile inLine last isEnd =>
      refine ⟨[], fun read position _ => ⟨[⟨.endOfFile, position⟩], ⟨[], position⟩, ?_, ?_⟩⟩
      · rw [scanRest, ← List.reverse_cons]
        rfl
      · simp [isEnd]
  | @word inLine first rest isSpelled _ inductionHypothesis =>
      obtain ⟨firstWritable, othersWritable⟩ := List.forall_mem_cons.mp writable
      obtain ⟨spelling, spells⟩ := firstWritable isSpelled
      obtain ⟨characters, isWritten⟩ := inductionHypothesis othersWritable
      refine ⟨spelling ++ ' ' :: characters, fun read position _ => ?_⟩
      obtain ⟨afterFirst, taken⟩ :=
        spells.exists_scanRest (' ' :: characters) rfl read position
      have notNewline : first.token ≠ .newline := by
        intro isLineBreak
        simp [isLineBreak, Token.isSpelled] at isSpelled
      obtain ⟨scanned, final, accepted, same⟩ :=
        isWritten (⟨first.token, position⟩ :: read) (afterFirst.after ' ') fun _ => notNewline
      refine ⟨⟨first.token, position⟩ :: scanned, final, ?_, ?_⟩
      · rw [taken, scanRest_blank rfl, accepted, List.reverse_cons, List.append_assoc]
        rfl
      · rw [List.map_cons, List.map_cons, same]
  | @lineBreak first rest isLineBreak _ inductionHypothesis =>
      obtain ⟨characters, isWritten⟩ :=
        inductionHypothesis (List.forall_mem_cons.mp writable).2
      refine ⟨'\n' :: characters, fun read position startsInLine => ?_⟩
      obtain ⟨scanned, final, accepted, same⟩ :=
        isWritten (⟨.newline, position⟩ :: read) (position.after '\n')
          fun impossible => absurd impossible Bool.false_ne_true
      refine ⟨⟨.newline, position⟩ :: scanned, final, ?_, ?_⟩
      · rw [scanRest_lineFeed, breakLine_of_isInLine (startsInLine rfl), accepted,
          List.reverse_cons, List.append_assoc]
        rfl
      · rw [List.map_cons, List.map_cons, same, isLineBreak]

/-- Tidy tokens that can be written are those of some text. -/
theorem Tidy.exists_text
    {tokens : List LocatedToken}
    (tidy : Tidy false tokens)
    (writable : ∀ found ∈ tokens, found.token.IsWritable) :
    ∃ text scanned, tokensOf text = .ok scanned ∧
      scanned.map LocatedToken.token = tokens.map LocatedToken.token := by
  obtain ⟨characters, isWritten⟩ := tidy.exists_characters writable
  obtain ⟨scanned, final, accepted, same⟩ := isWritten [] Position.first nofun
  refine ⟨String.ofList characters, scanned, ?_, same⟩
  rw [tokensOf, tokenize, Cursor.ofString, String.toList_ofList, accepted]
  rfl

/-! ## Scripts with given commands -/

theorem Tidy.before_words
    {taken ending : List LocatedToken}
    (tidy : Tidy true ending)
    (words : ∀ found ∈ taken, found.token.isSpelled = true) :
    Tidy true (taken ++ ending) := by
  induction taken with
  | nil =>
      exact tidy
  | cons first rest inductionHypothesis =>
      obtain ⟨isSpelled, others⟩ := List.forall_mem_cons.mp words
      exact .word isSpelled (inductionHypothesis others)

mutual

/-- The rest of a command is tidy if what follows it is. -/
theorem Command.tidy_bodySlots
    (command : Command) {found rest : List LocatedToken}
    (filled : List.Forall₂ Slot.FilledBy command.bodySlots found)
    (tidy : Tidy true rest) :
    Tidy true (found ++ rest) := by
  have opened {body : List Command} {closer : Token} {found : List LocatedToken}
      (isSpelled : closer.isSpelled = true)
      (filled : List.Forall₂ Slot.FilledBy (Slot.body (linesOf body) closer) found)
      (tidyLines : ∀ {lines following},
        List.Forall₂ Slot.FilledBy (linesOf body) lines → Tidy false following →
          Tidy false (lines ++ following)) :
      Tidy true (found ++ rest) := by
    obtain ⟨_, _, rfl, filledLines, filledCloser⟩ := filledBy_append_iff.mp filled
    obtain ⟨lineBreak, lines, isLineBreak, linesFilled, rfl⟩ :=
      List.forall₂_cons_left_iff.mp filledLines
    obtain ⟨closing, _, closes, noMore, rfl⟩ := List.forall₂_cons_left_iff.mp filledCloser
    cases noMore
    rw [Slot.filledBy_inner] at closes
    rw [List.append_assoc, List.cons_append]
    refine .lineBreak (Slot.filledBy_lineBreak.mp isLineBreak) (tidyLines linesFilled ?_)
    exact .word (closes ▸ isSpelled) tidy
  cases command with
  | block body position => exact opened rfl filled (tidy_linesOf body)
  | frame body position => exact opened rfl filled (tidy_linesOf body)
  | function name formals body position => exact opened rfl filled (tidy_linesOf body)
  | _ =>
      cases filled
      exact tidy

/-- The lines of commands are tidy if what follows them is. -/
theorem tidy_linesOf
    (commands : List Command) {found rest : List LocatedToken}
    (filled : List.Forall₂ Slot.FilledBy (linesOf commands) found)
    (tidy : Tidy false rest) :
    Tidy false (found ++ rest) := by
  cases commands with
  | nil =>
      cases filled
      exact tidy
  | cons command others =>
      obtain ⟨_, _, rfl, filledSlots, filledRest⟩ := filledBy_append_iff.mp filled
      obtain ⟨heading, body, rfl, filledHeading, filledBody⟩ := filledBy_append_iff.mp filledSlots
      obtain ⟨lineBreak, later, isLineBreak, filledLater, rfl⟩ :=
        List.forall₂_cons_left_iff.mp filledRest
      have tidyLater := tidy_linesOf others filledLater tidy
      have tidyBreak : Tidy true (lineBreak :: (later ++ rest)) :=
        .lineBreak (Slot.filledBy_lineBreak.mp isLineBreak) tidyLater
      have tidyBody := command.tidy_bodySlots filledBody tidyBreak
      obtain ⟨first, taken, rfl, _, spelled⟩ :=
        exists_first_of_filledBy_line command.heading_ne_nil filledHeading
      have words := @isSpelled_of_map_eq_heading (first :: taken) (.whole command) spelled
      simp only [List.append_assoc, List.cons_append]
      exact .word (words first List.mem_cons_self)
        (tidyBody.before_words fun found member => words found (List.mem_cons_of_mem _ member))

end

/-- Commands are read from some text if the tokens of their lines can be written. -/
theorem exists_script_of_lines
    (commands : List Command)
    (writable : ∀ token ∈ (linesOf commands).map Slot.token, token.IsWritable) :
    ∃ text scanned placed,
      tokensOf text = .ok scanned ∧ scriptOf text = .ok placed ∧
        scanned.map LocatedToken.token = (linesOf commands).map Slot.token ++ [.endOfFile] := by
  let found : List LocatedToken :=
    (linesOf commands).map fun slot => ⟨slot.token, .first⟩
  have sameTokens : found.map LocatedToken.token = (linesOf commands).map Slot.token := by
    simp [found]
  obtain ⟨placed, _, filled⟩ := exists_linesOf_placed commands sameTokens
  have tidy : Tidy false (found ++ [⟨.endOfFile, .first⟩]) :=
    tidy_linesOf placed filled (.endOfFile rfl)
  obtain ⟨text, scanned, isScanned, same⟩ := tidy.exists_text (by
    intro other member
    rcases List.mem_append.mp member with inLines | atEnd
    · exact writable _ (sameTokens ▸ List.mem_map_of_mem inLines)
    · rw [List.mem_singleton.mp atEnd]
      exact nofun)
  rw [List.map_append, sameTokens] at same
  have spelledBy : SpelledBy commands (scanned.map LocatedToken.token) :=
    ⟨_, Or.inl rfl, same⟩
  obtain ⟨script, _, placedBy⟩ := spelledBy.exists_placedBy
  exact ⟨text, scanned, script, isScanned, (scriptOf_eq_ok_iff isScanned).mpr placedBy, same⟩

end RefScript
