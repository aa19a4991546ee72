import RefScript.Proofs.Script.Reading
import RefScript.Proofs.Script.Renaming
import RefScript.Proofs.Text.Joining

namespace RefScript

/-!
# Joining scripts

A script can be written into two texts and read of each alone, if the cut is
made between two lines: with a line feed between them the texts hold the commands
of the first one and then those of the second one, further down. The end of the
first text ends its last line, be there a line break before it or not. Data texts
can be cut in the same way.
-/

/-- The same command, it and all in it a number of lines further down. -/
def Command.lowered (lines : Nat) : Command → Command :=
  Command.rename id id (.lowered lines)

/-! ## Slots further down -/

/-- The same slot, for a token that stands elsewhere. -/
def Slot.moved (place : Position → Position) (slot : Slot) : Slot :=
  ⟨slot.token, slot.start?.map place⟩

section Moved

variable (place : Position → Position)

@[simp] theorem Slot.moved_inner (token : Token) : (Slot.inner token).moved place = .inner token :=
  rfl

@[simp] theorem Slot.moved_lineBreak : Slot.lineBreak.moved place = .lineBreak :=
  rfl

theorem Slot.map_moved_line (position : Position) (tokens : List Token) :
    (Slot.line position tokens).map (.moved place) = Slot.line (place position) tokens := by
  cases tokens with
  | nil => rfl
  | cons first rest => simp [Slot.line, Slot.moved, Function.comp_def, Slot.inner]

theorem Command.heading_moved (command : Command) :
    (command.rename id id place).heading = command.heading := by
  cases command <;> simp [Command.rename, Command.heading, Opener.heading]

mutual

theorem Command.bodySlots_moved (command : Command) :
    (command.rename id id place).bodySlots = command.bodySlots.map (.moved place) := by
  cases command with
  | block body position | frame body position | function name formals body position =>
      simp [Command.rename, Command.bodySlots, Slot.body, linesOf_moved body]
  | _ =>
      rfl

/-- Commands that stand elsewhere ask for the same tokens there. -/
theorem linesOf_moved (commands : List Command) :
    linesOf (renameAll id id place commands) = (linesOf commands).map (.moved place) := by
  cases commands with
  | nil =>
      rfl
  | cons command rest =>
      simp [renameAll, linesOf, command.position_rename, command.heading_moved,
        command.bodySlots_moved, linesOf_moved rest, Slot.map_moved_line]

end

theorem Slot.FilledBy.lowered
    {slot : Slot} {found : LocatedToken} (filled : slot.FilledBy found) (lines : Nat) :
    (slot.moved (.lowered lines)).FilledBy (found.lowered lines) := by
  refine ⟨filled.1, fun position isStart => ?_⟩
  obtain ⟨start, wasStart, rfl⟩ := Option.map_eq_some_iff.mp isStart
  exact congrArg (Position.lowered lines) (filled.2 start wasStart)

end Moved

/-- Tokens further down place the commands further down. -/
theorem PlacedBy.lowered
    {commands : List Command} {tokens : List LocatedToken}
    (placedBy : PlacedBy commands tokens) (lines : Nat) :
    PlacedBy (commands.map (.lowered lines)) (tokens.map (.lowered lines)) := by
  obtain ⟨slots, areLines, filled⟩ := placedBy
  have sameLines :
      linesOf (commands.map (.lowered lines)) = (linesOf commands).map (.moved (.lowered lines)) := by
    rw [← linesOf_moved, renameAll_eq_map]
    rfl
  refine ⟨slots.map (.moved (.lowered lines)), ?_, ?_⟩
  · rcases areLines with rfl | rfl
    · exact Or.inl sameLines.symm
    · exact Or.inr (by rw [sameLines, List.map_dropLast])
  · have filledAll :
        List.Forall₂ Slot.FilledBy
          ((slots ++ [Slot.inner .endOfFile]).map (.moved (.lowered lines)))
          (tokens.map (.lowered lines)) := by
      rw [List.forall₂_map_left_iff, List.forall₂_map_right_iff]
      exact filled.imp fun _ _ filledBy => filledBy.lowered lines
    simpa using filledAll

/-! ## The last line of a text -/

/-- The last token of a command is no line break. -/
theorem Command.exists_last_slot (command : Command) :
    ∃ front last, command.slots = front ++ [last] ∧ last.token.isSpelled = true := by
  have opened (opener : Opener) (position : Position) (body : List Command) :
      ∃ front last, (opener.command position body).slots = front ++ [last] ∧
        last.token.isSpelled = true := by
    rw [opener.slots_command, Slot.body, ← List.append_assoc]
    exact ⟨_, _, rfl, opener.isSpelled_closer⟩
  cases flat : command.isFlat with
  | true =>
      have sameTokens : command.slots.map Slot.token = command.heading := by
        rw [command.slots_of_isFlat flat, Slot.map_token_line]
      have words := (ScriptLine.whole command).all_isSpelled_heading
      rw [ScriptLine.heading, ← sameTokens, List.all_map, List.all_eq_true] at words
      rcases List.eq_nil_or_concat' command.slots with isEmpty | ⟨front, last, isLast⟩
      · rw [isEmpty] at sameTokens
        exact (command.heading_ne_nil sameTokens.symm).elim
      · exact ⟨front, last, isLast, words last (by simp [isLast])⟩
  | false =>
      cases command with
      | block body position => exact opened .block position body
      | frame body position => exact opened .frame position body
      | function name formals body position => exact opened (.function name formals) position body
      | _ => cases flat

/-- Where the lines of commands end without a line break, one is added; else they end. -/
theorem filledBy_closeLine
    {commands : List Command} {slots : List Slot} {tokens : List LocatedToken}
    (areLines : AreLines commands slots)
    (filled : List.Forall₂ Slot.FilledBy slots tokens) (ending : Position) :
    List.Forall₂ Slot.FilledBy (linesOf commands) (closeLine tokens ending) := by
  rcases areLines_iff.mp areLines with rfl | ⟨earlier, last, rfl, rfl⟩
  · rcases List.eq_nil_or_concat' commands with rfl | ⟨earlier, last, rfl⟩
    · cases filled
      exact .nil
    · have ended := filled
      rw [linesOf_concat] at ended
      obtain ⟨front, _, rfl, _, filledEnd⟩ := filledBy_append_iff.mp ended
      obtain ⟨lineBreak, _, isLineBreak, noMore, rfl⟩ := List.forall₂_cons_left_iff.mp filledEnd
      cases noMore
      rw [Slot.filledBy_lineBreak] at isLineBreak
      rw [closeLine, List.getLast?_concat]
      simpa only [isLineBreak, ↓reduceIte] using filled
  · obtain ⟨front, final, isLast, isSpelled⟩ := last.exists_last_slot
    have unended := filled
    rw [isLast, ← List.append_assoc] at unended
    obtain ⟨taken, _, rfl, _, filledEnd⟩ := filledBy_append_iff.mp unended
    obtain ⟨word, _, isWord, noMore, rfl⟩ := List.forall₂_cons_left_iff.mp filledEnd
    cases noMore
    have notNewline : word.token ≠ .newline := by
      intro isLineBreak
      rw [← isWord.1, isLineBreak] at isSpelled
      cases isSpelled
    rw [closeLine, List.getLast?_concat, linesOf_concat]
    simp only [notNewline, ↓reduceIte]
    exact List.rel_append filled (.cons (Slot.filledBy_lineBreak.mpr rfl) .nil)

/-- Complete lines before the lines of other commands. -/
theorem AreLines.append
    {commands later : List Command} {slots : List Slot}
    (areLines : AreLines later slots) :
    AreLines (commands ++ later) (linesOf commands ++ slots) := by
  rcases areLines_iff.mp areLines with rfl | ⟨earlier, last, rfl, rfl⟩
  · exact Or.inl (linesOf_append commands later).symm
  · refine areLines_iff.mpr (Or.inr ⟨commands ++ earlier, last, ?_, ?_⟩)
    · rw [List.append_assoc]
    · rw [linesOf_append, List.append_assoc]

/-- Commands stand before other ones if the text of the first ones has ended its last line. -/
theorem PlacedBy.append
    {commands later : List Command} {earlier tokens : List LocatedToken} {ending : Position}
    (first : PlacedBy commands (earlier ++ [⟨.endOfFile, ending⟩]))
    (second : PlacedBy later tokens) :
    PlacedBy (commands ++ later) (closeLine earlier ending ++ tokens) := by
  obtain ⟨firstSlots, firstLines, firstFilled⟩ := first
  obtain ⟨secondSlots, secondLines, secondFilled⟩ := second
  obtain ⟨front, back, same, frontFilled, backFilled⟩ := filledBy_append_iff.mp firstFilled
  obtain ⟨_, _, _, noMore, rfl⟩ := List.forall₂_cons_left_iff.mp backFilled
  cases noMore
  obtain ⟨rfl, -⟩ := List.append_inj' same rfl
  refine ⟨linesOf commands ++ secondSlots, secondLines.append, ?_⟩
  rw [List.append_assoc]
  exact List.rel_append (filledBy_closeLine firstLines frontFilled ending) secondFilled

/-! ## Data texts -/

namespace InputTape

/-- The numbers do not depend on where they stand. -/
theorem literalsOf_lowered {tokens : List LocatedToken} {values : List Word}
    (numbers : literalsOf tokens = .ok values) (lines : Nat) :
    literalsOf (tokens.map (.lowered lines)) = .ok values := by
  induction tokens generalizing values with
  | nil =>
      exact numbers
  | cons located rest inductionHypothesis =>
      obtain ⟨token, position⟩ := located
      cases token with
      | literal value =>
          obtain ⟨later, isLater, rfl⟩ := literalsOf_literal_eq_ok_iff.mp numbers
          exact literalsOf_literal_eq_ok_iff.mpr ⟨later, inductionHypothesis isLater, rfl⟩
      | newline | endOfFile =>
          exact inductionHypothesis numbers
      | _ =>
          cases numbers

/-- The end of the last line adds no number. -/
theorem literalsOf_closeLine
    {earlier : List LocatedToken} {ending : Position} {values : List Word}
    (numbers : literalsOf (earlier ++ [⟨.endOfFile, ending⟩]) = .ok values) :
    literalsOf (closeLine earlier ending) = .ok values := by
  obtain ⟨front, back, isFront, isBack, rfl⟩ := literalsOf_append_eq_ok_iff.mp numbers
  cases isBack
  rw [← List.reverse_reverse (closeLine earlier ending), ← breakLine_reverse,
    literalsOf_breakLine, List.reverse_reverse, List.append_nil]
  exact isFront

theorem ofText_eq_ok_iff_literalsOf {text : String} {tape : InputTape} :
    ofText text = .ok tape ↔
      ∃ tokens values, tokensOf text = .ok tokens ∧ literalsOf tokens = .ok values ∧
        tape = ofLiterals values.toArray := by
  unfold ofText
  constructor
  · intro accepted
    split at accepted
    case h_1 => cases accepted
    case h_2 tokens scanned =>
      cases numbers : literalsOf tokens with
      | error error =>
          rw [numbers] at accepted
          cases accepted
      | ok values =>
          rw [numbers] at accepted
          cases accepted
          exact ⟨tokens, values, scanned, numbers, rfl⟩
  · rintro ⟨tokens, values, scanned, numbers, rfl⟩
    simp only [scanned, numbers]
    rfl

end InputTape

/-! ## Joined texts -/

theorem exists_tokensOf_of_scriptOf
    {text : String} {commands : List Command}
    (isScript : scriptOf text = .ok commands) :
    ∃ tokens, tokensOf text = .ok tokens := by
  cases scanned : tokensOf text with
  | ok tokens =>
      exact ⟨tokens, rfl⟩
  | error error =>
      simp only [scriptOf, scriptTokens, scanned, Except.mapError] at isScript
      cases isScript

theorem scriptOf_joined
    {first second : String} {commands later : List Command}
    (isFirst : scriptOf first = .ok commands) (isSecond : scriptOf second = .ok later) :
    scriptOf (first ++ "\n" ++ second) =
      .ok (commands ++ later.map (.lowered (lineCount first))) := by
  obtain ⟨firstTokens, scannedFirst⟩ := exists_tokensOf_of_scriptOf isFirst
  obtain ⟨secondTokens, scannedSecond⟩ := exists_tokensOf_of_scriptOf isSecond
  have placedFirst := (scriptOf_eq_ok_iff scannedFirst).mp isFirst
  have placedSecond := (scriptOf_eq_ok_iff scannedSecond).mp isSecond
  obtain ⟨earlier, rfl, joined⟩ := tokensOf_joined scannedFirst second
  rw [scannedSecond] at joined
  exact (scriptOf_eq_ok_iff joined).mpr (placedFirst.append (placedSecond.lowered _))

theorem InputTape.ofText_joined
    {first second : String} {tape later : InputTape}
    (isFirst : ofText first = .ok tape) (isSecond : ofText second = .ok later) :
    ofText (first ++ "\n" ++ second) = .ok (ofLiterals (tape.literals ++ later.literals)) := by
  obtain ⟨tokens, values, scannedFirst, numbersFirst, rfl⟩ :=
    ofText_eq_ok_iff_literalsOf.mp isFirst
  obtain ⟨laterTokens, laterValues, scannedSecond, numbersSecond, rfl⟩ :=
    ofText_eq_ok_iff_literalsOf.mp isSecond
  obtain ⟨earlier, rfl, joined⟩ := tokensOf_joined scannedFirst second
  rw [scannedSecond] at joined
  have numbers := literalsOf_append_eq_ok_iff.mpr
    ⟨values, laterValues, literalsOf_closeLine numbersFirst,
      literalsOf_lowered numbersSecond (lineCount first), rfl⟩
  refine ofText_eq_ok_iff_literalsOf.mpr ⟨_, _, joined, numbers, ?_⟩
  simp [ofLiterals]

/--
Texts are read line by line: of two texts with a line feed between them, the first
one is scanned as if it stood alone, and so is the second one, but for the lines
that it has been lowered by. The line at which they meet is ended, unless nothing
stands on it before the line feed.

So two scripts can be joined, and the commands of the second one then start further
down, at any depth; and so can two data texts.
-/
theorem joined_text_read_apart (first second : String) :
    let joined := first ++ "\n" ++ second
    (∀ error, tokensOf first = .error error → tokensOf joined = .error error) ∧
      (∀ tokens error,
        tokensOf first = .ok tokens → tokensOf second = .error error →
          tokensOf joined = .error (error.lowered (lineCount first))) ∧
      (∀ tokens later,
        tokensOf first = .ok tokens → tokensOf second = .ok later →
          ∃ earlier,
            tokens = earlier ++ [⟨.endOfFile, endOf first⟩] ∧
              tokensOf joined =
                .ok
                  (closeLine earlier (endOf first) ++ later.map (.lowered (lineCount first)))) ∧
      (∀ commands later,
        scriptOf first = .ok commands → scriptOf second = .ok later →
          scriptOf joined = .ok (commands ++ later.map (.lowered (lineCount first)))) ∧
      ∀ tape later,
        InputTape.ofText first = .ok tape → InputTape.ofText second = .ok later →
          InputTape.ofText joined =
            .ok (InputTape.ofLiterals (tape.literals ++ later.literals)) := by
  refine ⟨fun error failed => tokensOf_joined_of_error failed second, ?_, ?_,
    fun commands later => scriptOf_joined, fun tape later => InputTape.ofText_joined⟩
  · intro tokens error scannedFirst failed
    obtain ⟨earlier, -, joined⟩ := tokensOf_joined scannedFirst second
    rwa [failed] at joined
  · intro tokens later scannedFirst scannedSecond
    obtain ⟨earlier, isEarlier, joined⟩ := tokensOf_joined scannedFirst second
    rw [scannedSecond] at joined
    exact ⟨earlier, isEarlier, joined⟩

end RefScript
