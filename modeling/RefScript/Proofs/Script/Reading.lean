import RefScript.Proofs.Script.Lines

namespace RefScript

/-!
# Reading a script

The reader accepts exactly what the grammar spells. The tokens of a command are
read as that command in whatever bodies are open. Conversely, what has been
read at the start of a line is spelled by the tokens before it: the lines of
the commands that have been read, and of the bodies that are still open.
-/

open ScriptReader

variable {enclosing : List OpenBody} {read : List Command}
  {first : LocatedToken} {rest found ending following : List LocatedToken}

/-! ## One line -/

theorem readRest_endOfFile {last : LocatedToken} (isEnd : last.token = .endOfFile) :
    readRest enclosing read [last] = endScript enclosing read [last] := by
  rw [readRest]
  simp only [isEnd]

/-- Any other token closes the innermost body or starts a line. -/
theorem readRest_word (isSpelled : first.token.isSpelled = true) :
    readRest enclosing read (first :: rest) =
      match closedBy? first.token enclosing with
      | some (innermost, outer) =>
          match endOfLine rest with
          | .ok _ following =>
              readRest outer
                (innermost.opener.command innermost.position read.reverse ::
                  innermost.preceding)
                following
          | .error error following => .error error following
      | none =>
          match readLine first rest with
          | .ok (.whole command) following => readRest enclosing (command :: read) following
          | .ok (.opening opener) following =>
              readRest (⟨opener, first.position, read⟩ :: enclosing) [] following
          | .error error following => .error error following := by
  rw [readRest]
  split
  case h_1 isLineBreak => simp [isLineBreak, Token.isSpelled] at isSpelled
  case h_2 isEnd => simp [isEnd, Token.isSpelled] at isSpelled
  case h_3 =>
    cases closedBy? first.token enclosing with
    | none =>
        cases readLine first rest with
        | ok line following => cases line <;> rfl
        | error error following => rfl
    | some closed =>
        cases endOfLine rest <;> rfl

theorem closedBy?_eq_some
    {token : Token} {innermost : OpenBody} {outer : List OpenBody}
    (closed : closedBy? token enclosing = some (innermost, outer)) :
    enclosing = innermost :: outer ∧ token = innermost.opener.closer := by
  cases enclosing with
  | nil => cases closed
  | cons around others =>
      rw [closedBy?, Option.ite_none_right_eq_some] at closed
      obtain ⟨closes, same⟩ := closed
      cases same
      exact ⟨rfl, closes⟩

/-- A line never starts with a token that closes a body. -/
theorem closedBy?_of_readLine
    {line : ScriptLine}
    (enclosing : List OpenBody)
    (isLine : readLine first rest = .ok line following) :
    closedBy? first.token enclosing = none := by
  cases closed : closedBy? first.token enclosing with
  | none =>
      rfl
  | some body =>
      obtain ⟨_, closes⟩ := closedBy?_eq_some closed
      exact (readLine_ne_closer isLine body.1.opener closes).elim

theorem readRest_whole
    {command : Command}
    (isLine : readLine first rest = .ok (.whole command) following) :
    readRest enclosing read (first :: rest) = readRest enclosing (command :: read) following := by
  simp only [readRest_word (isSpelled_of_readLine isLine),
    closedBy?_of_readLine enclosing isLine, isLine]

theorem readRest_opening
    {opener : Opener}
    (isLine : readLine first rest = .ok (.opening opener) following) :
    readRest enclosing read (first :: rest) =
      readRest (⟨opener, first.position, read⟩ :: enclosing) [] following := by
  simp only [readRest_word (isSpelled_of_readLine isLine),
    closedBy?_of_readLine enclosing isLine, isLine]

theorem readRest_closing
    {innermost : OpenBody}
    (closes : first.token = innermost.opener.closer)
    (ended : endOfLine rest = .ok () following) :
    readRest (innermost :: enclosing) read (first :: rest) =
      readRest enclosing
        (innermost.opener.command innermost.position read.reverse :: innermost.preceding)
        following := by
  have isSpelled : first.token.isSpelled = true := by
    rw [closes]
    exact innermost.opener.isSpelled_closer
  simp only [readRest_word isSpelled, closedBy?, closes, ↓reduceIte, ended]

/-! ## The tokens of commands are read -/

/-- The tokens of a command are read as that command, if its last line ends after them. -/
def IsRead (command : Command) : Prop :=
  ∀ ⦃enclosing : List OpenBody⦄ ⦃read : List Command⦄
    ⦃found ending following : List LocatedToken⦄,
    List.Forall₂ Slot.FilledBy command.slots found →
      endOfLine ending = .ok () following →
        readRest enclosing read (found ++ ending) =
          readRest enclosing (command :: read) following

/-- The tokens of the lines of commands are read as these commands. -/
def AreRead (commands : List Command) : Prop :=
  ∀ ⦃enclosing : List OpenBody⦄ ⦃read : List Command⦄ ⦃found following : List LocatedToken⦄,
    List.Forall₂ Slot.FilledBy (linesOf commands) found →
      readRest enclosing read (found ++ following) =
        readRest enclosing (commands.reverse ++ read) following

theorem IsRead.of_isFlat
    {command : Command}
    (flat : command.isFlat = true) :
    IsRead command := by
  intro enclosing read found ending following filled ended
  rw [command.slots_of_isFlat flat] at filled
  obtain ⟨first, taken, rfl, startsAt, spelled⟩ :=
    exists_first_of_filledBy_line command.heading_ne_nil filled
  exact readRest_whole (readLine_whole flat startsAt spelled ended)

/-- A command with a body is read if the commands in it are. -/
theorem AreRead.opened
    {body : List Command}
    (bodyRead : AreRead body)
    (opener : Opener)
    (position : Position) :
    IsRead (opener.command position body) := by
  intro enclosing read found ending following filled ended
  rw [opener.slots_command, Slot.body] at filled
  obtain ⟨_, _, rfl, filledHeading, filledBody⟩ := filledBy_append_iff.mp filled
  obtain ⟨_, _, rfl, filledLines, filledCloser⟩ := filledBy_append_iff.mp filledBody
  obtain ⟨first, taken, rfl, rfl, spelled⟩ :=
    exists_first_of_filledBy_line opener.heading_ne_nil filledHeading
  obtain ⟨lineBreak, lines, isLineBreak, linesFilled, rfl⟩ :=
    List.forall₂_cons_left_iff.mp filledLines
  obtain ⟨closing, _, closes, noMore, rfl⟩ := List.forall₂_cons_left_iff.mp filledCloser
  cases noMore
  have opens :
      readLine first (taken ++ lineBreak :: (lines ++ closing :: ending)) =
        .ok (.opening opener) (lines ++ closing :: ending) :=
    readLine_opening spelled (endOfLine_of_lineBreak (Slot.filledBy_lineBreak.mp isLineBreak))
  calc
    readRest enclosing read (first :: taken ++ (lineBreak :: lines ++ [closing]) ++ ending) =
        readRest enclosing read
          (first :: (taken ++ lineBreak :: (lines ++ closing :: ending))) := by
      simp
    _ = readRest (⟨opener, first.position, read⟩ :: enclosing) [] (lines ++ closing :: ending) :=
      readRest_opening opens
    _ = readRest (⟨opener, first.position, read⟩ :: enclosing) (body.reverse ++ [])
          (closing :: ending) :=
      bodyRead linesFilled
    _ = readRest enclosing (opener.command first.position (body.reverse ++ []).reverse :: read)
          following :=
      readRest_closing (Slot.filledBy_inner.mp closes) ended
    _ = readRest enclosing (opener.command first.position body :: read) following := by
      rw [List.append_nil, List.reverse_reverse]

mutual

theorem Command.isRead (command : Command) : IsRead command := by
  cases command with
  | block body position => exact (areRead body).opened .block position
  | frame body position => exact (areRead body).opened .frame position
  | function name formals body position =>
      exact (areRead body).opened (.function name formals) position
  | _ => exact .of_isFlat rfl

theorem areRead (commands : List Command) : AreRead commands := by
  intro enclosing read found following filled
  cases commands with
  | nil =>
      cases filled
      rfl
  | cons command rest =>
      obtain ⟨tokens, _, rfl, filledCommand, filledRest⟩ := filledBy_append_iff.mp filled
      obtain ⟨lineBreak, others, isLineBreak, filledOthers, rfl⟩ :=
        List.forall₂_cons_left_iff.mp filledRest
      have ended : endOfLine (lineBreak :: (others ++ following)) = .ok () (others ++ following) :=
        endOfLine_of_lineBreak (Slot.filledBy_lineBreak.mp isLineBreak)
      rw [List.append_assoc, List.cons_append, command.isRead filledCommand ended,
        areRead rest filledOthers, List.reverse_cons, List.append_assoc]
      rfl

end

/-- Commands are read from the tokens that spell them up to the end of a text. -/
theorem PlacedBy.readRest
    {commands : List Command} {tokens : List LocatedToken}
    (placedBy : PlacedBy commands tokens) :
    ∃ last, readRest [] [] tokens = .ok commands [last] := by
  obtain ⟨lines, areLines, filled⟩ := placedBy
  obtain ⟨found, _, rfl, filledLines, filledEnd⟩ := filledBy_append_iff.mp filled
  obtain ⟨last, _, isEnd, noMore, rfl⟩ := List.forall₂_cons_left_iff.mp filledEnd
  cases noMore
  rw [Slot.filledBy_inner] at isEnd
  refine ⟨last, ?_⟩
  rcases areLines_iff.mp areLines with rfl | ⟨earlier, command, rfl, rfl⟩
  · rw [areRead commands filledLines, readRest_endOfFile isEnd]
    simp [endScript]
  · obtain ⟨complete, lastLine, rfl, filledComplete, filledLast⟩ :=
      filledBy_append_iff.mp filledLines
    rw [List.append_assoc, areRead earlier filledComplete,
      command.isRead filledLast (endOfLine_of_endOfFile isEnd), readRest_endOfFile isEnd]
    simp [endScript]

/-! ## What is read is spelled by the tokens -/

/-- The lines read so far: those of the commands, after those that open the bodies around. -/
def linesRead : List OpenBody → List Command → List Slot
  | [], read => linesOf read.reverse
  | innermost :: outer, read =>
      linesRead outer innermost.preceding ++
        Slot.line innermost.position innermost.opener.heading ++
        .lineBreak :: linesOf read.reverse

theorem linesRead_cons (enclosing : List OpenBody) (read : List Command) (command : Command) :
    linesRead enclosing (command :: read) =
      linesRead enclosing read ++ command.slots ++ [.lineBreak] := by
  cases enclosing with
  | nil =>
      rw [linesRead, List.reverse_cons, linesOf_concat]
      rfl
  | cons innermost outer =>
      rw [linesRead, List.reverse_cons, linesOf_concat, linesRead]
      simp

theorem linesRead_opening
    (enclosing : List OpenBody) (read : List Command) (opener : Opener) (position : Position) :
    linesRead (⟨opener, position, read⟩ :: enclosing) [] =
      linesRead enclosing read ++ Slot.line position opener.heading ++ [.lineBreak] := by
  simp [linesRead, linesOf]

theorem linesRead_closing
    (innermost : OpenBody) (outer : List OpenBody) (read : List Command) :
    linesRead outer
        (innermost.opener.command innermost.position read.reverse :: innermost.preceding) =
      linesRead (innermost :: outer) read ++ [.inner innermost.opener.closer] ++ [.lineBreak] := by
  simp [linesRead_cons, linesRead, Opener.slots_command, Slot.body]

/-- If the lines read so far are spelled by the tokens before, then so is the result. -/
def KeepsSpelled
    (enclosing : List OpenBody) (read : List Command) (tokens : List LocatedToken)
    (result : List Command) : Prop :=
  Tidy false tokens →
    ∀ before, List.Forall₂ Slot.FilledBy (linesRead enclosing read) before →
      PlacedBy result (before ++ tokens)

theorem endScript_eq_ok_iff
    {tokens : List LocatedToken} {result : List Command} :
    endScript enclosing read tokens = .ok result rest ↔
      enclosing = [] ∧ result = read.reverse ∧ rest = tokens := by
  cases enclosing with
  | nil =>
      rw [endScript, EStateM.Result.ok.injEq]
      simp [eq_comm]
  | cons innermost outer =>
      simp [endScript]

/-- At the end of the text the lines read so far are the whole result. -/
theorem placedBy_of_endScript
    {last : LocatedToken} {before : List LocatedToken} {lines : List Slot} {result : List Command}
    (isEnd : last.token = .endOfFile)
    (ended : endScript enclosing read [last] = .ok result rest)
    (areLines :
      lines = linesRead enclosing read ∨ linesRead enclosing read = lines ++ [.lineBreak])
    (filled : List.Forall₂ Slot.FilledBy lines before) :
    PlacedBy result (before ++ [last]) := by
  obtain ⟨rfl, rfl, -⟩ := endScript_eq_ok_iff.mp ended
  refine ⟨lines, ?_, List.rel_append filled (.cons (Slot.filledBy_inner.mpr isEnd) .nil)⟩
  rcases areLines with complete | shortened
  · exact Or.inl complete
  · refine Or.inr ?_
    change linesOf read.reverse = _ at shortened
    rw [shortened, List.dropLast_concat]

/-- A line that is read adds its slots to the lines read so far. -/
theorem KeepsSpelled.line
    {later : List OpenBody} {next result : List Command} {line : List Slot}
    {taken : List LocatedToken}
    (continues : KeepsSpelled later next following result)
    (accepted : readRest later next following = .ok result rest)
    (grows : linesRead later next = linesRead enclosing read ++ line ++ [.lineBreak])
    (filledLine : List.Forall₂ Slot.FilledBy line taken)
    (words : ∀ found ∈ taken, found.token.isSpelled = true)
    (ended : endOfLine ending = .ok () following) :
    KeepsSpelled enclosing read (taken ++ ending) result := by
  intro tidy before filled
  have filledNext :
      List.Forall₂ Slot.FilledBy (linesRead enclosing read ++ line) (before ++ taken) :=
    List.rel_append filled filledLine
  rw [← List.append_assoc]
  rcases tidy.after_line words ended with
    ⟨lineBreak, isLineBreak, rfl, tidyFollowing⟩ | ⟨last, isEnd, rfl, rfl⟩
  · have filledLater :
        List.Forall₂ Slot.FilledBy (linesRead later next) (before ++ taken ++ [lineBreak]) := by
      rw [grows]
      exact List.rel_append filledNext
        (.cons (Slot.filledBy_lineBreak.mpr isLineBreak) .nil)
    rw [List.append_cons]
    exact continues tidyFollowing _ filledLater
  · -- The text ends without the line break that the line would add.
    rw [readRest_endOfFile isEnd] at accepted
    exact placedBy_of_endScript isEnd accepted (Or.inr grows) filledNext

/-- Whatever a reading accepts is spelled by the tokens that it started from. -/
theorem keepsSpelled_of_readRest
    {tokens : List LocatedToken} {result : List Command}
    (accepted : readRest enclosing read tokens = .ok result rest) :
    KeepsSpelled enclosing read tokens result := by
  fun_induction readRest enclosing read tokens with
  | case1 =>
      intro tidy
      cases tidy
  | case2 enclosing read first rest isLineBreak =>
      intro tidy
      cases tidy with
      | word isSpelled => simp [isLineBreak, Token.isSpelled] at isSpelled
      | endOfFile isEnd => simp [isLineBreak] at isEnd
  | case3 enclosing read first rest isEnd =>
      intro tidy before filled
      cases tidy with
      | word isSpelled => simp [isEnd, Token.isSpelled] at isSpelled
      | endOfFile => exact placedBy_of_endScript isEnd accepted (Or.inl rfl) filled
  | case4 enclosing read first rest innermost outer _ following ended command _ _ closed
      inductionHypothesis =>
      obtain ⟨rfl, closes⟩ := closedBy?_eq_some closed
      have isSpelled : first.token.isSpelled = true := by
        rw [closes]
        exact innermost.opener.isSpelled_closer
      simp only [command, List.unattach_reverse, List.unattach_attach] at inductionHypothesis
      exact (inductionHypothesis accepted).line accepted (linesRead_closing _ _ _)
        (.cons (Slot.filledBy_inner.mpr closes) .nil) (by simpa using isSpelled) ended
  | case6 enclosing read first rest command following isLine _ _ _ inductionHypothesis =>
      obtain ⟨⟨flat, startsAt⟩, taken, ending, rfl, spelled, ended⟩ :=
        exists_heading_of_readLine isLine
      refine (inductionHypothesis accepted).line accepted (linesRead_cons _ _ _) ?_
        (isSpelled_of_map_eq_heading spelled) ended
      rw [command.slots_of_isFlat flat, filledBy_line_iff]
      exact ⟨spelled, by simp [startsAt]⟩
  | case7 enclosing read first rest opener following isLine _ _ _ inductionHypothesis =>
      obtain ⟨_, taken, ending, rfl, spelled, ended⟩ :=
        exists_heading_of_readLine isLine
      refine (inductionHypothesis accepted).line accepted (linesRead_opening _ _ _ _) ?_
        (isSpelled_of_map_eq_heading spelled) ended
      rw [filledBy_line_iff]
      exact ⟨spelled, by simp⟩
  | case5 | case8 => cases accepted

/-! ## Scripts -/

/-- A script is read from the tokens that place its commands, and from no others. -/
theorem readScript_eq_ok_iff
    {tokens : List LocatedToken} {commands : List Command}
    (tidy : Tidy false tokens) :
    (∃ rest, readScript tokens = .ok commands rest) ↔ PlacedBy commands tokens := by
  constructor
  · rintro ⟨rest, accepted⟩
    exact keepsSpelled_of_readRest accepted tidy [] .nil
  · intro placedBy
    obtain ⟨last, accepted⟩ := placedBy.readRest
    exact ⟨_, accepted⟩

theorem scriptOf_eq_ok_iff
    {text : String} {tokens : List LocatedToken} {commands : List Command}
    (scanned : tokensOf text = .ok tokens) :
    scriptOf text = .ok commands ↔ PlacedBy commands tokens := by
  rw [← readScript_eq_ok_iff (tidy_of_tokensOf scanned)]
  simp only [scriptOf, scriptTokens, scanned, Except.mapError]
  cases readScript tokens with
  | ok result rest => simp
  | error error rest => simp

/--
A text that can be scanned is read as a script exactly if its tokens are the
lines of some commands and the end of the text.

The result is these commands, each one, at any depth, at the position of its
first token; but for positions, no other commands are spelled by the same tokens.
-/
theorem script_iff_grammar
    {text : String} {tokens : List LocatedToken}
    (scanned : tokensOf text = .ok tokens) :
    (∀ commands, scriptOf text = .ok commands ↔ PlacedBy commands tokens) ∧
      (∀ commands,
        (∃ placed, scriptOf text = .ok placed ∧ unplacedAll placed = unplacedAll commands) ↔
          SpelledBy commands (tokens.map LocatedToken.token)) ∧
      ∀ commands others,
        SpelledBy commands (tokens.map LocatedToken.token) →
          SpelledBy others (tokens.map LocatedToken.token) →
            unplacedAll commands = unplacedAll others := by
  refine ⟨fun commands => scriptOf_eq_ok_iff scanned, fun commands => ⟨?_, ?_⟩, ?_⟩
  · rintro ⟨placed, accepted, same⟩
    exact ((scriptOf_eq_ok_iff scanned).mp accepted).spelledBy.congr same
  · intro spelledBy
    obtain ⟨placed, same, placedBy⟩ := spelledBy.exists_placedBy
    exact ⟨placed, (scriptOf_eq_ok_iff scanned).mpr placedBy, same⟩
  · -- Both are what is read of the text, but for positions.
    intro commands others commandsSpelled othersSpelled
    obtain ⟨placed, sameCommands, placedBy⟩ := commandsSpelled.exists_placedBy
    obtain ⟨otherPlaced, sameOthers, otherPlacedBy⟩ := othersSpelled.exists_placedBy
    have read := (scriptOf_eq_ok_iff scanned).mpr placedBy
    rw [(scriptOf_eq_ok_iff scanned).mpr otherPlacedBy] at read
    cases read
    rw [← sameCommands, sameOthers]

/-- A function whose body holds a block, and a call without a line break after it. -/
theorem nestedScript_iff_grammar :
    let text := "func f a \x7b\n\x7b\nset a 1\n\x7d\n\x7d\n\ncall f x"
    let tokens : List LocatedToken :=
      [⟨.keyword .function, ⟨1, 1⟩⟩, ⟨.identifier "f", ⟨1, 6⟩⟩, ⟨.identifier "a", ⟨1, 8⟩⟩,
        ⟨.openBrace, ⟨1, 10⟩⟩, ⟨.newline, ⟨1, 11⟩⟩,
        ⟨.openBrace, ⟨2, 1⟩⟩, ⟨.newline, ⟨2, 2⟩⟩,
        ⟨.keyword .set, ⟨3, 1⟩⟩, ⟨.identifier "a", ⟨3, 5⟩⟩, ⟨.literal 1, ⟨3, 7⟩⟩,
        ⟨.newline, ⟨3, 8⟩⟩,
        ⟨.closeBrace, ⟨4, 1⟩⟩, ⟨.newline, ⟨4, 2⟩⟩,
        ⟨.closeBrace, ⟨5, 1⟩⟩, ⟨.newline, ⟨5, 2⟩⟩,
        ⟨.keyword .call, ⟨7, 1⟩⟩, ⟨.identifier "f", ⟨7, 6⟩⟩, ⟨.identifier "x", ⟨7, 8⟩⟩,
        ⟨.endOfFile, ⟨7, 9⟩⟩]
    let commands : List Command :=
      [.function "f" ["a"] [.block [.assign "a" 1 ⟨3, 1⟩] ⟨2, 1⟩] ⟨1, 1⟩,
        .call "f" ["x"] ⟨7, 1⟩]
    tokensOf text = .ok tokens ∧
      PlacedBy commands tokens ∧ scriptOf text = .ok commands := by
  intro text tokens commands
  have scanned : tokensOf text = .ok tokens := tokensOf_of_toOption (by decide +kernel)
  have placedBy : PlacedBy commands tokens := by
    refine ⟨(linesOf commands).dropLast, Or.inr rfl, ?_⟩
    simp [commands, tokens, linesOf, Command.heading, Command.bodySlots, Opener.heading,
      Slot.line, Slot.body, Slot.FilledBy, Command.position, Slot.lineBreak, Slot.inner]
  exact ⟨scanned, placedBy, ((script_iff_grammar scanned).1 commands).mpr placedBy⟩

end RefScript
