import RefScript.Proofs.Script.Lookahead

namespace RefScript

/-!
# Where a reading fails

A script that cannot be read is rejected at the first token that fits no script:
the tokens before it begin some script, and together with it they begin none.
For what has been read so far is always completed by closing the open bodies, and
a reading that stops at a token would stop there whatever came after it.
-/

open ScriptReader

/-- The tokens begin those of a text that is read as a script. -/
def Viable (tokens : List Token) : Prop :=
  ∃ text scanned commands,
    tokensOf text = .ok scanned ∧ scriptOf text = .ok commands ∧
      tokens <+: scanned.map LocatedToken.token

theorem Viable.of_isPrefix
    {tokens longer : List Token}
    (viable : Viable longer)
    (isPrefix : tokens <+: longer) :
    Viable tokens := by
  obtain ⟨text, scanned, commands, isScanned, isScript, begins⟩ := viable
  exact ⟨text, scanned, commands, isScanned, isScript, isPrefix.trans begins⟩

/-! ## Completing what has been read -/

/-- Tokens that can be written complete the given ones to the lines of some commands. -/
def Completable (tokens : List Token) : Prop :=
  ∃ commands completion,
    (linesOf commands).map Slot.token = tokens ++ completion ∧
      ∀ token ∈ completion, token.IsWritable

theorem Completable.of_append
    {tokens completion : List Token}
    (completable : Completable (tokens ++ completion))
    (writable : ∀ token ∈ completion, token.IsWritable) :
    Completable tokens := by
  obtain ⟨commands, later, same, laterWritable⟩ := completable
  exact ⟨commands, completion ++ later, by rw [same, List.append_assoc],
    List.forall_mem_append.mpr ⟨writable, laterWritable⟩⟩

theorem isWritable_newline : Token.newline.IsWritable :=
  nofun

theorem Opener.isWritable_closer (opener : Opener) : opener.closer.IsWritable := by
  intro _
  cases opener with
  | block | function => exact ⟨_, .closeBrace⟩
  | frame => exact ⟨_, .keyword .endFrame⟩

/-- A body that is closed adds its closing token and a line break. -/
theorem map_token_linesRead_closing
    (innermost : OpenBody) (outer : List OpenBody) (read : List Command) :
    (linesRead outer
        (innermost.opener.command innermost.position read.reverse ::
          innermost.preceding)).map Slot.token =
      (linesRead (innermost :: outer) read).map Slot.token ++
        [innermost.opener.closer] ++ [.newline] := by
  rw [linesRead_closing, List.map_append, List.map_append]
  rfl

/-- The bodies that are open after a line. -/
def ScriptLine.bodiesAfter
    (line : ScriptLine) (position : Position) (enclosing : List OpenBody) (read : List Command) :
    List OpenBody :=
  match line with
  | .whole _ => enclosing
  | .opening opener => ⟨opener, position, read⟩ :: enclosing

/-- The commands that have been read in the innermost body after a line. -/
def ScriptLine.commandsAfter (line : ScriptLine) (read : List Command) : List Command :=
  match line with
  | .whole command => command :: read
  | .opening _ => []

/-- A line that is read adds its tokens and a line break. -/
theorem map_token_linesRead_line
    {line : ScriptLine} {position : Position}
    (startsAt : line.StartsAt position)
    (enclosing : List OpenBody) (read : List Command) :
    (linesRead (line.bodiesAfter position enclosing read) (line.commandsAfter read)).map
        Slot.token =
      (linesRead enclosing read).map Slot.token ++ line.heading ++ [.newline] := by
  cases line with
  | whole command =>
      rw [ScriptLine.bodiesAfter, ScriptLine.commandsAfter, linesRead_cons,
        command.slots_of_isFlat startsAt.1, List.map_append, List.map_append,
        Slot.map_token_line]
      rfl
  | opening opener =>
      rw [ScriptLine.bodiesAfter, ScriptLine.commandsAfter, linesRead_opening, List.map_append,
        List.map_append, Slot.map_token_line]
      rfl

/-- The bodies that are open can be closed. -/
theorem completable_linesRead (enclosing : List OpenBody) (read : List Command) :
    Completable ((linesRead enclosing read).map Slot.token) := by
  induction enclosing generalizing read with
  | nil =>
      exact ⟨read.reverse, [], (List.append_nil _).symm, by simp⟩
  | cons innermost outer inductionHypothesis =>
      have closed := inductionHypothesis
        (innermost.opener.command innermost.position read.reverse :: innermost.preceding)
      rw [map_token_linesRead_closing, List.append_assoc] at closed
      exact closed.of_append (List.forall_mem_cons.mpr
        ⟨innermost.opener.isWritable_closer, by simpa using isWritable_newline⟩)

/-- Tokens whose completion begins a script begin one themselves. -/
theorem Completable.viable
    {tokens : List Token}
    (completable : Completable tokens)
    (writable : ∀ token ∈ tokens, token.IsWritable) :
    Viable tokens := by
  obtain ⟨commands, completion, same, completionWritable⟩ := completable
  have allWritable : ∀ token ∈ (linesOf commands).map Slot.token, token.IsWritable := by
    rw [same]
    exact List.forall_mem_append.mpr ⟨writable, completionWritable⟩
  obtain ⟨text, scanned, placed, isScanned, isScript, sameTokens⟩ :=
    exists_script_of_lines commands allWritable
  refine ⟨text, scanned, placed, isScanned, isScript, ?_⟩
  rw [sameTokens, same, List.append_assoc]
  exact List.prefix_append tokens _

/-! ## The token at which a reading stops -/

/-- The reading stops at a token, and what it has taken before can be completed. -/
def Misfits (enclosing : List OpenBody) (read : List Command) (tokens : List LocatedToken) :
    Prop :=
  ∃ taken found later,
    tokens = taken ++ found :: later ∧
      FailsAt (readRest enclosing read) taken found ∧
      Completable ((linesRead enclosing read).map Slot.token ++ taken.map LocatedToken.token)

theorem Tidy.hasEnd
    {inLine : Bool} {tokens : List LocatedToken}
    (tidy : Tidy inLine tokens) :
    HasEnd tokens := by
  induction tidy with
  | endOfFile isEnd => exact ⟨_, List.mem_singleton_self _, isEnd⟩
  | word _ _ inductionHypothesis | lineBreak _ _ inductionHypothesis =>
      obtain ⟨last, member, isEnd⟩ := inductionHypothesis
      exact ⟨last, List.mem_cons_of_mem _ member, isEnd⟩

section Steps

variable {enclosing : List OpenBody} {read : List Command}
  {first : LocatedToken} {rest following : List LocatedToken} {error : ScriptError}

theorem failsAt_of_endOfFile
    {innermost : OpenBody} {outer : List OpenBody}
    (isEnd : first.token = .endOfFile) :
    FailsAt (readRest (innermost :: outer) read) [] first := by
  intro later
  refine ⟨⟨.unclosed innermost.opener, first.position⟩, first :: later, ?_, rfl⟩
  rw [List.nil_append, readRest]
  simp only [isEnd]
  rfl

/-- A token that closes a body is the last one of its line. -/
theorem misfits_of_endOfLine
    (tidy : Tidy true rest)
    {innermost : OpenBody} {outer : List OpenBody}
    (closes : first.token = innermost.opener.closer)
    (failed : endOfLine rest = .error error following) :
    Misfits (innermost :: outer) read (first :: rest) := by
  obtain ⟨taken, found, later, rfl, stops, _, completion, spelled, writable⟩ :=
    predictive_endOfLine.rejects tidy.hasEnd failed
  refine ⟨first :: taken, found, later, rfl, fun others => ?_, ?_⟩
  · obtain ⟨error, following, stopped, atFound⟩ := stops others
    have isSpelled : first.token.isSpelled = true := by
      rw [closes]
      exact innermost.opener.isSpelled_closer
    refine ⟨error, following, ?_, atFound⟩
    rw [List.cons_append, readRest_word isSpelled]
    simp only [closedBy?, closes, ↓reduceIte, stopped]
  · have closed := completable_linesRead outer
      (innermost.opener.command innermost.position read.reverse :: innermost.preceding)
    rw [map_token_linesRead_closing] at closed
    refine Completable.of_append ?_ writable
    rw [List.append_assoc, List.map_cons, List.cons_append, closes]
    rcases spelled with isEmpty | isLineBreak
    · rw [isEmpty]
      exact closed.of_append (by simpa using isWritable_newline)
    · rw [isLineBreak]
      simpa using closed

/-- A line that cannot be read is rejected at its first token that does not fit. -/
theorem misfits_of_readLine
    (tidy : Tidy true rest)
    (isSpelled : first.token.isSpelled = true)
    (notClosed : closedBy? first.token enclosing = none)
    (failed : readLine first rest = .error error following) :
    Misfits enclosing read (first :: rest) := by
  have failsAt {taken : List LocatedToken} {found : LocatedToken}
      (stops : (readLine first).FailsAt taken found) :
      FailsAt (readRest enclosing read) (first :: taken) found := by
    intro others
    obtain ⟨error, following, stopped, atFound⟩ := stops others
    refine ⟨error, following, ?_, atFound⟩
    rw [List.cons_append, readRest_word isSpelled]
    simp only [notClosed, stopped]
  rcases predictive_readLine first with predictive | unexpected
  · obtain ⟨taken, found, later, rfl, stops, line, completion, ⟨startsAt, spelled⟩, writable⟩ :=
      predictive.rejects tidy.hasEnd failed
    refine ⟨first :: taken, found, later, rfl, failsAt stops, ?_⟩
    have complete := completable_linesRead
      (line.bodiesAfter first.position enclosing read) (line.commandsAfter read)
    rw [map_token_linesRead_line startsAt] at complete
    refine Completable.of_append ?_ writable
    rw [List.append_assoc, List.map_cons, List.cons_append]
    rcases spelled with isHeading | withLineBreak
    · rw [isHeading]
      exact complete.of_append (by simpa using isWritable_newline)
    · rw [withLineBreak, ← List.append_assoc]
      exact complete
  · refine ⟨[], first, rest, rfl, fun others => ?_, ?_⟩
    · refine ⟨⟨.unexpectedToken first.token, first.position⟩, others, ?_, rfl⟩
      rw [List.nil_append, readRest_word isSpelled]
      simp only [notClosed, unexpected]
    · simpa using completable_linesRead enclosing read

/-- A line that is read leaves the failure to what follows it. -/
theorem Misfits.line
    {later : List OpenBody} {next : List Command} {line : List Token}
    {taken ending : List LocatedToken}
    (tidy : Tidy false (taken ++ ending))
    (ended : endOfLine ending = .ok () following)
    (spelled : taken.map LocatedToken.token = line)
    (words : ∀ found ∈ taken, found.token.isSpelled = true)
    (continues : ∀ {ending following}, endOfLine ending = .ok () following →
      readRest enclosing read (taken ++ ending) = readRest later next following)
    (grows : (linesRead later next).map Slot.token =
      (linesRead enclosing read).map Slot.token ++ line ++ [.newline])
    (misfits : Tidy false following → Misfits later next following) :
    Misfits enclosing read (taken ++ ending) := by
  subst spelled
  rcases tidy.after_line words ended with
    ⟨lineBreak, isLineBreak, rfl, tidyFollowing⟩ | ⟨last, isEnd, rfl, rfl⟩
  · obtain ⟨front, found, back, rfl, stops, completable⟩ := misfits tidyFollowing
    refine ⟨taken ++ lineBreak :: front, found, back, by simp, fun others => ?_, ?_⟩
    · obtain ⟨error, following, stopped, atFound⟩ := stops others
      refine ⟨error, following, ?_, atFound⟩
      rw [List.append_assoc, List.cons_append,
        continues (endOfLine_of_lineBreak isLineBreak), stopped]
    · rw [grows] at completable
      simpa [isLineBreak] using completable
  · -- The text ends without the line break that the line would add.
    obtain ⟨front, found, back, split, stops, completable⟩ := misfits (.endOfFile isEnd)
    obtain ⟨rfl, rfl, rfl⟩ : front = [] ∧ found = last ∧ back = [] := by
      simpa [List.singleton_eq_append_iff] using split
    refine ⟨taken, found, [], rfl, fun others => ?_, ?_⟩
    · obtain ⟨error, following, stopped, atFound⟩ := stops others
      exact ⟨error, following, (continues (endOfLine_of_endOfFile isEnd)).trans stopped, atFound⟩
    · rw [grows, List.map_nil, List.append_nil] at completable
      exact completable.of_append (by simpa using isWritable_newline)

/-- Every reading that fails stops at a token that does not fit. -/
theorem misfits_of_readRest
    {tokens : List LocatedToken}
    (tidy : Tidy false tokens)
    (failed : readRest enclosing read tokens = .error error following) :
    Misfits enclosing read tokens := by
  fun_induction readRest enclosing read tokens with
  | case1 =>
      cases tidy
  | case2 enclosing read first rest isLineBreak =>
      cases tidy with
      | word isSpelled => simp [isLineBreak, Token.isSpelled] at isSpelled
      | endOfFile isEnd => simp [isLineBreak] at isEnd
  | case3 enclosing read first rest isEnd =>
      cases enclosing with
      | nil =>
          cases failed
      | cons innermost outer =>
          refine ⟨[], first, rest, rfl, failsAt_of_endOfFile isEnd, ?_⟩
          simpa using completable_linesRead (innermost :: outer) read
  | case4 enclosing read first rest innermost outer _ following ended command _ _ closed
      inductionHypothesis =>
      obtain ⟨rfl, closes⟩ := closedBy?_eq_some closed
      have isSpelled : first.token.isSpelled = true := by
        rw [closes]
        exact innermost.opener.isSpelled_closer
      simp only [command, List.unattach_reverse, List.unattach_attach] at inductionHypothesis failed
      have tidyLine : Tidy false ([first] ++ rest) := tidy
      have spelled : [first].map LocatedToken.token = [innermost.opener.closer] := by
        rw [List.map_singleton, closes]
      exact .line tidyLine ended spelled (by simpa using isSpelled)
        (fun ended => readRest_closing closes ended)
        (map_token_linesRead_closing innermost outer read)
        fun tidyFollowing => inductionHypothesis tidyFollowing failed
  | case5 enclosing read first rest innermost outer _ _ failedEnd _ _ closed =>
      obtain ⟨rfl, closes⟩ := closedBy?_eq_some closed
      have isSpelled : first.token.isSpelled = true := by
        rw [closes]
        exact innermost.opener.isSpelled_closer
      exact misfits_of_endOfLine (tidy.after_word isSpelled) closes failedEnd
  | case6 enclosing read first rest command following isLine _ _ _ inductionHypothesis =>
      obtain ⟨startsAt, taken, ending, rfl, spelled, ended⟩ :=
        exists_heading_of_readLine isLine
      exact .line tidy ended spelled (isSpelled_of_map_eq_heading spelled)
        (fun ended => readRest_whole (readLine_whole startsAt.1 startsAt.2.symm spelled ended))
        (map_token_linesRead_line startsAt enclosing read)
        fun tidyFollowing => inductionHypothesis tidyFollowing failed
  | case7 enclosing read first rest opener following isLine _ _ _ inductionHypothesis =>
      obtain ⟨startsAt, taken, ending, rfl, spelled, ended⟩ := exists_heading_of_readLine isLine
      have startsHere : ScriptLine.StartsAt first.position (.opening opener) := startsAt
      exact .line tidy ended spelled (isSpelled_of_map_eq_heading spelled)
        (fun ended => readRest_opening (readLine_opening spelled ended))
        (map_token_linesRead_line startsHere enclosing read)
        fun tidyFollowing => inductionHypothesis tidyFollowing failed
  | case8 enclosing read first rest _ _ failedLine notNewline notEnd notClosed =>
      have isSpelled : first.token.isSpelled = true := by
        rw [Token.isSpelled, Bool.and_eq_true, decide_eq_true_eq, decide_eq_true_eq]
        exact ⟨notNewline, notEnd⟩
      exact misfits_of_readLine (tidy.after_word isSpelled) isSpelled notClosed failedLine

end Steps

/-! ## Scripts -/

/-- Tokens at which the reading stops begin no text that is read, wherever they stand. -/
theorem not_viable_of_failsAt
    {taken : List LocatedToken} {found : LocatedToken}
    (stops : FailsAt (readRest [] []) taken found) :
    ¬ Viable ((taken ++ [found]).map LocatedToken.token) := by
  rintro ⟨text, scanned, commands, isScanned, isScript, begins⟩
  obtain ⟨rest, sameTokens⟩ := begins
  obtain ⟨front, later, rfl, sameFront, -⟩ := List.map_eq_append_iff.mp sameTokens.symm
  -- The tokens of the other text, with those in front moved to where the reading has stopped.
  have moved :
      ((taken ++ [found]) ++ later).map LocatedToken.token =
        (front ++ later).map LocatedToken.token := by
    rw [List.map_append, ← sameFront, ← List.map_append]
  have spelledBy := ((scriptOf_eq_ok_iff isScanned).mp isScript).spelledBy
  rw [← moved] at spelledBy
  obtain ⟨placed, _, placedBy⟩ := spelledBy.exists_placedBy
  obtain ⟨last, accepted⟩ := placedBy.readRest
  obtain ⟨error, following, stopped, -⟩ := stops later
  rw [List.append_assoc, List.singleton_append, stopped] at accepted
  cases accepted

theorem scriptOf_eq_error_iff
    {text : String} {tokens : List LocatedToken} {error : ScriptError}
    (scanned : tokensOf text = .ok tokens) :
    scriptOf text = .error error ↔ ∃ stopped, readRest [] [] tokens = .error error stopped := by
  simp only [scriptOf, scriptTokens, scanned, Except.mapError, readScript]
  cases readRest [] [] tokens with
  | ok result rest => simp
  | error other rest => simp [eq_comm]

/-- Only the first of the tokens that fit no script has viable tokens before it. -/
theorem le_of_viable_take
    {tokens : List LocatedToken} {index other : Nat}
    (notViable : ¬ Viable ((tokens.take (index + 1)).map LocatedToken.token))
    (viable : Viable ((tokens.take other).map LocatedToken.token)) :
    other ≤ index := by
  by_contra later
  exact notViable (viable.of_isPrefix ((List.take_prefix_take_left (by omega)).map _))

/--
A text that can be scanned but not read as a script is rejected at the first token
that fits no script: the error stands where that token stands, the tokens before it
begin those of some script, and together with it they begin those of none. No other
token of the text is like this.
-/
theorem rejected_at_first_misfit
    {text : String} {tokens : List LocatedToken} {error : ScriptError}
    (scanned : tokensOf text = .ok tokens)
    (rejected : scriptOf text = .error error) :
    ∃! index : Nat, ∃ found,
      tokens[index]? = some found ∧
        error.position = found.position ∧
        Viable ((tokens.take index).map LocatedToken.token) ∧
        ¬ Viable ((tokens.take (index + 1)).map LocatedToken.token) := by
  obtain ⟨stopped, failed⟩ := (scriptOf_eq_error_iff scanned).mp rejected
  obtain ⟨taken, found, later, rfl, stops, completable⟩ :=
    misfits_of_readRest (tidy_of_tokensOf scanned) failed
  have viable : Viable (taken.map LocatedToken.token) := by
    refine completable.viable fun token member => ?_
    obtain ⟨other, isTaken, rfl⟩ := List.mem_map.mp (by simpa [linesRead, linesOf] using member)
    exact isWritable_of_tokensOf scanned other (List.mem_append_left _ isTaken)
  have notViable := not_viable_of_failsAt stops
  obtain ⟨_, _, failed', atFound⟩ := stops later
  rw [failed] at failed'
  cases failed'
  have viableAt :
      Viable (((taken ++ found :: later).take taken.length).map LocatedToken.token) := by
    rwa [List.take_left]
  have notViableAt :
      ¬ Viable (((taken ++ found :: later).take (taken.length + 1)).map LocatedToken.token) := by
    rwa [List.take_append, Nat.add_sub_cancel_left, List.take_of_length_le (Nat.le_succ _),
      List.take_succ_cons, List.take_zero]
  refine ⟨taken.length, ⟨found, by simp, atFound, viableAt, notViableAt⟩, ?_⟩
  · rintro other ⟨_, _, _, otherViable, otherNotViable⟩
    exact Nat.le_antisymm (le_of_viable_take notViableAt otherViable)
      (le_of_viable_take otherNotViable viableAt)

/-- Inside a frame, a line ends before the number that it asks for. -/
theorem missingNumber_rejected_at_lineBreak :
    let text := "begin\nset x\nend"
    let tokens : List LocatedToken :=
      [⟨.keyword .beginFrame, ⟨1, 1⟩⟩, ⟨.newline, ⟨1, 6⟩⟩, ⟨.keyword .set, ⟨2, 1⟩⟩,
        ⟨.identifier "x", ⟨2, 5⟩⟩, ⟨.newline, ⟨2, 6⟩⟩, ⟨.keyword .endFrame, ⟨3, 1⟩⟩,
        ⟨.endOfFile, ⟨3, 4⟩⟩]
    let error : ScriptError := ⟨.literalExpected .newline, ⟨2, 6⟩⟩
    tokensOf text = .ok tokens ∧
      scriptOf text = .error error ∧
      ∃! index : Nat, ∃ found,
        tokens[index]? = some found ∧
          error.position = found.position ∧
          Viable ((tokens.take index).map LocatedToken.token) ∧
          ¬ Viable ((tokens.take (index + 1)).map LocatedToken.token) := by
  intro text tokens error
  have scanned : tokensOf text = .ok tokens := tokensOf_of_toOption (by decide +kernel)
  have rejected : scriptOf text = .error error := by
    refine (scriptOf_eq_error_iff scanned).mpr ⟨tokens.drop 4, ?_⟩
    calc
      readRest [] [] tokens = readRest [⟨.frame, ⟨1, 1⟩, []⟩] [] (tokens.drop 2) :=
        readRest_opening rfl
      _ = .error error (tokens.drop 4) := readRest_word rfl
  exact ⟨scanned, rejected, rejected_at_first_misfit scanned rejected⟩

end RefScript
