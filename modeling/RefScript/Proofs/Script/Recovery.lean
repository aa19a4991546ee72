import RefScript.Proofs.Repetition
import RefScript.Proofs.Script.Reading

namespace RefScript

/-!
# Reading on after an error

A reading that fails leaves the tokens that it has not taken, and the script can be
read on from there. Every such reading ends before the end token of the text, and
does not depend on what might follow that token; a reading that fails has taken a
token, so that the failures come to an end. The measure that all of this rests on
is how many tokens are left before the end.
-/

open ScriptReader

variable {α β : Type} {last first : LocatedToken} {words left : List LocatedToken}

/-! ## Readers before the end token -/

/--
Reading the words before an end token leaves the last ones of them, and the end
token; what follows that is neither looked at nor taken.
-/
structure ReadsBefore
    (last : LocatedToken) (reader : ScriptReader α) (words left : List LocatedToken)
    (outcome : Except ScriptError α) : Prop where
  suffix : left <:+ words
  reads :
    ∀ beyond, reader (words ++ last :: beyond) = leaving (left ++ last :: beyond) outcome

/-- Whatever words are read before the end token, the reader stops there. -/
def KeepsEnd (last : LocatedToken) (reader : ScriptReader α) : Prop :=
  ∀ words, ∃ left outcome, ReadsBefore last reader words left outcome

namespace KeepsEnd

variable {reader : ScriptReader α} {next : α → ScriptReader β}

theorem pure (value : α) : KeepsEnd last (pure value) :=
  fun words => ⟨words, .ok value, List.suffix_rfl, fun _ => rfl⟩

theorem bind
    (firstKeeps : KeepsEnd last reader)
    (nextKeeps : ∀ value, KeepsEnd last (next value)) :
    KeepsEnd last (reader >>= next) := by
  intro words
  obtain ⟨between, outcome, suffix, reads⟩ := firstKeeps words
  cases outcome with
  | error failure =>
      exact ⟨between, .error failure, suffix, fun beyond => bind_of_error (reads beyond)⟩
  | ok value =>
      obtain ⟨left, outcome, suffixLater, readsLater⟩ := nextKeeps value between
      exact ⟨left, outcome, suffixLater.trans suffix, fun beyond =>
        (bind_of_ok (reads beyond)).trans (readsLater beyond)⟩

/-- Whatever follows it, the reader leaves the token. -/
def Leaves (reader : ScriptReader α) (found : LocatedToken) : Prop :=
  ∃ outcome, ∀ rest, reader (found :: rest) = leaving (found :: rest) outcome

theorem Leaves.of_reject
    {found : LocatedToken} (failure : Token → ScriptFailure)
    (rejects : ∀ rest, reader (found :: rest) = reject failure (found :: rest)) :
    Leaves reader found :=
  ⟨.error ⟨failure found.token, found.position⟩, rejects⟩

/-- A reader that takes no more than the next token, and leaves the end token, keeps it. -/
theorem of_single
    (leavesEnd : Leaves reader last)
    (takesOrLeaves :
      ∀ found, (∃ value, ∀ rest, reader (found :: rest) = .ok value rest) ∨ Leaves reader found) :
    KeepsEnd last reader := by
  intro words
  cases words with
  | nil =>
      obtain ⟨outcome, leaves⟩ := leavesEnd
      exact ⟨[], outcome, List.suffix_rfl, leaves⟩
  | cons found rest =>
      rcases takesOrLeaves found with ⟨value, takes⟩ | ⟨outcome, leaves⟩
      · exact ⟨rest, .ok value, List.suffix_cons found rest, fun _ => takes _⟩
      · exact ⟨found :: rest, outcome, List.suffix_rfl, fun _ => leaves _⟩

end KeepsEnd

section Readers

variable (isEnd : last.token = .endOfFile)
include isEnd

theorem keepsEnd_identifier : KeepsEnd last identifier := by
  obtain ⟨_, position⟩ := last
  subst isEnd
  refine .of_single (.of_reject .identifierExpected fun _ => rfl) fun ⟨token, start⟩ => ?_
  cases token with
  | identifier name => exact Or.inl ⟨name, fun _ => rfl⟩
  | _ => exact Or.inr (.of_reject .identifierExpected fun _ => rfl)

theorem keepsEnd_literal : KeepsEnd last literal := by
  obtain ⟨_, position⟩ := last
  subst isEnd
  refine .of_single (.of_reject .literalExpected fun _ => rfl) fun ⟨token, start⟩ => ?_
  cases token with
  | literal value => exact Or.inl ⟨value, fun _ => rfl⟩
  | _ => exact Or.inr (.of_reject .literalExpected fun _ => rfl)

theorem keepsEnd_openBody (function : String) : KeepsEnd last (openBody function) := by
  obtain ⟨_, position⟩ := last
  subst isEnd
  refine .of_single (.of_reject (.bodyExpected function) fun _ => rfl) fun ⟨token, start⟩ => ?_
  cases token with
  | openBrace => exact Or.inl ⟨(), fun _ => rfl⟩
  | _ => exact Or.inr (.of_reject (.bodyExpected function) fun _ => rfl)

/-- The end of the text ends a line without being taken. -/
theorem keepsEnd_endOfLine : KeepsEnd last endOfLine := by
  obtain ⟨_, position⟩ := last
  subst isEnd
  refine .of_single ⟨.ok (), fun _ => rfl⟩ fun ⟨token, start⟩ => ?_
  cases token with
  | newline => exact Or.inl ⟨(), fun _ => rfl⟩
  | endOfFile => exact Or.inr ⟨.ok (), fun _ => rfl⟩
  | _ => exact Or.inr (.of_reject .endOfLineExpected fun _ => rfl)

theorem keepsEnd_identifiers : KeepsEnd last identifiers := by
  obtain ⟨_, position⟩ := last
  subst isEnd
  intro words
  induction words with
  | nil =>
      exact ⟨[], .ok [], List.suffix_rfl, fun _ => rfl⟩
  | cons found rest inductionHypothesis =>
      obtain ⟨token, start⟩ := found
      cases token with
      | identifier name =>
          obtain ⟨left, outcome, suffix, reads⟩ := inductionHypothesis
          refine ⟨left, outcome.map (name :: ·), suffix.trans (List.suffix_cons _ rest),
            fun beyond => ?_⟩
          rw [List.cons_append, identifiers, reads]
          cases outcome <;> rfl
      | _ =>
          exact ⟨_, .ok [], List.suffix_rfl, fun _ => rfl⟩

theorem keepsEnd_readLine (first : LocatedToken) : KeepsEnd last (readLine first) := by
  have named {α : Type} {next : String → ScriptReader α}
      (nextKeeps : ∀ name, KeepsEnd last (next name)) : KeepsEnd last (identifier >>= next) :=
    (keepsEnd_identifier isEnd).bind nextKeeps
  have closed (line : ScriptLine) :
      KeepsEnd last (endOfLine >>= fun _ => (pure line : ScriptReader ScriptLine)) :=
    (keepsEnd_endOfLine isEnd).bind fun _ => .pure line
  unfold readLine
  split
  case h_1 => exact named fun _ => closed _
  case h_2 => exact named fun _ => closed _
  case h_3 => exact named fun _ => closed _
  case h_4 => exact named fun _ => (keepsEnd_literal isEnd).bind fun _ => closed _
  case h_5 => exact named fun _ => named fun _ => closed _
  case h_6 => exact named fun _ => closed _
  case h_7 => exact named fun _ => closed _
  case h_8 => exact named fun _ => (keepsEnd_identifiers isEnd).bind fun _ => closed _
  case h_9 => exact closed _
  case h_10 => exact closed _
  case h_11 =>
    exact named fun name => (keepsEnd_identifiers isEnd).bind fun _ =>
      (keepsEnd_openBody isEnd name).bind fun _ => closed _
  case h_12 =>
    exact fun words => ⟨words, .error _, List.suffix_rfl, fun _ => rfl⟩

end Readers

/-! ## One reading -/

/--
The rest of a script before the end token is read without taking that. The reading
takes all the words, or it fails and has taken some, unless a body was open.
-/
def Recovers
    (last : LocatedToken) (enclosing : List OpenBody) (commands : List Command)
    (words : List LocatedToken) : Prop :=
  ∃ left outcome,
    ReadsBefore last (readRest enclosing commands) words left outcome ∧
      (∀ result, outcome = .ok result → left = []) ∧
      ∀ failure, outcome = .error failure → enclosing = [] → left.length < words.length

section Recovers

variable {enclosing later : List OpenBody} {commands next : List Command}
  {rest following : List LocatedToken}

/-- Taking a token, and maybe more, before a reading that recovers is progress. -/
theorem Recovers.after
    (recovers : Recovers last later next following)
    (suffix : following <:+ rest)
    (continues :
      ∀ beyond,
        readRest enclosing commands (first :: (rest ++ last :: beyond)) =
          readRest later next (following ++ last :: beyond)) :
    Recovers last enclosing commands (first :: rest) := by
  obtain ⟨left, outcome, ⟨suffixLater, reads⟩, finished, -⟩ := recovers
  refine ⟨left, outcome, ⟨?_, fun beyond => (continues beyond).trans (reads beyond)⟩, finished,
    fun _ _ _ => ?_⟩
  · exact (suffixLater.trans suffix).trans (List.suffix_cons first rest)
  · exact Nat.lt_succ_of_le (suffixLater.trans suffix).length_le

/-- So is taking a token before a failure. -/
theorem Recovers.of_failure
    {failure : ScriptError}
    (suffix : left <:+ rest)
    (fails :
      ∀ beyond,
        readRest enclosing commands (first :: (rest ++ last :: beyond)) =
          .error failure (left ++ last :: beyond)) :
    Recovers last enclosing commands (first :: rest) :=
  ⟨left, .error failure, ⟨suffix.trans (List.suffix_cons first rest), fails⟩, nofun,
    fun _ _ _ => Nat.lt_succ_of_le suffix.length_le⟩

theorem recovers_nil
    (isEnd : last.token = .endOfFile) (enclosing : List OpenBody) (commands : List Command) :
    Recovers last enclosing commands [] := by
  have ends (beyond : List LocatedToken) :
      readRest enclosing commands (last :: beyond) =
        endScript enclosing commands (last :: beyond) := by
    rw [readRest]
    simp only [isEnd]
  cases enclosing with
  | nil =>
      refine ⟨[], .ok commands.reverse, ⟨List.suffix_rfl, ends⟩, fun _ _ => rfl, ?_⟩
      intro failure failed
      cases failed
  | cons innermost outer =>
      refine ⟨[], .error ⟨.unclosed innermost.opener, last.position⟩, ⟨List.suffix_rfl, ends⟩,
        ?_, fun _ _ noneOpen => absurd noneOpen (List.cons_ne_nil innermost outer)⟩
      intro result succeeded
      cases succeeded

theorem readRest_lineBreak (isLineBreak : first.token = .newline) :
    readRest enclosing commands (first :: rest) = readRest enclosing commands rest := by
  rw [readRest]
  simp only [isLineBreak]

/-- Reading the rest of a script recovers; the recursion is that of the reading, on what is left. -/
theorem recovers_readRest
    (isEnd : last.token = .endOfFile) (enclosing : List OpenBody) (commands : List Command)
    (words : List LocatedToken) (noEnd : ∀ found ∈ words, found.token ≠ .endOfFile) :
    Recovers last enclosing commands words := by
  match words with
  | [] =>
      exact recovers_nil isEnd enclosing commands
  | first :: rest =>
      obtain ⟨notEnd, others⟩ := List.forall_mem_cons.mp noEnd
      have goesOn
          (later : List OpenBody) (next : List Command) {following : List LocatedToken}
          (suffix : following <:+ rest) : Recovers last later next following :=
        have shorter : following.length < rest.length + 1 := Nat.lt_succ_of_le suffix.length_le
        recovers_readRest isEnd later next following fun found member =>
          others found (suffix.mem member)
      by_cases isLineBreak : first.token = .newline
      · exact (goesOn enclosing commands List.suffix_rfl).after List.suffix_rfl
          fun _ => readRest_lineBreak isLineBreak
      have isSpelled : first.token.isSpelled = true := by
        simp [Token.isSpelled, isLineBreak, notEnd]
      cases closed : closedBy? first.token enclosing with
      | some body =>
          obtain ⟨following, outcome, suffix, ended⟩ := keepsEnd_endOfLine isEnd rest
          let command := body.1.opener.command body.1.position commands.reverse
          cases outcome with
          | ok =>
              refine (goesOn body.2 (command :: body.1.preceding) suffix).after suffix
                fun beyond => ?_
              rw [readRest_word isSpelled, closed, ended]
              rfl
          | error failure =>
              have fails (beyond : List LocatedToken) :
                  readRest enclosing commands (first :: (rest ++ last :: beyond)) =
                    .error failure (following ++ last :: beyond) := by
                rw [readRest_word isSpelled, closed, ended]
                rfl
              exact .of_failure suffix fails
      | none =>
          obtain ⟨following, outcome, suffix, isRead⟩ := keepsEnd_readLine isEnd first rest
          cases outcome with
          | ok line =>
              cases line with
              | whole command =>
                  refine (goesOn enclosing (command :: commands) suffix).after suffix
                    fun beyond => ?_
                  rw [readRest_word isSpelled, closed, isRead]
                  rfl
              | opening opener =>
                  refine (goesOn (⟨opener, first.position, commands⟩ :: enclosing) [] suffix).after
                    suffix fun beyond => ?_
                  rw [readRest_word isSpelled, closed, isRead]
                  rfl
          | error failure =>
              have fails (beyond : List LocatedToken) :
                  readRest enclosing commands (first :: (rest ++ last :: beyond)) =
                    .error failure (following ++ last :: beyond) := by
                rw [readRest_word isSpelled, closed, isRead]
                rfl
              exact .of_failure suffix fails
termination_by words.length

end Recovers

/-! ## Reading again and again -/

/-- The text ends with its last token and no sooner. -/
theorem Tidy.exists_words
    {inLine : Bool} {tokens : List LocatedToken}
    (tidy : Tidy inLine tokens) :
    ∃ words last,
      tokens = words ++ [last] ∧ last.token = .endOfFile ∧
        ∀ found ∈ words, found.token ≠ .endOfFile := by
  induction tidy with
  | endOfFile isEnd =>
      exact ⟨[], _, rfl, isEnd, by simp⟩
  | @word _ first _ isSpelled _ inductionHypothesis =>
      obtain ⟨words, last, rfl, isEnd, noEnd⟩ := inductionHypothesis
      refine ⟨first :: words, last, rfl, isEnd, List.forall_mem_cons.mpr ⟨fun isEnd => ?_, noEnd⟩⟩
      simp [isEnd, Token.isSpelled] at isSpelled
  | @lineBreak first _ isLineBreak _ inductionHypothesis =>
      obtain ⟨words, last, rfl, isEnd, noEnd⟩ := inductionHypothesis
      exact ⟨first :: words, last, rfl, isEnd,
        List.forall_mem_cons.mpr ⟨by simp [isLineBreak], noEnd⟩⟩

/--
A reading of a script, made when `words` are left before the end token, leaves
`left` before it: none if it succeeds, and fewer than before if it fails.
-/
structure ReadsScript
    (last : LocatedToken) (words left : List LocatedToken)
    (outcome : Except ScriptError (List Command)) : Prop
    extends ReadsBefore last readScript words left outcome where
  finished : ∀ commands, outcome = .ok commands → left = []
  shorter : ∀ failure, outcome = .error failure → left.length < words.length

section Repeated

variable (isEnd : last.token = .endOfFile) (noEnd : ∀ found ∈ words, found.token ≠ .endOfFile)
include isEnd

/-- At the end token an empty script is read, and the token is left. -/
theorem readScript_end : readScript [last] = .ok [] [last] := by
  rw [readScript, readRest_endOfFile isEnd]
  rfl

include noEnd

theorem exists_readsScript : ∃ left outcome, ReadsScript last words left outcome := by
  obtain ⟨left, outcome, reads, finished, shorter⟩ := recovers_readRest isEnd [] [] words noEnd
  exact ⟨left, outcome, reads, finished, fun failure failed => shorter failure failed rfl⟩

/-- However often a script has been read, some of the words are left, and the end token. -/
theorem exists_words_left (calls : Nat) :
    ∃ left, left <:+ words ∧ afterCalls readScript (words ++ [last]) calls = left ++ [last] := by
  induction calls with
  | zero =>
      exact ⟨words, List.suffix_rfl, rfl⟩
  | succ calls inductionHypothesis =>
      obtain ⟨between, suffix, same⟩ := inductionHypothesis
      obtain ⟨left, outcome, reads⟩ :=
        exists_readsScript isEnd fun found member => noEnd found (suffix.mem member)
      refine ⟨left, reads.suffix.trans suffix, ?_⟩
      rw [afterCalls, same, reads.reads, leftBy_leaving]

/-- What a reading finds and leaves when scripts are read again and again. -/
theorem exists_reading (calls : Nat) :
    ∃ before left outcome,
      afterCalls readScript (words ++ [last]) calls = before ++ [last] ∧
        afterCalls readScript (words ++ [last]) (calls + 1) = left ++ [last] ∧
          outcomeOf (readScript (before ++ [last])) = outcome ∧
            ReadsScript last before left outcome := by
  obtain ⟨before, suffix, same⟩ := exists_words_left isEnd noEnd calls
  obtain ⟨left, outcome, reads⟩ :=
    exists_readsScript isEnd fun found member => noEnd found (suffix.mem member)
  refine ⟨before, left, outcome, same, ?_, ?_, reads⟩
  · rw [afterCalls, same, reads.reads, leftBy_leaving]
  · rw [reads.reads, outcomeOf_leaving]

/-- A reading that fails leaves fewer tokens before the last one than there were. -/
theorem failuresShrink_readScript :
    FailuresShrink readScript (words ++ [last]) fun tokens => tokens.length - 1 := by
  intro calls failure failed
  obtain ⟨before, left, outcome, same, sameLater, isOutcome, reads⟩ :=
    exists_reading isEnd noEnd calls
  rw [same, isOutcome] at failed
  simpa [same, sameLater] using reads.shorter failure failed

/-- After a reading that succeeds, the end token is all that is left. -/
theorem afterCalls_of_success
    {calls later : Nat} {commands : List Command}
    (succeeded :
      outcomeOf (readScript (afterCalls readScript (words ++ [last]) calls)) = .ok commands)
    (isLater : calls < later) :
    afterCalls readScript (words ++ [last]) later = [last] := by
  obtain ⟨before, left, outcome, same, sameLater, isOutcome, reads⟩ :=
    exists_reading isEnd noEnd calls
  rw [same, isOutcome] at succeeded
  rw [reads.finished commands succeeded, List.nil_append] at sameLater
  have unchanged := congrArg leftBy (readScript_end isEnd)
  exact afterCalls_of_unchanged unchanged sameLater (Nat.succ_le_of_lt isLater)

end Repeated

/--
A script can be read again and again from the tokens of a text, each time from where
the reading before has stopped. Every reading starts and stops at a token of the text,
at the end token at the latest, and does not depend on what might follow that token;
if it fails, it has taken a token. So fewer readings fail than there are tokens, and
one succeeds after them. All later ones read an empty script and take nothing.
-/
theorem readings_recover
    {text : String} {tokens : List LocatedToken}
    (scanned : tokensOf text = .ok tokens) :
    (∀ calls,
      (∃ position < tokens.length,
        afterCalls readScript tokens calls = tokens.drop position) ∧
      (∀ beyond,
        readScript (afterCalls readScript tokens calls ++ beyond) =
          leaving (afterCalls readScript tokens (calls + 1) ++ beyond)
            (outcomeOf (readScript (afterCalls readScript tokens calls)))) ∧
      ∀ failure,
        outcomeOf (readScript (afterCalls readScript tokens calls)) = .error failure →
          (afterCalls readScript tokens (calls + 1)).length <
            (afterCalls readScript tokens calls).length) ∧
    ∃ failures < tokens.length,
      FirstSucceedsAfter readScript tokens failures ∧
        ∀ calls > failures,
          readScript (afterCalls readScript tokens calls) =
            .ok [] (afterCalls readScript tokens calls) := by
  obtain ⟨words, last, rfl, isEnd, noEnd⟩ := (tidy_of_tokensOf scanned).exists_words
  refine ⟨fun calls => ?_, ?_⟩
  · obtain ⟨_, ⟨taken, split⟩, isBefore⟩ := exists_words_left isEnd noEnd calls
    obtain ⟨before, left, outcome, same, sameLater, isOutcome, reads⟩ :=
      exists_reading isEnd noEnd calls
    refine ⟨⟨taken.length, by simp [← split], ?_⟩, fun beyond => ?_, fun failure failed => ?_⟩
    · rw [isBefore, ← split, List.append_assoc, List.drop_left]
    · rw [same, sameLater, isOutcome, List.append_assoc, List.append_assoc]
      exact reads.reads beyond
    · rw [same, isOutcome] at failed
      simpa [same, sameLater] using reads.shorter failure failed
  · obtain ⟨failures, bounded, first⟩ :=
      exists_firstSucceedsAfter (failuresShrink_readScript isEnd noEnd)
    have inText : failures < (words ++ [last]).length := by
      rw [List.length_append, List.length_singleton] at bounded ⊢
      omega
    refine ⟨failures, inText, first, fun calls isLater => ?_⟩
    obtain ⟨commands, succeeded⟩ := first.2
    rw [afterCalls_of_success isEnd noEnd succeeded isLater, readScript_end isEnd]

/-- A name is missing, a brace closes nothing, and a block is never closed. -/
theorem damagedScript_recovers :
    let text := "int 5\n\x7d\n\x7b\nprint x"
    let tokens : List LocatedToken :=
      [⟨.keyword .int, ⟨1, 1⟩⟩, ⟨.literal 5, ⟨1, 5⟩⟩, ⟨.newline, ⟨1, 6⟩⟩,
        ⟨.closeBrace, ⟨2, 1⟩⟩, ⟨.newline, ⟨2, 2⟩⟩, ⟨.openBrace, ⟨3, 1⟩⟩, ⟨.newline, ⟨3, 2⟩⟩,
        ⟨.keyword .print, ⟨4, 1⟩⟩, ⟨.identifier "x", ⟨4, 7⟩⟩, ⟨.endOfFile, ⟨4, 8⟩⟩]
    tokensOf text = .ok tokens ∧
      readScript tokens = .error ⟨.identifierExpected (.literal 5), ⟨1, 5⟩⟩ (tokens.drop 1) ∧
        ∃ failures < 10, FirstSucceedsAfter readScript tokens failures := by
  intro text tokens
  have scanned : tokensOf text = .ok tokens := tokensOf_of_toOption (by decide +kernel)
  obtain ⟨failures, fewer, first, -⟩ := (readings_recover scanned).2
  refine ⟨scanned, ?_, failures, fewer, first⟩
  rw [readScript, readRest_word rfl]
  rfl

end RefScript
