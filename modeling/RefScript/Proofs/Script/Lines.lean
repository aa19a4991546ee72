import RefScript.Proofs.Script.Grammar
import RefScript.Proofs.Sequencing
import RefScript.Proofs.Text.Scanning

namespace RefScript

/-!
# Reading a line

A line is read exactly if its tokens are the first line of a command, or the
line that opens a body, and the line ends there.
-/

namespace ScriptReader

variable {α : Type} {tokens following : List LocatedToken}

theorem pure_eq_ok_iff {value result : α} :
    (pure value : ScriptReader α) tokens = .ok result following ↔
      value = result ∧ tokens = following := by
  change EStateM.Result.ok value tokens = .ok result following ↔ _
  rw [EStateM.Result.ok.injEq]

/-- A reader of one token takes the tokens that it asks for, and no others. -/
theorem single_eq_ok_iff
    {reader : ScriptReader α} {value : α}
    (asked : α → Token)
    (takes :
      ∀ value position rest, reader (⟨asked value, position⟩ :: rest) = .ok value rest)
    (rejects :
      (∀ value position rest, tokens ≠ ⟨asked value, position⟩ :: rest) →
        ∃ failure, reader tokens = reject failure tokens) :
    reader tokens = .ok value following ↔
      ∃ found, found.token = asked value ∧ tokens = found :: following := by
  constructor
  · intro read
    by_cases isAsked : ∃ value position rest, tokens = ⟨asked value, position⟩ :: rest
    · obtain ⟨taken, position, rest, rfl⟩ := isAsked
      rw [takes] at read
      cases read
      exact ⟨_, rfl, rfl⟩
    · obtain ⟨failure, rejected⟩ := rejects (by simpa using isAsked)
      rw [rejected] at read
      cases read
  · rintro ⟨⟨_, position⟩, rfl, rfl⟩
    exact takes value position following

theorem identifier_eq_ok_iff {name : String} :
    identifier tokens = .ok name following ↔
      ∃ found, found.token = .identifier name ∧ tokens = found :: following := by
  refine single_eq_ok_iff .identifier (fun _ _ _ => rfl) fun other => ?_
  unfold identifier
  split
  · exact absurd rfl (other _ _ _)
  · exact ⟨_, rfl⟩

theorem literal_eq_ok_iff {value : Word} :
    literal tokens = .ok value following ↔
      ∃ found, found.token = .literal value ∧ tokens = found :: following := by
  refine single_eq_ok_iff .literal (fun _ _ _ => rfl) fun other => ?_
  unfold literal
  split
  · exact absurd rfl (other _ _ _)
  · exact ⟨_, rfl⟩

theorem openBody_eq_ok_iff {function : String} {done : Unit} :
    openBody function tokens = .ok done following ↔
      ∃ found, found.token = .openBrace ∧ tokens = found :: following := by
  refine single_eq_ok_iff (fun _ => .openBrace) (fun _ _ _ => rfl) fun other => ?_
  unfold openBody
  split
  · exact absurd rfl (other () _ _)
  · exact ⟨_, rfl⟩

/-- A line ends with a line break, or with the end of the text, which stays. -/
theorem endOfLine_eq_ok_iff {done : Unit} :
    endOfLine tokens = .ok done following ↔
      (∃ found, found.token = .newline ∧ tokens = found :: following) ∨
        (tokens = following ∧ ∀ next ∈ tokens.head?, next.token = .endOfFile) := by
  unfold endOfLine
  split
  case h_1 =>
    constructor
    · intro ended
      cases ended
      exact Or.inr ⟨rfl, by simp⟩
    · rintro (⟨_, _, impossible⟩ | ⟨rfl, _⟩)
      · cases impossible
      · rfl
  case h_2 =>
    constructor
    · intro ended
      cases ended
      exact Or.inl ⟨_, rfl, rfl⟩
    · rintro (⟨_, _, same⟩ | ⟨_, isEnd⟩)
      · cases same
        rfl
      · cases isEnd _ rfl
  case h_3 =>
    constructor
    · intro ended
      cases ended
      exact Or.inr ⟨rfl, by simp⟩
    · rintro (⟨_, isLineBreak, same⟩ | ⟨rfl, _⟩)
      · cases same
        cases isLineBreak
      · rfl
  case h_4 notEmpty noLineBreak notEnd =>
    refine iff_of_false (by simp [reject]) ?_
    rintro (⟨⟨_, position⟩, rfl, rfl⟩ | ⟨rfl, isEnd⟩)
    · exact noLineBreak _ _ rfl
    · cases tokens with
      | nil => exact notEmpty rfl
      | cons next rest =>
          obtain ⟨token, position⟩ := next
          cases isEnd _ rfl
          exact notEnd _ _ rfl

/-- All names up to the first token that is none are read. -/
theorem identifiers_eq_ok_iff {names : List String} :
    identifiers tokens = .ok names following ↔
      (∀ next ∈ following.head?, ∀ name, next.token ≠ .identifier name) ∧
        ∃ taken, taken.map LocatedToken.token = names.map Token.identifier ∧
          tokens = taken ++ following := by
  constructor
  · intro read
    induction tokens generalizing names with
    | nil =>
        cases read
        exact ⟨by simp, [], rfl, rfl⟩
    | cons first rest inductionHypothesis =>
        unfold identifiers at read
        split at read
        case h_1 same =>
          cases same
          split at read
          case h_1 later =>
            cases read
            obtain ⟨ended, taken, areNames, rfl⟩ := inductionHypothesis later
            exact ⟨ended, _ :: taken, congrArg _ areNames, rfl⟩
          case h_2 =>
            contradiction
        case h_2 notName =>
          cases read
          refine ⟨?_, [], rfl, rfl⟩
          rintro ⟨_, position⟩ isFirst name rfl
          cases isFirst
          exact notName _ _ _ rfl
  · rintro ⟨ended, taken, areNames, rfl⟩
    induction taken generalizing names with
    | nil =>
        cases List.map_eq_nil_iff.mp areNames.symm
        unfold identifiers
        split
        case h_1 name position _ same =>
          exact (ended ⟨.identifier name, position⟩ (congrArg List.head? same) name rfl).elim
        case h_2 => rfl
    | cons first rest inductionHypothesis =>
        obtain ⟨name, others, rfl, isName, areOthers⟩ := List.map_eq_cons_iff.mp areNames.symm
        obtain ⟨_, position⟩ := first
        cases isName
        simp only [List.cons_append, identifiers, inductionHypothesis areOthers.symm]

theorem endOfLine_of_lineBreak
    {found : LocatedToken}
    (isLineBreak : found.token = .newline) :
    endOfLine (found :: following) = .ok () following :=
  endOfLine_eq_ok_iff.mpr (Or.inl ⟨found, isLineBreak, rfl⟩)

theorem endOfLine_of_endOfFile
    {last : LocatedToken}
    (isEnd : last.token = .endOfFile) :
    endOfLine (last :: following) = .ok () (last :: following) :=
  endOfLine_eq_ok_iff.mpr (Or.inr ⟨rfl, by simp [isEnd]⟩)

/-- No name stands where a line ends. -/
theorem noName_of_endOfLine {done : Unit} (ended : endOfLine tokens = .ok done following) :
    ∀ next ∈ tokens.head?, ∀ name, next.token ≠ .identifier name := by
  intro next isNext name isName
  rcases endOfLine_eq_ok_iff.mp ended with ⟨found, isLineBreak, rfl⟩ | ⟨_, isEnd⟩
  · cases isNext
    simp [isName] at isLineBreak
  · have notName := isEnd next isNext
    simp [isName] at notName

end ScriptReader

/-- The tokens of a line. -/
def ScriptLine.heading : ScriptLine → List Token
  | .whole command => command.heading
  | .opening opener => opener.heading

/-- What is read of a line is a command that starts there and has no body, or opens a body. -/
def ScriptLine.StartsAt (position : Position) : ScriptLine → Prop
  | .whole command => command.isFlat = true ∧ command.position = position
  | .opening _ => True

section Lines

open ScriptReader

variable {first : LocatedToken} {tokens taken ending following : List LocatedToken}
  {line : ScriptLine}

/-- A line that is read stands there, and ends after its tokens. -/
theorem exists_heading_of_readLine
    (read : readLine first tokens = .ok line following) :
    line.StartsAt first.position ∧
      ∃ taken ending, tokens = taken ++ ending ∧
        (first :: taken).map LocatedToken.token = line.heading ∧
        endOfLine ending = .ok () following := by
  obtain ⟨token, position⟩ := first
  cases token with
  | keyword reserved =>
      cases reserved with
      | int | ref | new | input | print =>
          simp only [readLine, bind_eq_ok_iff, identifier_eq_ok_iff, pure_eq_ok_iff] at read
          obtain ⟨name, _, ⟨found, isName, rfl⟩, _, _, ended, rfl, rfl⟩ := read
          refine ⟨⟨rfl, rfl⟩, [found], _, rfl, ?_, ended⟩
          simp [ScriptLine.heading, Command.heading, CellKind.keyword, isName]
      | set =>
          simp only [readLine, bind_eq_ok_iff, identifier_eq_ok_iff, literal_eq_ok_iff,
            pure_eq_ok_iff] at read
          obtain ⟨name, _, ⟨found, isName, rfl⟩, value, _, ⟨number, isValue, rfl⟩, _, _,
            ended, rfl, rfl⟩ := read
          refine ⟨⟨rfl, rfl⟩, [found, number], _, rfl, ?_, ended⟩
          simp [ScriptLine.heading, Command.heading, isName, isValue]
      | copy =>
          simp only [readLine, bind_eq_ok_iff, identifier_eq_ok_iff, pure_eq_ok_iff] at read
          obtain ⟨target, _, ⟨first, isTarget, rfl⟩, source, _, ⟨second, isSource, rfl⟩, _, _,
            ended, rfl, rfl⟩ := read
          refine ⟨⟨rfl, rfl⟩, [first, second], _, rfl, ?_, ended⟩
          simp [ScriptLine.heading, Command.heading, isTarget, isSource]
      | call =>
          simp only [readLine, bind_eq_ok_iff, identifier_eq_ok_iff, identifiers_eq_ok_iff,
            pure_eq_ok_iff] at read
          obtain ⟨name, _, ⟨found, isName, rfl⟩, actuals, _, ⟨_, taken, areActuals, rfl⟩, _, _,
            ended, rfl, rfl⟩ := read
          refine ⟨⟨rfl, rfl⟩, found :: taken, _, rfl, ?_, ended⟩
          simp [ScriptLine.heading, Command.heading, isName, areActuals]
      | function =>
          simp only [readLine, bind_eq_ok_iff, identifier_eq_ok_iff, identifiers_eq_ok_iff,
            openBody_eq_ok_iff, pure_eq_ok_iff] at read
          obtain ⟨name, _, ⟨found, isName, rfl⟩, formals, _, ⟨_, taken, areFormals, rfl⟩, _, _,
            ⟨brace, isBrace, rfl⟩, _, _, ended, rfl, rfl⟩ := read
          refine ⟨trivial, found :: taken ++ [brace], _, by simp, ?_, ended⟩
          simp [ScriptLine.heading, Opener.heading, isName, areFormals, isBrace]
      | beginFrame =>
          simp only [readLine, bind_eq_ok_iff, pure_eq_ok_iff] at read
          obtain ⟨_, _, ended, rfl, rfl⟩ := read
          exact ⟨trivial, [], _, rfl, rfl, ended⟩
      | endFrame =>
          cases read
  | openBrace =>
      simp only [readLine, bind_eq_ok_iff, pure_eq_ok_iff] at read
      obtain ⟨_, _, ended, rfl, rfl⟩ := read
      exact ⟨trivial, [], _, rfl, rfl, ended⟩
  | _ =>
      cases read

/-- The tokens of a flat command are read as that command if their line ends there. -/
theorem readLine_whole
    {command : Command}
    (flat : command.isFlat = true)
    (startsAt : first.position = command.position)
    (spelled : (first :: taken).map LocatedToken.token = command.heading)
    (ended : endOfLine ending = .ok () following) :
    readLine first (taken ++ ending) = .ok (.whole command) following := by
  obtain ⟨token, position⟩ := first
  cases startsAt
  cases command with
  | declare kind name position =>
      simp only [Command.heading, List.map_cons, List.cons.injEq, List.map_eq_cons_iff,
        List.map_eq_nil_iff] at spelled
      obtain ⟨rfl, found, _, rfl, isName, rfl⟩ := spelled
      cases kind <;>
        simp only [readLine, CellKind.keyword, bind_eq_ok_iff, identifier_eq_ok_iff,
          pure_eq_ok_iff] <;>
        exact ⟨name, _, ⟨found, isName, rfl⟩, (), _, ended, rfl, rfl⟩
  | allocate name position | input name position | print name position =>
      simp only [Command.heading, List.map_cons, List.cons.injEq, List.map_eq_cons_iff,
        List.map_eq_nil_iff] at spelled
      obtain ⟨rfl, found, _, rfl, isName, rfl⟩ := spelled
      simp only [readLine, bind_eq_ok_iff, identifier_eq_ok_iff, pure_eq_ok_iff]
      exact ⟨name, _, ⟨found, isName, rfl⟩, (), _, ended, rfl, rfl⟩
  | assign name value position =>
      simp only [Command.heading, List.map_cons, List.cons.injEq, List.map_eq_cons_iff,
        List.map_eq_nil_iff] at spelled
      obtain ⟨rfl, found, _, rfl, isName, number, _, rfl, isValue, rfl⟩ := spelled
      simp only [readLine, bind_eq_ok_iff, identifier_eq_ok_iff, literal_eq_ok_iff,
        pure_eq_ok_iff]
      exact ⟨name, _, ⟨found, isName, rfl⟩, value, _, ⟨number, isValue, rfl⟩, (), _, ended,
        rfl, rfl⟩
  | copy target source position =>
      simp only [Command.heading, List.map_cons, List.cons.injEq, List.map_eq_cons_iff,
        List.map_eq_nil_iff] at spelled
      obtain ⟨rfl, first, _, rfl, isTarget, second, _, rfl, isSource, rfl⟩ := spelled
      simp only [readLine, bind_eq_ok_iff, identifier_eq_ok_iff, pure_eq_ok_iff]
      exact ⟨target, _, ⟨first, isTarget, rfl⟩, source, _, ⟨second, isSource, rfl⟩, (), _,
        ended, rfl, rfl⟩
  | call name actuals position =>
      simp only [Command.heading, List.map_cons, List.cons.injEq, List.map_eq_cons_iff]
        at spelled
      obtain ⟨rfl, found, names, rfl, isName, areActuals⟩ := spelled
      simp only [readLine, bind_eq_ok_iff, identifier_eq_ok_iff, identifiers_eq_ok_iff,
        pure_eq_ok_iff]
      exact ⟨name, _, ⟨found, isName, rfl⟩, actuals, _,
        ⟨noName_of_endOfLine ended, names, areActuals, rfl⟩, (), _, ended, rfl, rfl⟩
  | block | frame | function =>
      cases flat

/-- The tokens that open a body are read as that if their line ends there. -/
theorem readLine_opening
    {opener : Opener}
    (spelled : (first :: taken).map LocatedToken.token = opener.heading)
    (ended : endOfLine ending = .ok () following) :
    readLine first (taken ++ ending) = .ok (.opening opener) following := by
  obtain ⟨token, position⟩ := first
  cases opener with
  | block | frame =>
      simp only [Opener.heading, List.map_cons, List.cons.injEq, List.map_eq_nil_iff] at spelled
      obtain ⟨rfl, rfl⟩ := spelled
      simp only [readLine, List.nil_append, bind_eq_ok_iff, pure_eq_ok_iff]
      exact ⟨(), _, ended, trivial, rfl⟩
  | function name formals =>
      simp only [Opener.heading, List.map_cons, List.cons_append, List.cons.injEq,
        List.map_eq_cons_iff, List.map_eq_append_iff, List.map_eq_nil_iff] at spelled
      obtain ⟨rfl, found, _, rfl, isName, names, _, rfl, areFormals, brace, _, rfl, isBrace,
        rfl⟩ := spelled
      simp only [readLine, bind_eq_ok_iff, identifier_eq_ok_iff, identifiers_eq_ok_iff,
        openBody_eq_ok_iff, pure_eq_ok_iff]
      refine ⟨name, _, ⟨found, isName, rfl⟩, formals, brace :: ending,
        ⟨?_, names, areFormals, by simp⟩, (), _, ⟨brace, isBrace, rfl⟩, (), _, ended, rfl, rfl⟩
      simp [isBrace]

theorem ScriptLine.all_isSpelled_heading (line : ScriptLine) :
    line.heading.all Token.isSpelled = true := by
  cases line with
  | whole command =>
      cases command <;>
        simp [ScriptLine.heading, Command.heading, Opener.heading, Token.isSpelled]
  | opening opener =>
      cases opener <;> simp [ScriptLine.heading, Opener.heading, Token.isSpelled]

theorem isSpelled_of_map_eq_heading
    (spelled : tokens.map LocatedToken.token = line.heading) :
    ∀ found ∈ tokens, found.token.isSpelled = true := by
  have all := line.all_isSpelled_heading
  rw [← spelled, List.all_map, List.all_eq_true] at all
  exact all

/-- A line starts with a token that is neither a line break nor the end of the text. -/
theorem isSpelled_of_readLine
    (isLine : readLine first tokens = .ok line following) :
    first.token.isSpelled = true := by
  obtain ⟨_, taken, ending, _, spelled, _⟩ := exists_heading_of_readLine isLine
  exact isSpelled_of_map_eq_heading spelled first List.mem_cons_self

theorem Opener.isSpelled_closer (opener : Opener) : opener.closer.isSpelled = true := by
  cases opener <;> rfl

theorem readLine_ne_closer
    (isLine : readLine first tokens = .ok line following)
    (opener : Opener) :
    first.token ≠ opener.closer := by
  obtain ⟨token, position⟩ := first
  rintro rfl
  cases opener <;> cases isLine

end Lines

/-! ## The lines of a text -/

/--
Tokens with the end of the text after them and no blank lines between them.
Whether a line may end before the first one is up to the tokens before it.
-/
inductive Tidy : (inLine : Bool) → List LocatedToken → Prop where
  | endOfFile {inLine : Bool} {last : LocatedToken}
      (isEnd : last.token = .endOfFile) :
      Tidy inLine [last]
  | word {inLine : Bool} {first : LocatedToken} {rest : List LocatedToken}
      (isSpelled : first.token.isSpelled = true)
      (others : Tidy true rest) :
      Tidy inLine (first :: rest)
  | lineBreak {first : LocatedToken} {rest : List LocatedToken}
      (isLineBreak : first.token = .newline)
      (others : Tidy false rest) :
      Tidy true (first :: rest)

/-- A line break is found only between lexemes and after the last one. -/
theorem Tidy.breakBetween_append
    {characters : List Char} {ended : Option Nat} {start : Nat} {tokens : List LocatedToken}
    (tidy : ∀ inLine, Tidy inLine tokens) :
    Tidy ended.isSome (breakBetween characters ended start ++ tokens) := by
  cases ended with
  | none =>
      exact tidy false
  | some stop =>
      simp only [breakBetween]
      cases firstLineFeed? characters stop start with
      | none => exact tidy true
      | some index => exact .lineBreak rfl (tidy false)

theorem tidy_tokensAfter
    {characters : List Char} {lexemes : List Lexeme}
    (spelled : ∀ lexeme ∈ lexemes, lexeme.token.isSpelled = true)
    (ended : Option Nat) :
    Tidy ended.isSome (tokensAfter characters ended lexemes) := by
  induction lexemes generalizing ended with
  | nil =>
      exact .breakBetween_append fun _ => .endOfFile rfl
  | cons lexeme rest inductionHypothesis =>
      obtain ⟨isSpelled, others⟩ := List.forall_mem_cons.mp spelled
      exact .breakBetween_append fun _ =>
        .word isSpelled (inductionHypothesis others (some lexeme.stop))

/-- A text starts at the beginning of a line, and its tokens leave out blank lines. -/
theorem tidy_of_tokensOf
    {text : String} {tokens : List LocatedToken}
    (scanned : tokensOf text = .ok tokens) :
    Tidy false tokens := by
  obtain ⟨lexemes, lexed, rfl⟩ := exists_lexemes_of_tokensOf scanned
  exact tidy_tokensAfter (fun lexeme member => (lexed.spelled lexeme member).isSpelled) none

theorem Tidy.after_word
    {inLine : Bool} {first : LocatedToken} {rest : List LocatedToken}
    (tidy : Tidy inLine (first :: rest))
    (isSpelled : first.token.isSpelled = true) :
    Tidy true rest := by
  cases tidy with
  | word _ others => exact others
  | lineBreak isLineBreak => simp [isLineBreak, Token.isSpelled] at isSpelled
  | endOfFile isEnd => simp [isEnd, Token.isSpelled] at isSpelled

theorem Tidy.after_words
    {inLine : Bool} {taken ending : List LocatedToken}
    (tidy : Tidy inLine (taken ++ ending))
    (words : ∀ found ∈ taken, found.token.isSpelled = true) :
    ∃ inLine, Tidy inLine ending := by
  induction taken generalizing inLine with
  | nil =>
      exact ⟨inLine, tidy⟩
  | cons first rest inductionHypothesis =>
      obtain ⟨isSpelled, others⟩ := List.forall_mem_cons.mp words
      exact inductionHypothesis (tidy.after_word isSpelled) others

/-- After a line comes the next one, or the end of the text without a line break. -/
theorem Tidy.after_line
    {inLine : Bool} {taken ending following : List LocatedToken}
    (tidy : Tidy inLine (taken ++ ending))
    (words : ∀ found ∈ taken, found.token.isSpelled = true)
    (ended : ScriptReader.endOfLine ending = .ok () following) :
    (∃ found, found.token = .newline ∧ ending = found :: following ∧ Tidy false following) ∨
      ∃ last, last.token = .endOfFile ∧ ending = [last] ∧ following = [last] := by
  obtain ⟨inLine, tidyEnding⟩ := tidy.after_words words
  rcases ScriptReader.endOfLine_eq_ok_iff.mp ended with ⟨found, isLineBreak, rfl⟩ | ⟨rfl, isEnd⟩
  · cases tidyEnding with
    | word isSpelled => simp [isLineBreak, Token.isSpelled] at isSpelled
    | lineBreak _ others => exact Or.inl ⟨found, isLineBreak, rfl, others⟩
    | endOfFile isEnd => simp [isLineBreak] at isEnd
  · cases tidyEnding with
    | word isSpelled => simp [isEnd _ rfl, Token.isSpelled] at isSpelled
    | lineBreak isLineBreak => simp [isEnd _ rfl] at isLineBreak
    | endOfFile isEnd' => exact Or.inr ⟨_, isEnd', rfl, rfl⟩

end RefScript
