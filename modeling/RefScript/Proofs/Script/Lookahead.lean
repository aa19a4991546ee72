import RefScript.Proofs.Script.Writing

namespace RefScript

/-!
# Reading with one token of lookahead

A reader decides by the next token alone. What it accepts, it would accept before
any other tokens that start alike; and where it fails, no token that could stand
there would have made it fail. The first fact is about the tokens that are left,
the second one about those that have been taken: they can be completed to what
the reader asks for. Both pass from readers to their sequences.
-/

namespace ScriptReader

/-- The end of the text is among the tokens. -/
def HasEnd (tokens : List LocatedToken) : Prop :=
  ∃ last ∈ tokens, last.token = .endOfFile

/-- The reader takes some tokens and fails at the next one, whatever comes after that. -/
def FailsAt {α : Type}
    (reader : ScriptReader α) (taken : List LocatedToken) (found : LocatedToken) : Prop :=
  ∀ later, ∃ error following,
    reader (taken ++ found :: later) = .error error following ∧ error.position = found.position

/-- The reader asks for the tokens that spell a value, and looks one token ahead. -/
structure Predictive {α : Type}
    (reader : ScriptReader α) (spells : α → List Token → Prop) : Prop where
  /-- There is something to read. -/
  inhabited : ∃ value tokens, spells value tokens ∧ ∀ token ∈ tokens, token.IsWritable
  /-- What is taken spells the value; of the rest only the first token counts. -/
  accepts :
    ∀ {tokens following : List LocatedToken} {value : α},
      reader tokens = .ok value following →
        ∃ taken, tokens = taken ++ following ∧
          spells value (taken.map LocatedToken.token) ∧
          (∀ found ∈ taken, found.token ≠ .endOfFile) ∧
          ∀ others : List LocatedToken, others.head? = following.head? →
            reader (taken ++ others) = .ok value others
  /-- What is taken before a failure can be completed. -/
  rejects :
    ∀ {tokens following : List LocatedToken} {error : ScriptError},
      HasEnd tokens → reader tokens = .error error following →
        ∃ taken found later, tokens = taken ++ found :: later ∧
          reader.FailsAt taken found ∧
          ∃ value completion,
            spells value (taken.map LocatedToken.token ++ completion) ∧
              ∀ token ∈ completion, token.IsWritable

theorem HasEnd.of_append
    {taken following : List LocatedToken}
    (hasEnd : HasEnd (taken ++ following))
    (notTaken : ∀ found ∈ taken, found.token ≠ .endOfFile) :
    HasEnd following := by
  obtain ⟨last, member, isEnd⟩ := hasEnd
  rcases List.mem_append.mp member with inTaken | inRest
  · exact (notTaken last inTaken isEnd).elim
  · exact ⟨last, inRest, isEnd⟩

namespace Predictive

variable {α β : Type} {reader : ScriptReader α} {spells spells' : α → List Token → Prop}

/-- Nothing is taken. -/
theorem pure (value : α) :
    Predictive (pure value) fun result tokens => result = value ∧ tokens = [] where
  inhabited := ⟨value, [], ⟨rfl, rfl⟩, by simp⟩
  accepts read := by
    cases read
    exact ⟨[], rfl, ⟨rfl, rfl⟩, by simp, fun others _ => rfl⟩
  rejects _ failed := by
    cases failed

/-- What one reader leaves is read by the next one. -/
theorem bind
    {next : α → ScriptReader β} {spellsNext : α → β → List Token → Prop}
    (first : Predictive reader spells)
    (second : ∀ value, Predictive (next value) (spellsNext value)) :
    Predictive (reader >>= next) fun result tokens =>
      ∃ value front back, spells value front ∧ spellsNext value result back ∧
        tokens = front ++ back where
  inhabited := by
    obtain ⟨value, front, isFront, frontWritable⟩ := first.inhabited
    obtain ⟨result, back, isBack, backWritable⟩ := (second value).inhabited
    exact ⟨result, front ++ back, ⟨value, front, back, isFront, isBack, rfl⟩,
      List.forall_mem_append.mpr ⟨frontWritable, backWritable⟩⟩
  accepts {tokens following result} read := by
    obtain ⟨value, between, readFirst, readSecond⟩ := bind_eq_ok_iff.mp read
    obtain ⟨front, rfl, isFront, frontInside, frontAgain⟩ := first.accepts readFirst
    obtain ⟨back, rfl, isBack, backInside, backAgain⟩ := (second value).accepts readSecond
    refine ⟨front ++ back, (List.append_assoc ..).symm, ⟨value, _, _, isFront, isBack, by simp⟩,
      List.forall_mem_append.mpr ⟨frontInside, backInside⟩, fun others sameHead => ?_⟩
    have sameNext : (back ++ others).head? = (back ++ following).head? := by
      rw [List.head?_append, List.head?_append, sameHead]
    rw [List.append_assoc]
    exact bind_eq_ok_iff.mpr ⟨value, _, frontAgain _ sameNext, backAgain others sameHead⟩
  rejects {tokens following error} hasEnd failed := by
    rcases bind_eq_error_iff.mp failed with failedFirst | ⟨value, between, readFirst, failedSecond⟩
    · obtain ⟨taken, found, later, rfl, stops, value, completion, isFront, writable⟩ :=
        first.rejects hasEnd failedFirst
      -- The completion goes on with something for the second reader.
      obtain ⟨result, back, isBack, backWritable⟩ := (second value).inhabited
      refine ⟨taken, found, later, rfl, fun others => ?_, result, completion ++ back,
        ⟨value, _, back, isFront, isBack, (List.append_assoc ..).symm⟩,
        List.forall_mem_append.mpr ⟨writable, backWritable⟩⟩
      obtain ⟨error, following, stopped, atFound⟩ := stops others
      exact ⟨error, following, bind_eq_error_iff.mpr (Or.inl stopped), atFound⟩
    · obtain ⟨front, rfl, isFront, frontInside, frontAgain⟩ := first.accepts readFirst
      obtain ⟨taken, found, later, rfl, stops, result, completion, isBack, writable⟩ :=
        (second value).rejects (hasEnd.of_append frontInside) failedSecond
      refine ⟨front ++ taken, found, later, (List.append_assoc ..).symm, fun others => ?_,
        result, completion, ⟨value, _, _, isFront, isBack, by simp⟩, writable⟩
      obtain ⟨error, following, stopped, atFound⟩ := stops others
      have sameNext :
          (taken ++ found :: others).head? = (taken ++ found :: later).head? := by
        rw [List.head?_append, List.head?_append, List.head?_cons, List.head?_cons]
      refine ⟨error, following, ?_, atFound⟩
      rw [List.append_assoc]
      exact bind_eq_error_iff.mpr (Or.inr ⟨value, _, frontAgain _ sameNext, stopped⟩)

/-- The same tokens can be described in another way. -/
theorem imp
    (predictive : Predictive reader spells)
    (describes : ∀ value tokens, spells value tokens → spells' value tokens) :
    Predictive reader spells' where
  inhabited := by
    obtain ⟨value, tokens, isSpelled, writable⟩ := predictive.inhabited
    exact ⟨value, tokens, describes _ _ isSpelled, writable⟩
  accepts read := by
    obtain ⟨taken, split, isSpelled, again⟩ := predictive.accepts read
    exact ⟨taken, split, describes _ _ isSpelled, again⟩
  rejects hasEnd failed := by
    obtain ⟨taken, found, later, split, stops, value, completion, isSpelled, writable⟩ :=
      predictive.rejects hasEnd failed
    exact ⟨taken, found, later, split, stops, value, completion, describes _ _ isSpelled,
      writable⟩

/-- What a reader of fixed tokens leaves is read by the next one. -/
theorem followedBy
    {shape : α → List Token} {next : α → ScriptReader β} {spellsAll : β → List Token → Prop}
    (first : Predictive reader fun value tokens => tokens = shape value)
    (second : ∀ value, Predictive (next value) fun result tokens =>
      spellsAll result (shape value ++ tokens)) :
    Predictive (reader >>= next) spellsAll := by
  refine (first.bind second).imp ?_
  rintro result _ ⟨value, _, back, rfl, isSpelled, rfl⟩
  exact isSpelled

/-- A reader of one token asks for that token. -/
theorem single
    {asked : α → Token} (sample : α)
    (writable : (asked sample).IsWritable)
    (inside : ∀ value, asked value ≠ .endOfFile)
    (accepted :
      ∀ {tokens following value},
        reader tokens = .ok value following ↔
          ∃ found, found.token = asked value ∧ tokens = found :: following)
    (rejected :
      ∀ {tokens following error},
        reader tokens = .error error following →
          ∃ failure : Token → ScriptFailure, reader tokens = reject failure tokens) :
    Predictive reader fun value tokens => tokens = [asked value] where
  inhabited := ⟨sample, _, rfl, by simpa using writable⟩
  accepts {tokens following value} read := by
    obtain ⟨found, isAsked, rfl⟩ := accepted.mp read
    exact ⟨[found], rfl, by simp [isAsked], by simp [isAsked, inside],
      fun others _ => accepted.mpr ⟨found, isAsked, rfl⟩⟩
  rejects {tokens following error} hasEnd failed := by
    cases tokens with
    | nil =>
        obtain ⟨_, impossible, _⟩ := hasEnd
        cases impossible
    | cons found later =>
        refine ⟨[], found, later, rfl, fun others => ?_, sample, _, rfl, by simpa using writable⟩
        cases again : reader (found :: others) with
        | ok value rest =>
            -- The same token would have been taken here.
            obtain ⟨_, isAsked, same⟩ := accepted.mp again
            cases same
            rw [accepted.mpr ⟨found, isAsked, rfl⟩] at failed
            cases failed
        | error error rest =>
            obtain ⟨failure, isReject⟩ := rejected again
            refine ⟨error, rest, again, ?_⟩
            rw [again] at isReject
            cases isReject
            rfl

end Predictive

/-! ## The readers -/

theorem isWritable_x : (Token.identifier "x").IsWritable := by
  intro _
  refine ⟨['x'], .identifier rfl (by simp) fun reserved => ?_⟩
  cases reserved <;> decide

theorem isWritable_zero : (Token.literal 0).IsWritable := by
  intro _
  exact ⟨['0'], .natural (by simp) (List.forall_mem_singleton.mpr rfl) (by decide)⟩

theorem predictive_identifier :
    Predictive identifier fun name tokens => tokens = [.identifier name] := by
  refine .single "x" isWritable_x nofun identifier_eq_ok_iff fun {tokens _ _} failed => ?_
  unfold identifier at failed ⊢
  split at failed
  · cases failed
  · exact ⟨.identifierExpected, rfl⟩

theorem predictive_literal :
    Predictive literal fun value tokens => tokens = [.literal value] := by
  refine .single 0 isWritable_zero nofun literal_eq_ok_iff fun {tokens _ _} failed => ?_
  unfold literal at failed ⊢
  split at failed
  · cases failed
  · exact ⟨.literalExpected, rfl⟩

theorem predictive_openBody (function : String) :
    Predictive (openBody function) fun _ tokens => tokens = [.openBrace] := by
  refine .single () (fun _ => ⟨_, .openBrace⟩) nofun openBody_eq_ok_iff
    fun {tokens _ _} failed => ?_
  unfold openBody at failed ⊢
  split at failed
  · cases failed
  · exact ⟨.bodyExpected function, rfl⟩

/-- Names are read up to the first token that is none; this never fails. -/
theorem identifiers_ne_error
    (tokens following : List LocatedToken) (error : ScriptError) :
    identifiers tokens ≠ .error error following := by
  induction tokens generalizing following error with
  | nil =>
      nofun
  | cons first rest inductionHypothesis =>
      intro failed
      unfold identifiers at failed
      split at failed
      case h_1 same =>
        cases same
        split at failed
        case h_1 => cases failed
        case h_2 later => exact inductionHypothesis _ _ later
      case h_2 => cases failed

theorem predictive_identifiers :
    Predictive identifiers fun names tokens => tokens = names.map .identifier where
  inhabited := ⟨[], _, rfl, by simp⟩
  accepts {tokens following names} read := by
    obtain ⟨ended, taken, areNames, rfl⟩ := identifiers_eq_ok_iff.mp read
    refine ⟨taken, rfl, areNames, fun found member isEnd => ?_, fun others sameHead => ?_⟩
    · have inNames : found.token ∈ taken.map LocatedToken.token := List.mem_map_of_mem member
      rw [areNames, isEnd] at inNames
      simp at inNames
    · exact identifiers_eq_ok_iff.mpr ⟨sameHead ▸ ended, taken, areNames, rfl⟩
  rejects _ failed := (identifiers_ne_error _ _ _ failed).elim

/-- A line ends with a line break, or before the end of the text. -/
theorem predictive_endOfLine :
    Predictive endOfLine fun _ tokens => tokens = [] ∨ tokens = [.newline] where
  inhabited := ⟨(), [], Or.inl rfl, by simp⟩
  accepts {tokens following value} read := by
    rcases endOfLine_eq_ok_iff.mp read with ⟨found, isLineBreak, rfl⟩ | ⟨rfl, isEnd⟩
    · exact ⟨[found], rfl, Or.inr (by simp [isLineBreak]), by simp [isLineBreak],
        fun others _ => endOfLine_of_lineBreak isLineBreak⟩
    · exact ⟨[], rfl, Or.inl rfl, by simp, fun others sameHead =>
        endOfLine_eq_ok_iff.mpr (Or.inr ⟨rfl, sameHead ▸ isEnd⟩)⟩
  rejects {tokens following error} hasEnd failed := by
    cases tokens with
    | nil =>
        obtain ⟨_, impossible, _⟩ := hasEnd
        cases impossible
    | cons found later =>
        refine ⟨[], found, later, rfl, fun others => ?_, (), [], Or.inl rfl, by simp⟩
        obtain ⟨token, position⟩ := found
        cases token with
        | newline | endOfFile => cases failed
        | _ => exact ⟨_, _, rfl, rfl⟩

end ScriptReader

/-! ## Lines -/

open ScriptReader

/-- The tokens after the first one of a line, with the line break if there is one. -/
def ScriptLine.FollowedBy (line : ScriptLine) (first : LocatedToken) (tokens : List Token) :
    Prop :=
  line.StartsAt first.position ∧
    (first.token :: tokens = line.heading ∨ first.token :: tokens = line.heading ++ [.newline])

/-- A line that goes on with the given tokens ends after them. -/
theorem predictive_ended
    {first : LocatedToken} (line : ScriptLine) (tokens : List Token)
    (startsAt : line.StartsAt first.position)
    (isHeading : first.token :: tokens = line.heading) :
    Predictive (do endOfLine; return line) fun result ending =>
      result.FollowedBy first (tokens ++ ending) := by
  refine (predictive_endOfLine.bind fun _ => .pure line).imp fun result ending isEnding => ?_
  obtain ⟨_, _, _, lineBreak, ⟨rfl, rfl⟩, rfl⟩ := isEnding
  refine ⟨startsAt, lineBreak.imp ?_ ?_⟩
  · rintro rfl
    simpa using isHeading
  · rintro rfl
    simp [← isHeading]

/-- A line that goes on with a name ends after it. -/
theorem predictive_named
    {first : LocatedToken} (line : String → ScriptLine)
    (startsAt : ∀ name, (line name).StartsAt first.position)
    (isHeading : ∀ name, [first.token, .identifier name] = (line name).heading) :
    Predictive (do let name ← identifier; endOfLine; return line name) fun result tokens =>
      result.FollowedBy first tokens :=
  predictive_identifier.followedBy fun name =>
    predictive_ended (line name) [.identifier name] (startsAt name) (isHeading name)

/-- A line is read with one token of lookahead, unless its first token starts none. -/
theorem predictive_readLine (first : LocatedToken) :
    Predictive (readLine first) (fun line tokens => line.FollowedBy first tokens) ∨
      ∀ tokens, readLine first tokens =
        .error ⟨.unexpectedToken first.token, first.position⟩ tokens := by
  obtain ⟨token, position⟩ := first
  cases token with
  | keyword reserved =>
      cases reserved with
      | int =>
          exact Or.inl (predictive_named (fun name => .whole (.declare .int name position))
            (fun _ => ⟨rfl, rfl⟩) fun _ => rfl)
      | ref =>
          exact Or.inl (predictive_named (fun name => .whole (.declare .ref name position))
            (fun _ => ⟨rfl, rfl⟩) fun _ => rfl)
      | new =>
          exact Or.inl (predictive_named (fun name => .whole (.allocate name position))
            (fun _ => ⟨rfl, rfl⟩) fun _ => rfl)
      | set =>
          exact Or.inl <| predictive_identifier.followedBy fun name =>
            predictive_literal.followedBy fun value =>
              predictive_ended (.whole (.assign name value position))
                [.identifier name, .literal value] ⟨rfl, rfl⟩ rfl
      | copy =>
          exact Or.inl <| predictive_identifier.followedBy fun target =>
            predictive_identifier.followedBy fun source =>
              predictive_ended (.whole (.copy target source position))
                [.identifier target, .identifier source] ⟨rfl, rfl⟩ rfl
      | input =>
          exact Or.inl (predictive_named (fun name => .whole (.input name position))
            (fun _ => ⟨rfl, rfl⟩) fun _ => rfl)
      | print =>
          exact Or.inl (predictive_named (fun name => .whole (.print name position))
            (fun _ => ⟨rfl, rfl⟩) fun _ => rfl)
      | call =>
          exact Or.inl <| predictive_identifier.followedBy fun name =>
            predictive_identifiers.followedBy fun actuals =>
              predictive_ended (.whole (.call name actuals position))
                (.identifier name :: actuals.map .identifier) ⟨rfl, rfl⟩ rfl
      | function =>
          refine Or.inl <| predictive_identifier.followedBy fun name =>
            predictive_identifiers.followedBy fun formals =>
              (predictive_openBody name).followedBy fun _ => ?_
          have ended :=
            @predictive_ended ⟨.keyword .function, position⟩ (.opening (.function name formals))
              (.identifier name :: formals.map .identifier ++ [.openBrace]) trivial rfl
          simpa using ended
      | beginFrame =>
          exact Or.inl (predictive_ended (.opening .frame) [] trivial rfl)
      | endFrame =>
          exact Or.inr fun _ => rfl
  | openBrace =>
      exact Or.inl (predictive_ended (.opening .block) [] trivial rfl)
  | _ =>
      exact Or.inr fun _ => rfl

end RefScript
