import RefScript.Proofs.Script.Joining
import RefScript.Proofs.Text.Tidying

namespace RefScript

/-!
# Reading tidy texts

The position of a line break, or of the end of a text, is no part of a script or of
the data that a text holds, for no command starts there. So a tidy text is read like
the text that it comes from.
-/

variable {ended : Position → Position → Prop}

/-! ## Scripts -/

/-- If a command has to start at the slot, then the slot asks for a spelled token. -/
def Slot.StartsSpelled (slot : Slot) : Prop :=
  slot.start?.isSome = true → slot.token.isSpelled = true

theorem Slot.startsSpelled_inner (token : Token) : (Slot.inner token).StartsSpelled :=
  nofun

theorem Slot.startsSpelled_line
    {tokens : List Token} (spelled : ∀ first ∈ tokens.head?, first.isSpelled = true)
    (position : Position) :
    ∀ slot ∈ Slot.line position tokens, slot.StartsSpelled := by
  cases tokens with
  | nil =>
      simp [Slot.line]
  | cons first rest =>
      refine List.forall_mem_cons.mpr ⟨fun _ => spelled first rfl, fun slot member => ?_⟩
      obtain ⟨token, _, rfl⟩ := List.mem_map.mp member
      exact startsSpelled_inner token

theorem Command.isSpelled_heading (command : Command) :
    ∀ first ∈ command.heading.head?, first.isSpelled = true := by
  cases command <;> simp [Command.heading, Opener.heading, Token.isSpelled]

theorem Slot.startsSpelled_body
    {lines : List Slot} (startsSpelled : ∀ slot ∈ lines, slot.StartsSpelled) (closer : Token) :
    ∀ slot ∈ Slot.body lines closer, slot.StartsSpelled := by
  rw [Slot.body, List.cons_append, List.forall_mem_cons, List.forall_mem_append,
    List.forall_mem_singleton]
  exact ⟨startsSpelled_inner _, startsSpelled, startsSpelled_inner closer⟩

mutual

theorem Command.startsSpelled_bodySlots (command : Command) :
    ∀ slot ∈ command.bodySlots, slot.StartsSpelled := by
  cases command with
  | block body position => exact Slot.startsSpelled_body (startsSpelled_linesOf body) _
  | frame body position => exact Slot.startsSpelled_body (startsSpelled_linesOf body) _
  | function name formals body position =>
      exact Slot.startsSpelled_body (startsSpelled_linesOf body) _
  | _ => simp [Command.bodySlots]

theorem startsSpelled_linesOf (commands : List Command) :
    ∀ slot ∈ linesOf commands, slot.StartsSpelled := by
  cases commands with
  | nil =>
      simp [linesOf]
  | cons command rest =>
      rw [linesOf, List.forall_mem_append, List.forall_mem_append, List.forall_mem_cons]
      exact ⟨⟨Slot.startsSpelled_line command.isSpelled_heading _, command.startsSpelled_bodySlots⟩,
        Slot.startsSpelled_inner _, startsSpelled_linesOf rest⟩

end

theorem SameToken.symm
    {found found' : LocatedToken} (same : SameToken Eq ended found found') :
    SameToken Eq (fun position position' => ended position' position) found' found where
  token := same.token.symm
  position := same.position.imp Eq.symm fun isEnded => ⟨same.token ▸ isEnded.1, isEnded.2⟩

theorem SameToken.position_eq
    {found found' : LocatedToken} (same : SameToken Eq ended found found')
    (isSpelled : found.token.isSpelled = true) : found'.position = found.position := by
  rcases same.position with samePosition | ⟨notSpelled, _⟩
  · exact samePosition.symm
  · rw [isSpelled] at notSpelled
    contradiction

theorem Slot.FilledBy.congr
    {slot : Slot} {found found' : LocatedToken}
    (filled : slot.FilledBy found) (same : SameToken Eq ended found found')
    (starts : slot.StartsSpelled) :
    slot.FilledBy found' := by
  refine ⟨same.token.trans filled.1, fun position isStart => ?_⟩
  have isSpelled : found.token.isSpelled = true := by
    rw [filled.1]
    exact starts (Option.isSome_of_mem isStart)
  rw [same.position_eq isSpelled]
  exact filled.2 position isStart

theorem filledBy_congr
    {slots : List Slot} {tokens tokens' : List LocatedToken}
    (filled : List.Forall₂ Slot.FilledBy slots tokens)
    (same : List.Forall₂ (SameToken Eq ended) tokens tokens')
    (starts : ∀ slot ∈ slots, slot.StartsSpelled) :
    List.Forall₂ Slot.FilledBy slots tokens' := by
  induction filled generalizing tokens' with
  | nil =>
      cases same
      exact .nil
  | cons first _ inductionHypothesis =>
      obtain ⟨startsFirst, startsOthers⟩ := List.forall_mem_cons.mp starts
      cases same with
      | cons sameFirst sameOthers =>
          exact .cons (first.congr sameFirst startsFirst)
            (inductionHypothesis sameOthers startsOthers)

/-- The commands that tokens place do not depend on where lines end. -/
theorem PlacedBy.congr
    {commands : List Command} {tokens tokens' : List LocatedToken}
    (placedBy : PlacedBy commands tokens)
    (same : List.Forall₂ (SameToken Eq ended) tokens tokens') :
    PlacedBy commands tokens' := by
  obtain ⟨lines, areLines, filled⟩ := placedBy
  refine ⟨lines, areLines, filledBy_congr filled same ?_⟩
  rw [List.forall_mem_append, List.forall_mem_singleton]
  refine ⟨fun slot member => ?_, Slot.startsSpelled_inner _⟩
  rcases areLines with rfl | rfl
  · exact startsSpelled_linesOf commands slot member
  · exact startsSpelled_linesOf commands slot ((List.dropLast_sublist _).mem member)

/-! ## Data texts -/

/-- The numbers among tokens, or the first token that is none, do not depend on where lines end. -/
theorem InputTape.literalsOf_congr
    {tokens tokens' : List LocatedToken}
    (same : List.Forall₂ (SameToken Eq ended) tokens tokens') :
    literalsOf tokens' = literalsOf tokens := by
  induction same with
  | nil =>
      rfl
  | @cons found found' rest rest' sameFirst _ inductionHypothesis =>
      obtain ⟨_, position⟩ := found
      obtain ⟨token, position'⟩ := found'
      obtain rfl : token = _ := sameFirst.token
      cases token with
      | literal value => exact congrArg (Except.map (value :: ·)) inductionHypothesis
      | newline | endOfFile => exact inductionHypothesis
      | _ =>
          obtain rfl : position' = position := sameFirst.position_eq rfl
          rfl

/-! ## Texts -/

theorem scriptOf_ne_ok
    {text : String} {error : ScanError} (failed : tokensOf text = .error error)
    (commands : List Command) :
    scriptOf text ≠ .ok commands := by
  intro isScript
  obtain ⟨tokens, scanned⟩ := exists_tokensOf_of_scriptOf isScript
  rw [failed] at scanned
  cases scanned

/--
A tidy text is read like the text that it comes from. Both fail to be scanned for the
same reason at the same position, or both have the same tokens, which stand at the same
positions; only line breaks and the end of the text may be elsewhere, on the same lines.
As a script both hold the same commands at the same positions, if they hold any; and as
a data text both hold the same numbers, or fail alike.
-/
theorem tidied_text_read_alike (text : String) :
    ((∃ error, tokensOf text = .error error ∧ tokensOf (tidied text) = .error error) ∨
      ∃ tokens tokens',
        tokensOf text = .ok tokens ∧ tokensOf (tidied text) = .ok tokens' ∧
          List.Forall₂ (SameToken Eq SameLine) tokens tokens') ∧
    (∀ commands, scriptOf text = .ok commands ↔ scriptOf (tidied text) = .ok commands) ∧
    InputTape.ofText (tidied text) = InputTape.ofText text := by
  have same := sameTokens_tidied text
  generalize scanned : tokensOf text = outcome,
    scannedTidied : tokensOf (tidied text) = outcome' at same ⊢
  cases same with
  | @error failure position _ samePosition =>
      subst samePosition
      refine ⟨Or.inl ⟨_, rfl, rfl⟩, fun commands => ?_, ?_⟩
      · exact iff_of_false (scriptOf_ne_ok scanned commands) (scriptOf_ne_ok scannedTidied commands)
      · rw [InputTape.ofText, InputTape.ofText, scanned, scannedTidied]
  | @ok tokens tokens' sameTokens =>
      have sameBack := (sameTokens.imp fun _ _ => SameToken.symm).flip
      refine ⟨Or.inr ⟨tokens, tokens', rfl, rfl, sameTokens⟩, fun commands => ?_, ?_⟩
      · rw [scriptOf_eq_ok_iff scanned, scriptOf_eq_ok_iff scannedTidied]
        exact ⟨fun placedBy => placedBy.congr sameTokens, fun placedBy => placedBy.congr sameBack⟩
      · simp only [InputTape.ofText, scanned, scannedTidied, InputTape.literalsOf_congr sameTokens]

end RefScript
