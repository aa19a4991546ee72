import Mathlib.Data.List.Forall2
import RefScript.Script

namespace RefScript

/-!
# The grammar of scripts

How the commands of a script are spelled by tokens, said without the reader.
Commands make a sequence of slots, each of which asks for one token; the slot
that starts a command also asks where that token stands. Which tokens the slots
ask for does not depend on positions, so whatever spells some commands also
spells the same commands placed where their tokens stand.
-/

/-- What the grammar asks of one token. -/
structure Slot where
  token : Token
  /-- Where the token has to stand, if it is the first one of a command. -/
  start? : Option Position

namespace Slot

/-- A token that starts no command. -/
def inner (token : Token) : Slot :=
  ⟨token, none⟩

/-- The end of a line. -/
def lineBreak : Slot :=
  inner .newline

/-- The first line of a command at a position. -/
def line (position : Position) : List Token → List Slot
  | [] => []
  | first :: rest => ⟨first, some position⟩ :: rest.map inner

/-- A body: its lines, after the end of the line that opens it and before what closes it. -/
def body (lines : List Slot) (closer : Token) : List Slot :=
  lineBreak :: lines ++ [inner closer]

/-- The token is the one asked for, and stands where it has to. -/
def FilledBy (slot : Slot) (found : LocatedToken) : Prop :=
  found.token = slot.token ∧ ∀ position ∈ slot.start?, found.position = position

end Slot

/-- The reserved word of a declaration. -/
def CellKind.keyword : CellKind → Keyword
  | .int => .int
  | .ref => .ref

/-- The line that opens a body. -/
def Opener.heading : Opener → List Token
  | .block => [.openBrace]
  | .frame => [.keyword .beginFrame]
  | .function name formals =>
      .keyword .function :: .identifier name :: formals.map .identifier ++ [.openBrace]

/-- The first line of a command, which is all of a command without a body. -/
def Command.heading : Command → List Token
  | .declare kind name _ => [.keyword kind.keyword, .identifier name]
  | .allocate name _ => [.keyword .new, .identifier name]
  | .assign name value _ => [.keyword .set, .identifier name, .literal value]
  | .copy target source _ => [.keyword .copy, .identifier target, .identifier source]
  | .input name _ => [.keyword .input, .identifier name]
  | .print name _ => [.keyword .print, .identifier name]
  | .call name actuals _ => .keyword .call :: .identifier name :: actuals.map .identifier
  | .block _ _ => Opener.block.heading
  | .frame _ _ => Opener.frame.heading
  | .function name formals _ _ => (Opener.function name formals).heading

mutual

/-- What follows the first line of a command. -/
def Command.bodySlots : Command → List Slot
  | .block body _ => Slot.body (linesOf body) .closeBrace
  | .frame body _ => Slot.body (linesOf body) (.keyword .endFrame)
  | .function _ _ body _ => Slot.body (linesOf body) .closeBrace
  | _ => []

/-- Commands one after the other, each with the end of its last line. -/
def linesOf : List Command → List Slot
  | [] => []
  | command :: rest =>
      Slot.line command.position command.heading ++ command.bodySlots ++
        .lineBreak :: linesOf rest

end

/-- The tokens of a command, up to the end of its last line. -/
def Command.slots (command : Command) : List Slot :=
  Slot.line command.position command.heading ++ command.bodySlots

/-- A command without a body. -/
def Command.isFlat : Command → Bool
  | .block .. | .frame .. | .function .. => false
  | _ => true

theorem Command.slots_of_isFlat {command : Command} (flat : command.isFlat = true) :
    command.slots = Slot.line command.position command.heading := by
  cases command with
  | block | frame | function => cases flat
  | _ => exact List.append_nil _

/-- The lines of a script. The last one may lack its line break. -/
def AreLines (commands : List Command) (lines : List Slot) : Prop :=
  lines = linesOf commands ∨ lines = (linesOf commands).dropLast

/-- The tokens are the lines of the commands and the end of the text, wherever they stand. -/
def SpelledBy (commands : List Command) (tokens : List Token) : Prop :=
  ∃ lines, AreLines commands lines ∧ tokens = lines.map Slot.token ++ [.endOfFile]

/-- The tokens spell the commands, and each command starts where its first token stands. -/
def PlacedBy (commands : List Command) (tokens : List LocatedToken) : Prop :=
  ∃ lines, AreLines commands lines ∧
    List.Forall₂ Slot.FilledBy (lines ++ [.inner .endOfFile]) tokens

theorem Opener.slots_command (opener : Opener) (position : Position) (body : List Command) :
    (opener.command position body).slots =
      Slot.line position opener.heading ++ Slot.body (linesOf body) opener.closer := by
  cases opener <;> rw [Opener.command, Command.slots, Command.bodySlots] <;> rfl

mutual

/-- The command without the positions of it and of the commands in it. -/
def Command.unplaced : Command → Command
  | .declare kind name _ => .declare kind name .first
  | .allocate name _ => .allocate name .first
  | .assign name value _ => .assign name value .first
  | .copy target source _ => .copy target source .first
  | .input name _ => .input name .first
  | .print name _ => .print name .first
  | .call name actuals _ => .call name actuals .first
  | .block body _ => .block (unplacedAll body) .first
  | .frame body _ => .frame (unplacedAll body) .first
  | .function name formals body _ => .function name formals (unplacedAll body) .first

/-- The commands without any positions. -/
def unplacedAll : List Command → List Command
  | [] => []
  | command :: rest => command.unplaced :: unplacedAll rest

end

/-! ## Tokens that fill slots -/

section FilledBy

variable {slots later : List Slot} {tokens : List Token} {found : List LocatedToken}

@[simp] theorem Slot.filledBy_inner {token : Token} {taken : LocatedToken} :
    (Slot.inner token).FilledBy taken ↔ taken.token = token := by
  simp [Slot.FilledBy, Slot.inner]

@[simp] theorem Slot.filledBy_lineBreak {taken : LocatedToken} :
    Slot.lineBreak.FilledBy taken ↔ taken.token = .newline :=
  Slot.filledBy_inner

/-- Tokens fill slots one part after the other. -/
theorem filledBy_append_iff :
    List.Forall₂ Slot.FilledBy (slots ++ later) found ↔
      ∃ front back, found = front ++ back ∧
        List.Forall₂ Slot.FilledBy slots front ∧ List.Forall₂ Slot.FilledBy later back := by
  constructor
  · intro filled
    exact ⟨_, _, (List.take_append_drop slots.length found).symm,
      by simpa using List.forall₂_take slots.length filled,
      by simpa using List.forall₂_drop slots.length filled⟩
  · rintro ⟨front, back, rfl, filledFront, filledBack⟩
    exact List.rel_append filledFront filledBack

/-- Tokens that fill slots are those that the slots ask for. -/
theorem map_token_of_filledBy (filled : List.Forall₂ Slot.FilledBy slots found) :
    found.map LocatedToken.token = slots.map Slot.token := by
  induction filled with
  | nil =>
      rfl
  | cons first _ inductionHypothesis =>
      rw [List.map_cons, List.map_cons, first.1, inductionHypothesis]

/-- Where no command starts, the tokens alone count. -/
theorem filledBy_inner_iff :
    List.Forall₂ Slot.FilledBy (tokens.map Slot.inner) found ↔
      found.map LocatedToken.token = tokens := by
  rw [List.forall₂_map_left_iff, ← List.forall₂_eq_eq_eq, List.forall₂_map_left_iff]
  constructor
  · intro filled
    exact (filled.imp fun token taken => Slot.filledBy_inner.mp).flip
  · intro same
    exact (same.imp fun taken token => Slot.filledBy_inner.mpr).flip

theorem filledBy_single_iff {token : Token} :
    List.Forall₂ Slot.FilledBy [.inner token] found ↔
      found.map LocatedToken.token = [token] :=
  @filledBy_inner_iff [token] found

/-- The first line of a command is filled from the position of the command on. -/
theorem filledBy_line_iff {position : Position} :
    List.Forall₂ Slot.FilledBy (Slot.line position tokens) found ↔
      found.map LocatedToken.token = tokens ∧
        ∀ first ∈ found.head?, first.position = position := by
  cases tokens with
  | nil =>
      simp +contextual [Slot.line]
  | cons token rest =>
      cases found with
      | nil =>
          simp [Slot.line]
      | cons first others =>
          simp only [Slot.line, List.forall₂_cons, filledBy_inner_iff, Slot.FilledBy,
            Option.mem_def, Option.some.injEq, forall_eq', List.map_cons, List.cons.injEq,
            List.head?_cons]
          tauto

theorem exists_first_of_filledBy_line
    {position : Position}
    (nonempty : tokens ≠ [])
    (filled : List.Forall₂ Slot.FilledBy (Slot.line position tokens) found) :
    ∃ first taken, found = first :: taken ∧ first.position = position ∧
      (first :: taken).map LocatedToken.token = tokens := by
  obtain ⟨rfl, startsAt⟩ := filledBy_line_iff.mp filled
  cases found with
  | nil => exact (nonempty rfl).elim
  | cons first taken => exact ⟨first, taken, rfl, startsAt first rfl, rfl⟩

end FilledBy

theorem Opener.heading_ne_nil (opener : Opener) : opener.heading ≠ [] := by
  cases opener <;> exact List.cons_ne_nil _ _

theorem Command.heading_ne_nil (command : Command) : command.heading ≠ [] := by
  cases command <;> exact List.cons_ne_nil _ _

/-! ## Positions -/

namespace Slot

@[simp] theorem token_inner (token : Token) : (inner token).token = token :=
  rfl

@[simp] theorem map_token_line (position : Position) (tokens : List Token) :
    (line position tokens).map Slot.token = tokens := by
  cases tokens with
  | nil =>
      rfl
  | cons first rest =>
      simp [line, Function.comp_def]

end Slot

namespace Command

/-- The same command at another position. -/
def placedAt (start : Position) : Command → Command
  | .declare kind name _ => .declare kind name start
  | .allocate name _ => .allocate name start
  | .assign name value _ => .assign name value start
  | .copy target source _ => .copy target source start
  | .input name _ => .input name start
  | .print name _ => .print name start
  | .call name actuals _ => .call name actuals start
  | .block body _ => .block body start
  | .frame body _ => .frame body start
  | .function name formals body _ => .function name formals body start

variable (start : Position) (command : Command)

theorem slots_placedAt :
    (command.placedAt start).slots = Slot.line start command.heading ++ command.bodySlots := by
  cases command <;> rfl

theorem unplaced_placedAt : (command.placedAt start).unplaced = command.unplaced := by
  cases command <;> rfl

theorem heading_unplaced : command.unplaced.heading = command.heading := by
  cases command <;> rfl

end Command

mutual

theorem Command.map_token_bodySlots_unplaced (command : Command) :
    command.unplaced.bodySlots.map Slot.token = command.bodySlots.map Slot.token := by
  cases command with
  | block body position =>
      simp [Command.unplaced, Command.bodySlots, Slot.body, map_token_linesOf_unplacedAll body]
  | frame body position =>
      simp [Command.unplaced, Command.bodySlots, Slot.body, map_token_linesOf_unplacedAll body]
  | function name formals body position =>
      simp [Command.unplaced, Command.bodySlots, Slot.body, map_token_linesOf_unplacedAll body]
  | _ =>
      rfl

/-- The tokens of commands do not depend on positions. -/
theorem map_token_linesOf_unplacedAll (commands : List Command) :
    (linesOf (unplacedAll commands)).map Slot.token = (linesOf commands).map Slot.token := by
  cases commands with
  | nil =>
      rfl
  | cons command rest =>
      simp [unplacedAll, linesOf, command.heading_unplaced,
        command.map_token_bodySlots_unplaced, map_token_linesOf_unplacedAll rest]

end

/-- Commands that differ in positions alone are spelled alike. -/
theorem SpelledBy.congr
    {commands placed : List Command} {tokens : List Token}
    (same : unplacedAll placed = unplacedAll commands)
    (spelled : SpelledBy placed tokens) :
    SpelledBy commands tokens := by
  have sameTokens : (linesOf placed).map Slot.token = (linesOf commands).map Slot.token := by
    rw [← map_token_linesOf_unplacedAll, same, map_token_linesOf_unplacedAll]
  obtain ⟨lines, rfl | rfl, rfl⟩ := spelled
  · exact ⟨_, Or.inl rfl, by rw [sameTokens]⟩
  · exact ⟨_, Or.inr rfl, by rw [List.map_dropLast, List.map_dropLast, sameTokens]⟩

/-- Tokens that spell a body with its ends fill them around whatever the rest fills. -/
theorem exists_filledBy_body
    {lines : List Slot} {closer : Token} {found : List LocatedToken}
    (same : found.map LocatedToken.token = (Slot.body lines closer).map Slot.token) :
    ∃ within : List LocatedToken,
      within.map LocatedToken.token = lines.map Slot.token ∧
        ∀ placed : List Slot,
          List.Forall₂ Slot.FilledBy placed within →
            List.Forall₂ Slot.FilledBy (Slot.body placed closer) found := by
  rw [Slot.body, List.cons_append, List.map_cons, List.map_append] at same
  obtain ⟨lineBreak, _, rfl, isLineBreak, same⟩ := List.map_eq_cons_iff.mp same
  obtain ⟨within, closing, rfl, sameWithin, isClosing⟩ := List.map_eq_append_iff.mp same
  refine ⟨within, sameWithin, fun placed filled => ?_⟩
  exact .cons (Slot.filledBy_lineBreak.mpr isLineBreak)
    (List.rel_append filled (filledBy_single_iff.mpr isClosing))

mutual

/-- Tokens that spell a body fill the slots of that body placed where they stand. -/
theorem Command.exists_bodySlots_placed
    (command : Command)
    {found : List LocatedToken}
    (same : found.map LocatedToken.token = command.bodySlots.map Slot.token) :
    ∃ placed : Command,
      placed.unplaced = command.unplaced ∧
        placed.heading = command.heading ∧
        List.Forall₂ Slot.FilledBy placed.bodySlots found := by
  cases command with
  | block body position =>
      obtain ⟨within, sameWithin, filled⟩ := exists_filledBy_body same
      obtain ⟨placed, sameBody, filledBody⟩ := exists_linesOf_placed body sameWithin
      exact ⟨.block placed position, by rw [Command.unplaced, sameBody, Command.unplaced], rfl,
        filled _ filledBody⟩
  | frame body position =>
      obtain ⟨within, sameWithin, filled⟩ := exists_filledBy_body same
      obtain ⟨placed, sameBody, filledBody⟩ := exists_linesOf_placed body sameWithin
      exact ⟨.frame placed position, by rw [Command.unplaced, sameBody, Command.unplaced], rfl,
        filled _ filledBody⟩
  | function name formals body position =>
      obtain ⟨within, sameWithin, filled⟩ := exists_filledBy_body same
      obtain ⟨placed, sameBody, filledBody⟩ := exists_linesOf_placed body sameWithin
      exact ⟨.function name formals placed position,
        by rw [Command.unplaced, sameBody, Command.unplaced], rfl, filled _ filledBody⟩
  | _ =>
      refine ⟨_, rfl, rfl, ?_⟩
      have noTokens : found = [] := List.map_eq_nil_iff.mp same
      rw [noTokens]
      exact .nil

/-- Tokens that spell commands fill the slots of these commands placed where they stand. -/
theorem exists_linesOf_placed
    (commands : List Command)
    {found : List LocatedToken}
    (same : found.map LocatedToken.token = (linesOf commands).map Slot.token) :
    ∃ placed : List Command,
      unplacedAll placed = unplacedAll commands ∧
        List.Forall₂ Slot.FilledBy (linesOf placed) found := by
  cases commands with
  | nil =>
      exact ⟨[], rfl, by simpa [linesOf] using same⟩
  | cons command rest =>
      rw [linesOf, List.map_append, List.map_append, List.map_cons, List.map_eq_append_iff,
        Slot.map_token_line] at same
      obtain ⟨_, later, rfl, same, sameLater⟩ := same
      obtain ⟨heading, body, rfl, sameHeading, sameBody⟩ := List.map_eq_append_iff.mp same
      obtain ⟨lineBreak, others, rfl, isLineBreak, sameOthers⟩ := List.map_eq_cons_iff.mp sameLater
      obtain ⟨placed, samePlaced, sameHeading', filledBody⟩ :=
        command.exists_bodySlots_placed sameBody
      obtain ⟨placedRest, samePlacedRest, filledRest⟩ := exists_linesOf_placed rest sameOthers
      obtain ⟨start, atStart⟩ :
          ∃ start, ∀ first ∈ heading.head?, first.position = start := by
        cases heading with
        | nil => exact ⟨.first, by simp⟩
        | cons first _ => exact ⟨first.position, by simp⟩
      refine ⟨placed.placedAt start :: placedRest, ?_, ?_⟩
      · rw [unplacedAll, unplacedAll, placed.unplaced_placedAt, samePlaced, samePlacedRest]
      · change List.Forall₂ _ ((placed.placedAt start).slots ++ _) _
        rw [Command.slots_placedAt, sameHeading']
        exact List.rel_append
          (List.rel_append (filledBy_line_iff.mpr ⟨sameHeading, atStart⟩) filledBody)
          (.cons (Slot.filledBy_lineBreak.mpr isLineBreak) filledRest)

end

/-! ## Scripts -/

@[simp] theorem linesOf_append (earlier later : List Command) :
    linesOf (earlier ++ later) = linesOf earlier ++ linesOf later := by
  induction earlier with
  | nil =>
      rfl
  | cons command rest inductionHypothesis =>
      simp only [List.cons_append, linesOf, inductionHypothesis, List.append_assoc]

theorem linesOf_concat (earlier : List Command) (last : Command) :
    linesOf (earlier ++ [last]) = linesOf earlier ++ last.slots ++ [.lineBreak] := by
  rw [linesOf_append, List.append_assoc]
  rfl

/-- The last line break is left out when the last command ends without one. -/
theorem areLines_iff {commands : List Command} {lines : List Slot} :
    AreLines commands lines ↔
      lines = linesOf commands ∨
        ∃ earlier last, commands = earlier ++ [last] ∧ lines = linesOf earlier ++ last.slots := by
  constructor
  · rintro (complete | shortened)
    · exact Or.inl complete
    · rcases List.eq_nil_or_concat' commands with rfl | ⟨earlier, last, rfl⟩
      · exact Or.inl shortened
      · refine Or.inr ⟨earlier, last, rfl, ?_⟩
        rw [shortened, linesOf_concat, List.dropLast_concat]
  · rintro (complete | ⟨earlier, last, rfl, rfl⟩)
    · exact Or.inl complete
    · exact Or.inr (by rw [linesOf_concat, List.dropLast_concat])

/-- What spells commands that start at given positions also spells them without positions. -/
theorem PlacedBy.spelledBy
    {commands : List Command} {tokens : List LocatedToken}
    (placedBy : PlacedBy commands tokens) :
    SpelledBy commands (tokens.map LocatedToken.token) := by
  obtain ⟨lines, areLines, filled⟩ := placedBy
  refine ⟨lines, areLines, ?_⟩
  rw [map_token_of_filledBy filled, List.map_append]
  rfl

/-- Whatever spells commands places the same commands where its tokens stand. -/
theorem SpelledBy.exists_placedBy
    {commands : List Command} {tokens : List LocatedToken}
    (spelledBy : SpelledBy commands (tokens.map LocatedToken.token)) :
    ∃ placed, unplacedAll placed = unplacedAll commands ∧ PlacedBy placed tokens := by
  obtain ⟨lines, areLines, same⟩ := spelledBy
  obtain ⟨found, ending, rfl, sameLines, isEnd⟩ := List.map_eq_append_iff.mp same
  have filledEnd : List.Forall₂ Slot.FilledBy [.inner .endOfFile] ending :=
    filledBy_single_iff.mpr isEnd
  rcases areLines_iff.mp areLines with rfl | ⟨earlier, last, rfl, rfl⟩
  · obtain ⟨placed, samePlaced, filled⟩ := exists_linesOf_placed commands sameLines
    exact ⟨placed, samePlaced, _, Or.inl rfl, List.rel_append filled filledEnd⟩
  · -- With a line break added, the tokens spell the complete lines.
    have completed :
        (found ++ [LocatedToken.mk .newline .first]).map LocatedToken.token =
          (linesOf (earlier ++ [last])).map Slot.token := by
      rw [linesOf_concat, List.map_append, List.map_append, sameLines]
      rfl
    obtain ⟨placed, samePlaced, filled⟩ := exists_linesOf_placed _ completed
    have shortened := List.forall₂_take found.length filled
    rw [List.take_left] at shortened
    refine ⟨placed, samePlaced, _, Or.inr ?_, List.rel_append shortened filledEnd⟩
    rw [List.dropLast_eq_take, filled.length_eq, List.length_append, List.length_singleton,
      Nat.add_sub_cancel]

end RefScript
