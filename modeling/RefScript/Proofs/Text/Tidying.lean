import Mathlib.Data.List.DropRight
import RefScript.Proofs.Text.Alongside

namespace RefScript

/-!
# Tidy texts

A text is tidied by deleting its comments and the blanks at the ends of its lines, and
by writing every other blank as a space. The scanner does not see the difference: all
tokens are found where they were, but for the ends of the lines and of the text, which
move to the left on their lines.
-/

/-- A line without its comment and the blanks at its end, and with spaces as blanks. -/
def tidyLine (line : List Char) : List Char :=
  ((line.takeWhile (· ≠ '#')).rdropWhile isBlank).map fun character =>
    if character = '\t' ∨ character = '\r' then ' ' else character

/-- Characters with all their lines tidied. -/
def tidyLines (characters : List Char) : List Char :=
  ['\n'].intercalate ((characters.splitOn '\n').map tidyLine)

/-- A text with all its lines tidied. -/
def tidied (text : String) : String :=
  String.ofList (tidyLines text.toList)

example : tidied "set\tx 1 # one\r\n \t\n#\nprint x \r\n" = "set x 1\n\n\nprint x\n" := by
  decide +kernel

/-- The end of a line follows, or the end of the text. -/
def AtLineEnd (characters : List Char) : Prop :=
  ∀ next ∈ characters.head?, next = '\n'

theorem AtLineEnd.stops
    {characters : List Char} (ends : AtLineEnd characters)
    {accepts : Char → Bool} (leftOut : accepts '\n' = false) :
    characters.head?.any accepts = false := by
  cases characters with
  | nil =>
      rfl
  | cons next others =>
      cases ends next rfl
      exact leftOut

/-- Every character is a blank. -/
def AllBlank (characters : List Char) : Prop :=
  ∀ character ∈ characters, isBlank character = true

variable {blanks comment line later rest word : List Char} {first : Char}

/-! ## Lines -/

theorem ne_comment_of_isBlank {character : Char} (blank : isBlank character = true) :
    character ≠ '#' := by
  rintro rfl
  exact absurd blank (by decide)

theorem AllBlank.takeWhile_append (allBlank : AllBlank blanks) (rest : List Char) :
    (blanks ++ rest).takeWhile (· ≠ '#') = blanks ++ rest.takeWhile (· ≠ '#') :=
  List.takeWhile_append_of_pos fun character member =>
    decide_eq_true (ne_comment_of_isBlank (allBlank character member))

/-- Nothing is left of a line that starts with blanks and then ends or has a comment. -/
theorem tidyLine_blanks (allBlank : AllBlank blanks) (ends : ∀ next ∈ rest.head?, next = '#') :
    tidyLine (blanks ++ rest) = [] := by
  have noMore : rest.takeWhile (· ≠ '#') = [] := by
    cases rest with
    | nil => rfl
    | cons next others => simp [ends next rfl]
  rw [tidyLine, allBlank.takeWhile_append, noMore, List.append_nil,
    List.rdropWhile_eq_nil_iff.mpr allBlank, List.map_nil]

/-- From the end only those characters are dropped that come after one that stays. -/
theorem rdropWhile_append_cons
    {α : Type} {drops : α → Bool} {value : α} (stays : drops value = false)
    (before after : List α) :
    (before ++ value :: after).rdropWhile drops = before ++ value :: after.rdropWhile drops := by
  simp only [List.rdropWhile, List.reverse_append, List.reverse_cons, List.append_assoc,
    List.dropWhile_append, List.singleton_append, List.dropWhile_cons, stays]
  split <;> simp_all

/-- Blanks before a word or a number become spaces. -/
theorem tidyLine_lexical (allBlank : AllBlank blanks) (lexical : isLexical first = true) :
    tidyLine (blanks ++ first :: line) =
      List.replicate blanks.length ' ' ++ first :: tidyLine line := by
  have spaces :
      blanks.map (fun character => if character = '\t' ∨ character = '\r' then ' ' else character) =
        List.replicate blanks.length ' ' := by
    refine List.eq_replicate_iff.mpr ⟨List.length_map _, fun character member => ?_⟩
    obtain ⟨blank, inBlanks, rfl⟩ := List.mem_map.mp member
    have isBlank := allBlank blank inBlanks
    simp only [RefScript.isBlank, decide_eq_true_eq] at isBlank
    split
    · rfl
    · tauto
  obtain ⟨notBlank, -, notComment⟩ := isLexical_iff.mp lexical
  have notTab : ¬ (first = '\t' ∨ first = '\r') := by
    rintro (rfl | rfl) <;> exact absurd notBlank (by decide)
  rw [tidyLine, allBlank.takeWhile_append, List.takeWhile_cons_of_pos (by simpa using notComment),
    rdropWhile_append_cons notBlank, List.map_append, spaces, List.map_cons, if_neg notTab,
    tidyLine]

/-! ## Texts of several lines -/

@[simp] theorem tidyLines_nil : tidyLines [] = [] :=
  rfl

theorem tidyLines_append_lineFeed (oneLine : '\n' ∉ line) :
    tidyLines (line ++ '\n' :: rest) = tidyLine line ++ '\n' :: tidyLines rest := by
  obtain ⟨next, others, lines⟩ := List.exists_cons_of_ne_nil (List.splitOn_ne_nil '\n' rest)
  rw [tidyLines, List.splitOn_append_cons_self_of_not_mem oneLine, tidyLines, lines, List.map_cons,
    List.map_cons, List.intercalate_cons_cons, List.append_assoc, List.singleton_append]

@[simp] theorem tidyLines_lineFeed : tidyLines ('\n' :: rest) = '\n' :: tidyLines rest :=
  tidyLines_append_lineFeed List.not_mem_nil

/-- The first line of a text is tidied apart from the others. -/
theorem tidyLines_append (oneLine : '\n' ∉ line) (ends : AtLineEnd later) :
    tidyLines (line ++ later) = tidyLine line ++ tidyLines later := by
  cases later with
  | nil =>
      rw [List.append_nil, tidyLines, List.splitOn_eq_singleton oneLine, List.map_singleton,
        List.intercalate_singleton, tidyLines_nil, List.append_nil]
  | cons next rest =>
      cases ends next rfl
      rw [tidyLines_append_lineFeed oneLine, tidyLines_lineFeed]

/-- A text is its first line, and what comes after that. -/
theorem exists_line (characters : List Char) :
    ∃ line later, characters = line ++ later ∧ '\n' ∉ line ∧ AtLineEnd later := by
  refine ⟨_, _, (List.takeWhile_append_dropWhile (p := (· ≠ '\n'))).symm, ?_, ?_⟩
  · intro member
    have kept := List.all_eq_true.mp List.all_takeWhile '\n' member
    exact absurd kept (by decide)
  · intro next isNext
    have stopped := List.head?_dropWhile_not (· ≠ '\n') characters
    rw [Option.mem_def.mp isNext] at stopped
    simpa using stopped

theorem not_mem_of_allBlank (allBlank : AllBlank blanks) : '\n' ∉ blanks :=
  fun member => absurd (allBlank '\n' member) (by decide)

/-- Blanks before the end of a line are deleted, with a comment between them and the end. -/
theorem tidyLines_blanks
    (allBlank : AllBlank blanks) (isComment : ∀ next ∈ comment.head?, next = '#')
    (oneLine : '\n' ∉ comment) (ends : AtLineEnd later) :
    tidyLines (blanks ++ comment ++ later) = tidyLines later := by
  have noLineFeed : '\n' ∉ blanks ++ comment := by
    simp [not_mem_of_allBlank allBlank, oneLine]
  rw [tidyLines_append noLineFeed ends, tidyLine_blanks allBlank isComment, List.nil_append]

/-- Blanks before a word or a number become spaces. -/
theorem tidyLines_lexical (allBlank : AllBlank blanks) (lexical : isLexical first = true) :
    tidyLines (blanks ++ first :: rest) =
      List.replicate blanks.length ' ' ++ first :: tidyLines rest := by
  obtain ⟨line, later, rfl, oneLine, ends⟩ := exists_line rest
  have notLineFeed := (isLexical_iff.mp lexical).2.1
  have noLineFeed : '\n' ∉ blanks ++ first :: line := by
    simp [not_mem_of_allBlank allBlank, oneLine, notLineFeed.symm]
  rw [← List.cons_append, ← List.append_assoc, tidyLines_append noLineFeed ends,
    tidyLine_lexical allBlank lexical, tidyLines_append oneLine ends, List.append_assoc,
    List.cons_append]

/-- Words and numbers stay as they are. -/
theorem tidyLines_word (lexical : ∀ character ∈ word, isLexical character = true) :
    tidyLines (word ++ rest) = word ++ tidyLines rest := by
  have noBlanks : AllBlank [] := by simp [AllBlank]
  induction word with
  | nil =>
      rfl
  | cons character others inductionHypothesis =>
      obtain ⟨isLexical, lexicalOthers⟩ := List.forall_mem_cons.mp lexical
      rw [List.cons_append, List.cons_append, ← inductionHypothesis lexicalOthers]
      exact tidyLines_lexical noBlanks isLexical

/--
What follows the blanks that a text starts with: the end of the line, maybe after a
comment, or a character of a token.
-/
inductive LineStart : List Char → Prop where
  | ended
      {blanks comment later : List Char}
      (allBlank : AllBlank blanks) (isComment : ∀ next ∈ comment.head?, next = '#')
      (oneLine : '\n' ∉ comment) (ends : AtLineEnd later) :
      LineStart (blanks ++ comment ++ later)
  | lexical
      {blanks rest : List Char} {first : Char}
      (allBlank : AllBlank blanks) (lexical : isLexical first = true) :
      LineStart (blanks ++ first :: rest)

theorem lineStart (characters : List Char) : LineStart characters := by
  have split : characters.takeWhile isBlank ++ characters.dropWhile isBlank = characters :=
    List.takeWhile_append_dropWhile
  have allBlank : AllBlank (characters.takeWhile isBlank) :=
    List.all_eq_true.mp List.all_takeWhile
  have notBlank := List.head?_dropWhile_not isBlank characters
  generalize characters.takeWhile isBlank = blanks, characters.dropWhile isBlank = rest at *
  subst split
  obtain ⟨line, later, rfl, oneLine, ends⟩ := exists_line rest
  cases line with
  | nil =>
      rw [List.nil_append, ← List.append_nil blanks]
      exact .ended allBlank (by simp) List.not_mem_nil ends
  | cons first others =>
      by_cases isComment : first = '#'
      · rw [← List.append_assoc]
        exact .ended allBlank (by simpa using isComment) oneLine ends
      · refine .lexical allBlank ?_
        have notLineFeed : first ≠ '\n' := fun same => oneLine (by simp [same])
        simp_all [isLexical]

/-! ## Scanning a tidy text -/

theorem Position.afterAll_append (position : Position) (passed later : List Char) :
    position.afterAll (passed ++ later) = (position.afterAll passed).afterAll later :=
  List.foldl_append

/-- Within a line the column counts the characters. -/
theorem Position.afterAll_oneLine (position : Position) (oneLine : '\n' ∉ line) :
    position.afterAll line = ⟨position.line, position.column + line.length⟩ := by
  induction line generalizing position with
  | nil =>
      rfl
  | cons character rest inductionHypothesis =>
      rw [List.mem_cons, not_or] at oneLine
      rw [afterAll_cons, inductionHypothesis _ oneLine.2, after, if_neg (Ne.symm oneLine.1),
        List.length_cons, Nat.add_assoc, Nat.add_comm 1]

theorem Cursor.afterRun_append
    {accepts : Char → Bool} {passed : List Char}
    (accepted : ∀ character ∈ passed, accepts character = true)
    (ended : rest.head?.any accepts = false) (position : Position) :
    Cursor.afterRun ⟨passed ++ rest, position⟩ accepts = ⟨rest, position.afterAll passed⟩ := by
  obtain ⟨taken, left⟩ := run_append_of_ended accepted ended
  rw [Cursor.afterRun, Cursor.run, taken, left]

/-- The scanner skips what is deleted at the end of a line. -/
theorem skipTrivia_lineEnd
    (allBlank : AllBlank blanks) (isComment : ∀ next ∈ comment.head?, next = '#')
    (oneLine : '\n' ∉ comment) (ends : AtLineEnd later) (position : Position) :
    Cursor.skipTrivia ⟨blanks ++ comment ++ later, position⟩ =
      ⟨later, position.afterAll (blanks ++ comment)⟩ := by
  have notBlank : (comment ++ later).head?.any isBlank = false := by
    cases comment with
    | nil => exact ends.stops rfl
    | cons next others => simp [isComment next rfl, isBlank]
  rw [Cursor.skipTrivia, List.append_assoc, Cursor.afterRun_append allBlank notBlank,
    Position.afterAll_append]
  cases comment with
  | nil =>
      have notComment : later.head?.any (· = '#') = false := ends.stops (by decide)
      simp [Cursor.startsWith, notComment]
  | cons opening others =>
      cases isComment opening rfl
      have inComment : ∀ character ∈ '#' :: others, decide (character ≠ '\n') = true := by
        rintro character member
        exact decide_eq_true fun same => oneLine (same ▸ member)
      have atEnd : later.head?.any (· ≠ '\n') = false := ends.stops (by decide)
      simp only [Cursor.startsWith, List.cons_append, List.head?_cons, Option.any_some,
        decide_true, ↓reduceIte]
      rw [← List.cons_append, Cursor.afterRun_append inComment atEnd]

/-- The scanner skips the blanks before a word or a number. -/
theorem skipTrivia_lexical
    (allBlank : AllBlank blanks) (lexical : isLexical first = true) (position : Position) :
    Cursor.skipTrivia ⟨blanks ++ first :: rest, position⟩ =
      ⟨first :: rest, position.afterAll blanks⟩ := by
  obtain ⟨notBlank, -, notComment⟩ := isLexical_iff.mp lexical
  have stops : (first :: rest).head?.any isBlank = false := notBlank
  rw [Cursor.skipTrivia, Cursor.afterRun_append allBlank stops]
  simp [Cursor.startsWith, notComment]

/-- Two cursors at the same position, before some characters and before these tidied. -/
structure Tidies (cursor cursor' : Cursor) : Prop where
  remaining : cursor'.remaining = tidyLines cursor.remaining
  position : cursor'.position = cursor.position

/-- Two positions on the same line. -/
def SameLine (position position' : Position) : Prop :=
  position'.line = position.line

theorem AtLineEnd.tidyLines (ends : AtLineEnd later) : AtLineEnd (tidyLines later) := by
  cases later with
  | nil =>
      exact ends
  | cons next others =>
      cases ends next rfl
      rw [tidyLines_lineFeed]
      simp [AtLineEnd]

/-- No word starts where none has started before the text was tidied. -/
theorem head?_tidyLines
    {accepts : Char → Bool} (within : WithinWords accepts)
    (ended : rest.head?.any accepts = false) :
    (tidyLines rest).head?.any accepts = false := by
  cases lineStart rest with
  | ended allBlank isComment oneLine ends =>
      rw [tidyLines_blanks allBlank isComment oneLine ends]
      exact ends.tidyLines.stops within.lineFeed
  | @lexical blanks others first allBlank lexical =>
      rw [tidyLines_lexical allBlank lexical]
      cases blanks with
      | nil => exact ended
      | cons blank _ =>
          exact Bool.eq_false_iff.mpr fun accepted => absurd (within ' ' accepted) (by decide)

/-- Tidying commutes with taking what is accepted within words. -/
theorem run_tidyLines
    {accepts : Char → Bool} (within : WithinWords accepts) (characters : List Char) :
    (tidyLines characters).takeWhile accepts = characters.takeWhile accepts ∧
      (tidyLines characters).dropWhile accepts = tidyLines (characters.dropWhile accepts) := by
  have accepted : ∀ character ∈ characters.takeWhile accepts, accepts character = true :=
    List.all_eq_true.mp List.all_takeWhile
  have ended : (characters.dropWhile accepts).head?.any accepts = false := by
    have stopped := List.head?_dropWhile_not accepts characters
    generalize characters.dropWhile accepts = rest at stopped
    cases rest with
    | nil => rfl
    | cons next others => simpa using stopped
  have lexical : ∀ character ∈ characters.takeWhile accepts, isLexical character = true :=
    fun character member => isLexical_of_isWordPart (within _ (accepted character member))
  have tidy :
      tidyLines characters =
        characters.takeWhile accepts ++ tidyLines (characters.dropWhile accepts) := by
    rw [← tidyLines_word lexical, List.takeWhile_append_dropWhile]
  rw [tidy]
  exact run_append_of_ended accepted (head?_tidyLines within ended)

theorem sharesWords_tidies : SharesWords Tidies where
  run within tidies := by
    rw [Cursor.run, tidies.remaining, (run_tidyLines within _).1, Cursor.run]
  afterRun {accepts cursor cursor'} within tidies := by
    obtain ⟨sameRun, left⟩ := run_tidyLines within cursor.remaining
    constructor
    · rw [Cursor.afterRun, tidies.remaining, left, Cursor.afterRun]
    · rw [Cursor.afterRun, Cursor.afterRun, Cursor.run, tidies.remaining, tidies.position,
        sameRun, Cursor.run]

/-- At the end of a line it makes no difference where on the line that is. -/
theorem nextAlike_lineEnd
    {position position' : Position}
    (ends : AtLineEnd later) (sameLine : SameLine position position') :
    NextAlike Tidies Eq SameLine ⟨later, position⟩ ⟨tidyLines later, position'⟩ := by
  cases later with
  | nil =>
      exact .textEnd rfl rfl sameLine
  | cons next others =>
      cases ends next rfl
      rw [tidyLines_lineFeed]
      refine .lineEnd rfl rfl sameLine ⟨rfl, ?_⟩
      simp only [Position.after, ↓reduceIte]
      rw [sameLine]

/-- A tidy text is scanned side by side with the text that it comes from. -/
theorem alongside_tidies : Alongside Tidies Eq SameLine where
  toSharesWords := sharesWords_tidies
  next {cursor cursor'} tidies := by
    obtain ⟨remaining, position⟩ := cursor
    obtain ⟨remaining', position'⟩ := cursor'
    obtain ⟨sameRemaining, samePosition⟩ := tidies
    change remaining' = _ at sameRemaining
    change position' = position at samePosition
    subst sameRemaining samePosition
    cases lineStart remaining with
    | @ended blanks comment later allBlank isComment oneLine ends =>
        have noLineFeed : '\n' ∉ blanks ++ comment := by
          simp [not_mem_of_allBlank allBlank, oneLine]
        have noBlanks : AllBlank [] := by simp [AllBlank]
        have noComment : ∀ next ∈ ([] : List Char).head?, next = '#' := by simp
        have skipped :
            Cursor.skipTrivia ⟨tidyLines later, position'⟩ = ⟨tidyLines later, position'⟩ :=
          skipTrivia_lineEnd noBlanks noComment List.not_mem_nil ends.tidyLines position'
        rw [skipTrivia_lineEnd allBlank isComment oneLine ends,
          tidyLines_blanks allBlank isComment oneLine ends, skipped,
          Position.afterAll_oneLine position' noLineFeed]
        exact nextAlike_lineEnd ends rfl
    | @lexical blanks rest first allBlank lexical =>
        have spaces : AllBlank (List.replicate blanks.length ' ') := by
          intro character member
          rw [List.eq_of_mem_replicate member]
          rfl
        have notLineFeed := (isLexical_iff.mp lexical).2.1
        have samePosition :
            position'.afterAll (List.replicate blanks.length ' ') = position'.afterAll blanks := by
          rw [Position.afterAll_oneLine _ (not_mem_of_allBlank spaces),
            Position.afterAll_oneLine _ (not_mem_of_allBlank allBlank), List.length_replicate]
        rw [tidyLines_lexical allBlank lexical, skipTrivia_lexical allBlank lexical,
          skipTrivia_lexical spaces lexical, samePosition]
        exact .character rfl rfl notLineFeed rfl ⟨rfl, rfl⟩

/-- A tidy text has the tokens of the text that it comes from, or fails as that does. -/
theorem sameTokens_tidied (text : String) :
    SameTokens Eq SameLine (tokensOf text) (tokensOf (tidied text)) := by
  rw [tokensOf_eq_outcomeOf, tokensOf_eq_outcomeOf]
  exact alongside_tidies.scanRest [] _ _ _ .nil ⟨by simp [Cursor.ofString, tidied], rfl⟩

end RefScript
