import Mathlib.Data.List.Forall2
import RefScript.Proofs.Text.Scanning

namespace RefScript

/-!
# The form of data texts

A data text is documented as signed integers separated by blanks or line feeds,
with comments, and so every run of other characters should be one number. What
is read is a little more, for a number also ends where a minus sign follows it:
a run may hold several numbers, each but the first one with a minus sign.
`DataText` is the grammar that the scanner follows from left to right, and it is
shown here to be about the runs of the text without its comments.
-/

/-! ## Runs -/

/-- The characters that separate numbers: blanks and line feeds. -/
def isGap (character : Char) : Bool :=
  isBlank character || character = '\n'

/-- The characters without comments, be it that a comment has been opened before them or not. -/
def dropComments : Bool → List Char → List Char
  | _, [] => []
  | true, character :: rest =>
      if character = '\n' then
        character :: dropComments false rest
      else
        dropComments true rest
  | false, character :: rest =>
      if character = '#' then
        dropComments true rest
      else
        character :: dropComments false rest

/-- The characters without comments: each '#' is deleted, with what follows on its line. -/
def withoutComments (characters : List Char) : List Char :=
  dropComments false characters

/-- The longest runs of characters that are no gaps, in order. -/
def runs (characters : List Char) : List (List Char) :=
  (characters.splitOnP isGap).filter fun run => !run.isEmpty

/-- The documented form: every run is a number, and these are the values. -/
def Documented (characters : List Char) (values : List Word) : Prop :=
  List.Forall₂ (fun run value => Spells (.literal value) run)
    (runs (withoutComments characters)) values

/-- The numbers that a run consists of; a minus sign ends a number and starts the next. -/
inductive Numerals : List Char → List Word → Prop where
  | single
      {spelling : List Char} {value : Word}
      (spells : Spells (.literal value) spelling) :
      Numerals spelling [value]
  | cons
      {spelling rest : List Char} {value : Word} {values : List Word}
      (spells : Spells (.literal value) spelling)
      (later : Numerals ('-' :: rest) values) :
      Numerals (spelling ++ '-' :: rest) (value :: values)

variable {character : Char} {characters word rest : List Char}

theorem isGap_of_isLexical (lexical : isLexical character = true) : isGap character = false := by
  obtain ⟨notBlank, notLineFeed, -⟩ := isLexical_iff.mp lexical
  simp [isGap, notBlank, notLineFeed]

theorem ne_comment_of_isLexical (lexical : isLexical character = true) : character ≠ '#' :=
  (isLexical_iff.mp lexical).2.2

theorem ne_comment_of_isGap (gap : isGap character = true) : character ≠ '#' := by
  rintro rfl
  exact absurd gap (by decide)

/-- An opened comment is deleted up to the end of its line. -/
private theorem dropComments_true (characters : List Char) :
    dropComments true characters = withoutComments (characters.dropWhile (· ≠ '\n')) := by
  induction characters with
  | nil =>
      rfl
  | cons character rest inductionHypothesis =>
      by_cases lineFeed : character = '\n'
      · subst lineFeed
        rfl
      · simp [dropComments, lineFeed, inductionHypothesis]

@[simp] theorem withoutComments_nil : withoutComments [] = [] :=
  rfl

@[simp] theorem withoutComments_comment (rest : List Char) :
    withoutComments ('#' :: rest) = withoutComments (rest.dropWhile (· ≠ '\n')) :=
  dropComments_true rest

theorem withoutComments_cons (notComment : character ≠ '#') :
    withoutComments (character :: rest) = character :: withoutComments rest :=
  if_neg notComment

theorem withoutComments_append (noComment : ∀ character ∈ word, character ≠ '#') :
    withoutComments (word ++ rest) = word ++ withoutComments rest := by
  induction word with
  | nil =>
      rfl
  | cons character later inductionHypothesis =>
      obtain ⟨notComment, others⟩ := List.forall_mem_cons.mp noComment
      rw [List.cons_append, withoutComments_cons notComment, inductionHypothesis others,
        List.cons_append]

/-- What a comment leaves behind starts with a gap, if there is anything. -/
private theorem exists_of_withoutComments_cons
    (notGap : isGap character = false)
    (split : withoutComments characters = character :: rest) :
    ∃ later, characters = character :: later ∧ withoutComments later = rest := by
  cases characters with
  | nil =>
      contradiction
  | cons first later =>
      by_cases isComment : first = '#'
      · subst isComment
        rw [withoutComments_comment] at split
        have lineFeed := List.head?_dropWhile_not (fun other : Char => other ≠ '\n') later
        cases remaining : later.dropWhile fun other => other ≠ '\n' with
        | nil =>
            rw [remaining] at split
            contradiction
        | cons next others =>
            rw [remaining] at split lineFeed
            have isLineFeed : next = '\n' := by simpa using lineFeed
            subst isLineFeed
            rw [withoutComments_cons (by decide)] at split
            cases split
            contradiction
      · rw [withoutComments_cons isComment] at split
        cases split
        exact ⟨later, rfl, rfl⟩

/-- No run reaches over a comment. -/
theorem exists_of_withoutComments_append
    (noGap : ∀ character ∈ word, isGap character = false)
    (split : withoutComments characters = word ++ rest) :
    ∃ later, characters = word ++ later ∧ withoutComments later = rest := by
  induction word generalizing characters with
  | nil =>
      exact ⟨characters, rfl, split⟩
  | cons character word inductionHypothesis =>
      obtain ⟨notGap, others⟩ := List.forall_mem_cons.mp noGap
      obtain ⟨between, rfl, splitLater⟩ := exists_of_withoutComments_cons notGap split
      obtain ⟨later, rfl, remaining⟩ := inductionHypothesis others splitLater
      exact ⟨later, rfl, remaining⟩

@[simp] theorem runs_nil : runs [] = [] :=
  rfl

theorem runs_gap (gap : isGap character = true) : runs (character :: rest) = runs rest := by
  simp [runs, List.splitOnP_cons_eq_if_modifyHead, gap]

/-- Whether characters end, or go on with a gap. -/
def EndsRun (characters : List Char) : Prop :=
  ∀ character ∈ characters.head?, isGap character = true

theorem exists_cons_of_not_endsRun (goesOn : ¬ EndsRun characters) :
    ∃ character rest, characters = character :: rest ∧ isGap character = false := by
  unfold EndsRun at goesOn
  cases characters with
  | nil =>
      simp at goesOn
  | cons character rest =>
      exact ⟨character, rest, rfl, by simpa using goesOn⟩

theorem runs_append
    (nonempty : word ≠ [])
    (noGap : ∀ character ∈ word, isGap character = false)
    (ends : EndsRun rest) :
    runs (word ++ rest) = word :: runs rest := by
  have notEmpty : word.isEmpty = false := by simpa using nonempty
  cases rest with
  | nil =>
      simp [runs, List.splitOnP_eq_singleton noGap, notEmpty]
  | cons character later =>
      have gap : isGap character = true := ends character rfl
      rw [runs_gap gap, runs, List.splitOnP_append_cons_of_forall_mem noGap _ gap,
        List.filter_cons_of_pos (by simpa using nonempty), runs]

/-- A character that is no gap is the first one of a run. -/
theorem exists_run_of_cons (notGap : isGap character = false) :
    ∃ word later,
      rest = word ++ later ∧
        (∀ other ∈ character :: word, isGap other = false) ∧
          EndsRun later ∧
            runs (character :: rest) = (character :: word) :: runs later := by
  have split : rest = rest.takeWhile (!isGap ·) ++ rest.dropWhile (!isGap ·) :=
    List.takeWhile_append_dropWhile.symm
  have noGap : ∀ other ∈ rest.takeWhile (!isGap ·), isGap other = false := by
    intro other member
    simpa using List.all_eq_true.mp List.all_takeWhile other member
  have ends : EndsRun (rest.dropWhile (!isGap ·)) := by
    intro other isNext
    have stopped := List.head?_dropWhile_not (!isGap ·) rest
    rw [Option.mem_def.mp isNext] at stopped
    simpa using stopped
  generalize rest.takeWhile (!isGap ·) = word, rest.dropWhile (!isGap ·) = later at *
  subst split
  have allNoGap : ∀ other ∈ character :: word, isGap other = false :=
    List.forall_mem_cons.mpr ⟨notGap, noGap⟩
  refine ⟨word, later, rfl, allNoGap, ends, ?_⟩
  exact runs_append (List.cons_ne_nil character word) allNoGap ends

/-! ## The grammar -/

/--
The grammar of data texts, from left to right. A number is as long as possible,
and no letter or underscore follows it.
-/
inductive DataText : List Char → List Word → Prop where
  | nil : DataText [] []
  | gap
      {character : Char} {rest : List Char} {values : List Word}
      (gap : isGap character = true)
      (later : DataText rest values) :
      DataText (character :: rest) values
  | comment
      {rest : List Char} {values : List Word}
      (later : DataText (rest.dropWhile (· ≠ '\n')) values) :
      DataText ('#' :: rest) values
  | literal
      {spelling rest : List Char} {value : Word} {values : List Word}
      (spells : Spells (.literal value) spelling)
      (ended : rest.head?.any isWordPart = false)
      (later : DataText rest values) :
      DataText (spelling ++ rest) (value :: values)

theorem Spells.noGap
    {token : Token} {spelling : List Char}
    (spells : Spells token spelling) :
    ∀ character ∈ spelling, isGap character = false :=
  fun character member => isGap_of_isLexical (spells.isLexical character member)

theorem Spells.noComment
    {token : Token} {spelling : List Char}
    (spells : Spells token spelling) :
    ∀ character ∈ spelling, character ≠ '#' :=
  fun character member => ne_comment_of_isLexical (spells.isLexical character member)

/-- A number is a minus sign or a digit, with digits after it. -/
theorem Spells.exists_digits
    {value : Word} {spelling : List Char}
    (spells : Spells (.literal value) spelling) :
    ∃ first digits,
      spelling = first :: digits ∧
        (∀ character ∈ digits, isDigit character = true) ∧
          (isDigit first = true ∨ first = '-' ∧ digits ≠ []) := by
  cases spells with
  | natural nonempty allDigits _ =>
      obtain ⟨first, digits, rfl⟩ := List.exists_cons_of_ne_nil nonempty
      obtain ⟨isFirst, others⟩ := List.forall_mem_cons.mp allDigits
      exact ⟨first, digits, rfl, others, Or.inl isFirst⟩
  | @negative digits _ nonempty allDigits _ =>
      exact ⟨'-', digits, rfl, allDigits, Or.inr ⟨rfl, nonempty⟩⟩

/-- After a number there is less of the text. -/
theorem Spells.length_lt_of_append
    {value : Word} {spelling : List Char}
    (spells : Spells (.literal value) spelling)
    (split : characters = spelling ++ rest) :
    rest.length < characters.length := by
  obtain ⟨first, digits, rfl, _⟩ := spells.exists_digits
  rw [split, List.length_append, List.length_cons]
  omega

/-- A number has no minus sign but at its start. -/
theorem Spells.no_inner_sign
    {value : Word} {spelling : List Char}
    (spells : Spells (.literal value) spelling) :
    '-' ∉ spelling.tail := by
  obtain ⟨first, digits, rfl, allDigits, _⟩ := spells.exists_digits
  exact fun isMember => absurd (allDigits '-' isMember) (by decide)

namespace Numerals

variable {values : List Word}

theorem starts (numerals : Numerals (character :: word) values) :
    isDigit character = true ∨ character = '-' := by
  generalize same : character :: word = run at numerals
  cases numerals with
  | single spells | cons spells _ =>
      obtain ⟨first, digits, rfl, _, starts⟩ := spells.exists_digits
      cases same
      exact starts.imp_right And.left

/-- A run without a minus sign but at its start is one number. -/
theorem exists_single
    (numerals : Numerals word values)
    (noInnerSign : '-' ∉ word.tail) :
    ∃ value, values = [value] ∧ Spells (.literal value) word := by
  cases numerals with
  | single spells =>
      exact ⟨_, rfl, spells⟩
  | cons spells later =>
      obtain ⟨first, digits, rfl, _⟩ := spells.exists_digits
      simp at noInnerSign

end Numerals

/-! ## The documented form -/

namespace Documented

variable {values : List Word}

/-- In a text of the documented form every run is made of one number. -/
theorem numerals (documented : Documented characters values) :
    List.Forall₂ Numerals (runs (withoutComments characters)) (values.map fun value => [value]) :=
  List.forall₂_map_right_iff.mpr (documented.imp fun _ _ spells => .single spells)

theorem no_inner_sign (documented : Documented characters values) :
    ∀ run ∈ runs (withoutComments characters), '-' ∉ run.tail := by
  unfold Documented at documented
  generalize runs (withoutComments characters) = words at documented
  induction documented with
  | nil =>
      simp
  | cons spells _ inductionHypothesis =>
      exact List.forall_mem_cons.mpr ⟨spells.no_inner_sign, inductionHypothesis⟩

end Documented

/-- Without a minus sign in the midst of a run, the text has the documented form. -/
theorem documented_of_numerals
    {groups : List (List Word)}
    (numerals : List.Forall₂ Numerals (runs (withoutComments characters)) groups)
    (noInnerSign : ∀ run ∈ runs (withoutComments characters), '-' ∉ run.tail) :
    Documented characters groups.flatten := by
  unfold Documented
  generalize runs (withoutComments characters) = words at numerals noInnerSign
  induction numerals with
  | nil =>
      exact .nil
  | cons first _ inductionHypothesis =>
      obtain ⟨notHere, notLater⟩ := List.forall_mem_cons.mp noInnerSign
      obtain ⟨value, rfl, spells⟩ := first.exists_single notHere
      exact .cons spells (inductionHypothesis notLater)

/-! ## The grammar is about runs -/

/-- What is left after the end of a run belongs to no word. -/
private theorem not_isWordPart_of_endsRun
    (ends : EndsRun (withoutComments characters)) :
    characters.head?.any isWordPart = false := by
  cases characters with
  | nil =>
      rfl
  | cons first later =>
      cases continues : isWordPart first with
      | false =>
          exact continues
      | true =>
          have lexical := isLexical_of_isWordPart continues
          rw [withoutComments_cons (ne_comment_of_isLexical lexical)] at ends
          have gap : isGap first = true := ends first rfl
          rw [isGap_of_isLexical lexical] at gap
          contradiction

/--
A number before a text with runs of numbers is a run of its own, or the first
number of a run. In the latter case the run goes on with a minus sign.
-/
private theorem exists_groups_of_literal
    {spelling : List Char} {value : Word} {groups : List (List Word)}
    (spells : Spells (.literal value) spelling)
    (ended : rest.head?.any isWordPart = false)
    (numerals : List.Forall₂ Numerals (runs (withoutComments rest)) groups) :
    ∃ allGroups,
      value :: groups.flatten = allGroups.flatten ∧
        List.Forall₂ Numerals (runs (spelling ++ withoutComments rest)) allGroups := by
  obtain ⟨first, digits, isSpelling, _⟩ := spells.exists_digits
  have nonempty : spelling ≠ [] := isSpelling ▸ List.cons_ne_nil first digits
  by_cases ends : EndsRun (withoutComments rest)
  · rw [runs_append nonempty spells.noGap ends]
    exact ⟨[value] :: groups, rfl, .cons (.single spells) numerals⟩
  · obtain ⟨next, between, split, notGap⟩ := exists_cons_of_not_endsRun ends
    obtain ⟨remaining, rfl, _⟩ := exists_of_withoutComments_cons notGap split
    obtain ⟨word, later, rfl, noGap, endsLater, runsEq⟩ := @exists_run_of_cons next between notGap
    rw [split, runsEq] at numerals
    cases numerals with
    | cons inRun others =>
        have isSign : next = '-' := by
          refine inRun.starts.resolve_left fun isDigit => ?_
          rw [List.head?_cons, Option.any_some, isWordPart_of_isDigit isDigit] at ended
          contradiction
        subst isSign
        have noGapAll : ∀ character ∈ spelling ++ '-' :: word, isGap character = false :=
          List.forall_mem_append.mpr ⟨spells.noGap, noGap⟩
        have runsAll := runs_append (by simp) noGapAll endsLater
        rw [split, ← List.cons_append, ← List.append_assoc, runsAll]
        exact ⟨_ :: _, rfl, .cons (.cons spells inRun) others⟩

/-- A text of the grammar has runs of numbers. -/
theorem DataText.exists_groups
    {values : List Word}
    (data : DataText characters values) :
    ∃ groups,
      values = groups.flatten ∧
        List.Forall₂ Numerals (runs (withoutComments characters)) groups := by
  induction data with
  | nil =>
      exact ⟨[], rfl, .nil⟩
  | gap gap later inductionHypothesis =>
      rw [withoutComments_cons (ne_comment_of_isGap gap), runs_gap gap]
      exact inductionHypothesis
  | comment later inductionHypothesis =>
      rw [withoutComments_comment]
      exact inductionHypothesis
  | literal spells ended later inductionHypothesis =>
      obtain ⟨groups, rfl, numerals⟩ := inductionHypothesis
      rw [withoutComments_append spells.noComment]
      exact exists_groups_of_literal spells ended numerals

/--
Conversely, a text that starts with a run of numbers starts with the first of
them. What is left has the other numbers of the run, if there are any, and the
other runs.
-/
private theorem exists_literal_of_run
    {run later : List Char} {values : List Word} {groups : List (List Word)}
    (split : withoutComments characters = run ++ later)
    (noGap : ∀ character ∈ run, isGap character = false)
    (ends : EndsRun later)
    (numerals : Numerals run values)
    (others : List.Forall₂ Numerals (runs later) groups) :
    ∃ spelling value remaining laterGroups,
      characters = spelling ++ remaining ∧
        Spells (.literal value) spelling ∧
          remaining.head?.any isWordPart = false ∧
            List.Forall₂ Numerals (runs (withoutComments remaining)) laterGroups ∧
              values ++ groups.flatten = value :: laterGroups.flatten := by
  cases numerals with
  | single spells =>
      obtain ⟨remaining, same, sameLater⟩ := exists_of_withoutComments_append spells.noGap split
      subst sameLater
      exact ⟨_, _, remaining, groups, same, spells, not_isWordPart_of_endsRun ends, others, rfl⟩
  | @cons _ more _ laterValues spells laterNumerals =>
      rw [List.append_assoc] at split
      obtain ⟨remaining, same, sameLater⟩ := exists_of_withoutComments_append spells.noGap split
      obtain ⟨_, rfl, _⟩ := exists_of_withoutComments_cons (by decide) sameLater
      have noGapMore := fun other member => noGap other (List.mem_append_right _ member)
      have laterGroups := List.Forall₂.cons laterNumerals others
      rw [← runs_append (List.cons_ne_nil _ _) noGapMore ends, ← sameLater] at laterGroups
      exact ⟨_, _, _, laterValues :: groups, same, spells, rfl, laterGroups, rfl⟩

/--
A text with runs of numbers is one of the grammar. The recursion is on the text,
from which a gap, a comment or the first number of a run is taken.
-/
theorem dataText_of_groups
    (characters : List Char)
    (groups : List (List Word))
    (numerals : List.Forall₂ Numerals (runs (withoutComments characters)) groups) :
    DataText characters groups.flatten := by
  match characters with
  | [] =>
      cases numerals
      exact .nil
  | character :: rest =>
      by_cases gap : isGap character = true
      · rw [withoutComments_cons (ne_comment_of_isGap gap), runs_gap gap] at numerals
        exact .gap gap (dataText_of_groups rest groups numerals)
      by_cases isComment : character = '#'
      · subst isComment
        rw [withoutComments_comment] at numerals
        exact .comment (dataText_of_groups _ groups numerals)
      · obtain ⟨word, later, split, noGap, ends, runsEq⟩ :=
          @exists_run_of_cons character (withoutComments rest) (Bool.eq_false_iff.mpr gap)
        have splitAll : withoutComments (character :: rest) = (character :: word) ++ later := by
          rw [withoutComments_cons isComment, split, List.cons_append]
        rw [withoutComments_cons isComment, runsEq] at numerals
        cases numerals with
        | cons first others =>
            obtain ⟨spelling, value, remaining, laterGroups, same, spells, ended, laterNumerals,
              sameValues⟩ := exists_literal_of_run splitAll noGap ends first others
            have shorter := spells.length_lt_of_append same
            rw [List.flatten_cons, sameValues, same]
            exact .literal spells ended (dataText_of_groups remaining laterGroups laterNumerals)
termination_by characters.length
decreasing_by
  · exact Nat.lt_succ_self _
  · exact Nat.lt_succ_of_le (List.dropWhile_sublist _).length_le
  · exact shorter

/-- The grammar is about the runs of the text without its comments. -/
theorem dataText_iff_groups {values : List Word} :
    DataText characters values ↔
      ∃ groups,
        values = groups.flatten ∧
          List.Forall₂ Numerals (runs (withoutComments characters)) groups := by
  constructor
  · exact DataText.exists_groups
  · rintro ⟨groups, rfl, numerals⟩
    exact dataText_of_groups characters groups numerals

end RefScript
