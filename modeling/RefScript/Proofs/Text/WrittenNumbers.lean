import RefScript.Proofs.Text.DataScanning

namespace RefScript

/-!
# Numbers that have been written down

Every word is read back from its decimal text, the least one included. So is every
list of words, if something separates each from the next one: blanks, line feeds, or
comments up to the ends of their lines.
-/

/-! ## One number -/

theorem isDigit_of_mem_toDigits
    {number : Nat} {character : Char} (member : character ∈ Nat.toDigits 10 number) :
    isDigit character = true := by
  have digit := Nat.isDigit_of_mem_toDigits (by decide) (by decide) member
  simpa [Char.isDigit, isDigit, Char.le_def] using digit

/-- The decimal text of a word spells it. -/
theorem spells_decimal (value : Word) : Spells (.literal value) value.decimal.toList := by
  have isText : value.decimal = value.toInt.repr := rfl
  rw [isText]
  cases isValue : value.toInt with
  | ofNat number =>
      have digits : (Int.ofNat number).repr.toList = Nat.toDigits 10 number := Nat.toList_repr
      rw [digits]
      refine .natural Nat.toDigits_ne_nil (fun _ => isDigit_of_mem_toDigits) ?_
      rw [isValue, Nat.ofDigitChars_ten_toDigits]
      rfl
  | negSucc number =>
      have digits : (Int.negSucc number).repr.toList = '-' :: Nat.toDigits 10 (number + 1) := by
        have parts : (Int.negSucc number).repr = "-" ++ (number + 1).repr := rfl
        rw [parts, String.toList_append, Nat.toList_repr]
        rfl
      rw [digits]
      refine .negative Nat.toDigits_ne_nil (fun _ => isDigit_of_mem_toDigits) ?_
      rw [isValue, Nat.ofDigitChars_ten_toDigits]
      rfl

/-! ## Numbers with something between them -/

/-- Characters between two numbers: gaps, and comments that are closed by a line feed. -/
inductive Separates : List Char → Prop where
  | gap
      {character : Char}
      (isGap : isGap character = true) :
      Separates [character]
  | comment
      {inside : List Char}
      (oneLine : '\n' ∉ inside) :
      Separates ('#' :: inside ++ ['\n'])
  | append
      {first second : List Char}
      (separates : Separates first) (separatesToo : Separates second) :
      Separates (first ++ second)

/-- Words one after another, each two with a separator of their own between them. -/
inductive Separated : List (List Char) → List Char → Prop where
  | none : Separated [] []
  | last (word : List Char) : Separated [word] word
  | word
      (word : List Char) {next separator rest : List Char} {others : List (List Char)}
      (separates : Separates separator)
      (separated : Separated (next :: others) rest) :
      Separated (word :: next :: others) (word ++ separator ++ rest)

namespace Separates

variable {separator rest : List Char} {values : List Word}

/-- A separator before a data text leaves it one. -/
theorem dataText (separates : Separates separator) (data : DataText rest values) :
    DataText (separator ++ rest) values := by
  induction separates generalizing rest with
  | gap isGap =>
      exact .gap isGap data
  | @comment inside oneLine =>
      have closed : (inside ++ '\n' :: rest).dropWhile (· ≠ '\n') = '\n' :: rest := by
        refine (run_append_of_ended (fun character member => ?_) rfl).2
        exact decide_eq_true fun isLineFeed => oneLine (isLineFeed ▸ member)
      rw [List.cons_append, List.cons_append, List.append_assoc, List.singleton_append]
      refine .comment ?_
      rw [closed]
      exact .gap rfl data
  | append _ _ first second =>
      rw [List.append_assoc]
      exact first (second data)

/-- A separator ends the number before it. -/
theorem endsWord (separates : Separates separator) (rest : List Char) :
    (separator ++ rest).head?.any isWordPart = false := by
  induction separates generalizing rest with
  | @gap character gap =>
      refine Bool.eq_false_iff.mpr fun isPart => ?_
      rw [isGap_of_isLexical (isLexical_of_isWordPart isPart)] at gap
      contradiction
  | comment => rfl
  | append _ _ first _ =>
      rw [List.append_assoc]
      exact first _

end Separates

/-- Words that are written down and separated are a data text, and they are its numbers. -/
theorem Separated.dataText
    {values : List Word} {text : List Char}
    (separated : Separated (values.map fun value => value.decimal.toList) text) :
    DataText text values := by
  induction values generalizing text with
  | nil =>
      cases separated
      exact .nil
  | cons value values inductionHypothesis =>
      cases values with
      | nil =>
          cases separated
          have data := DataText.literal (spells_decimal value) rfl .nil
          rwa [List.append_nil] at data
      | cons next others =>
          cases separated with
          | @word _ _ separator rest _ separates later =>
              rw [List.append_assoc]
              exact .literal (spells_decimal value) (separates.endsWord rest)
                (separates.dataText (inductionHypothesis later))

/-- Lines joined by line feeds are separated. -/
theorem separated_intercalate (words : List (List Char)) :
    Separated words (['\n'].intercalate words) := by
  induction words with
  | nil =>
      exact .none
  | cons word others inductionHypothesis =>
      cases others with
      | nil =>
          rw [List.intercalate_singleton]
          exact .last word
      | cons next later =>
          rw [List.intercalate_cons_cons]
          exact .word word (.gap rfl) inductionHypothesis

end RefScript
