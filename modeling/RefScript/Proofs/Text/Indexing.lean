import RefScript.Text.Scan

namespace RefScript

/-!
# Characters by index

The scanner moves a cursor; its results are stated by the indices of the
characters in the whole text. Every cursor that a scan reaches is the cursor at
some index: it has the characters from there on, and the position that counts
the line feeds before it and the characters after the last of them.
-/

/-- The position of the character with the given index, counted in the whole text. -/
def Position.ofIndex (characters : List Char) (index : Nat) : Position :=
  let before := characters.take index
  ⟨before.count '\n' + 1, (before.reverse.takeWhile (· ≠ '\n')).length + 1⟩

/-- The position moves on with each character. -/
theorem Position.ofIndex_succ
    {characters : List Char}
    {index : Nat}
    {character : Char}
    (here : characters[index]? = some character) :
    ofIndex characters (index + 1) = (ofIndex characters index).after character := by
  simp only [ofIndex, after, List.take_add_one, here, Option.toList_some, List.count_append,
    List.reverse_append, List.reverse_singleton, List.singleton_append]
  by_cases lineFeed : character = '\n'
  · simp [lineFeed]
  · simp [lineFeed]

namespace Cursor

/-- The cursor before the character with the given index. -/
def atIndex (characters : List Char) (index : Nat) : Cursor :=
  ⟨characters.drop index, Position.ofIndex characters index⟩

@[simp] theorem position_atIndex (characters : List Char) (index : Nat) :
    (atIndex characters index).position = Position.ofIndex characters index :=
  rfl

theorem ofString_eq (text : String) : ofString text = atIndex text.toList 0 :=
  rfl

/-- The next character is the one with the index of the cursor. -/
theorem next?_atIndex (characters : List Char) (index : Nat) :
    (atIndex characters index).next? =
      characters[index]?.map fun character =>
        (character, atIndex characters (index + 1)) := by
  rcases Nat.lt_or_ge index characters.length with inside | past
  · have here : characters[index]? = some characters[index] :=
      List.getElem?_eq_getElem inside
    have step := Position.ofIndex_succ here
    simp only [next?, atIndex, List.drop_eq_getElem_cons inside, here, Option.map_some, step]
  · simp [next?, atIndex, List.drop_eq_nil_of_le past, List.getElem?_eq_none past]

theorem startsWith_atIndex
    (characters : List Char)
    (index : Nat)
    (accepts : Char → Bool) :
    (atIndex characters index).startsWith accepts = characters[index]?.any accepts := by
  simp [startsWith, atIndex, List.head?_drop]

end Cursor

/-- The characters of a class from one index up to another form a longest run. -/
structure LongestRun
    (characters : List Char)
    (accepts : Char → Bool)
    (start stop : Nat) : Prop where
  start_le_stop : start ≤ stop
  stop_le_length : stop ≤ characters.length
  accepted :
    ∀ index, start ≤ index → index < stop → characters[index]?.any accepts = true
  ended : characters[stop]?.any accepts = false

/-- A character of a class is none that the class leaves out. -/
theorem getElem?_ne_of_any
    {characters : List Char}
    {accepts : Char → Bool}
    {index : Nat}
    {character : Char}
    (accepted : characters[index]?.any accepts = true)
    (leftOut : accepts character = false) :
    characters[index]? ≠ some character := by
  intro here
  rw [here, Option.any_some, leftOut] at accepted
  contradiction

namespace Cursor

/-- Passing over characters moves the position past each of them. -/
private theorem afterAll_ofIndex
    {characters passed rest : List Char}
    {index : Nat}
    (split : characters.drop index = passed ++ rest) :
    (Position.ofIndex characters index).afterAll passed =
      Position.ofIndex characters (index + passed.length) := by
  induction passed generalizing index with
  | nil =>
      rfl
  | cons character later inductionHypothesis =>
      have here : characters[index]? = some character := by
        rw [← List.head?_drop, split]
        rfl
      have remaining : characters.drop (index + 1) = later ++ rest := by
        rw [← List.tail_drop, split]
        rfl
      rw [Position.afterAll_cons, ← Position.ofIndex_succ here,
        inductionHypothesis remaining, List.length_cons]
      congr 1
      omega

/-- A run is passed in one go, from one index to another. -/
theorem exists_run
    {characters : List Char}
    {start : Nat}
    (inside : start ≤ characters.length)
    (accepts : Char → Bool) :
    ∃ stop,
      LongestRun characters accepts start stop ∧
        (atIndex characters start).run accepts = characters.extract start stop ∧
        (atIndex characters start).afterRun accepts = atIndex characters stop := by
  have split : characters.drop start =
      (atIndex characters start).run accepts ++
        (atIndex characters start).remaining.dropWhile accepts :=
    List.takeWhile_append_dropWhile.symm
  have allAccepted : ∀ character ∈ (atIndex characters start).run accepts,
      accepts character = true :=
    List.all_eq_true.mp List.all_takeWhile
  have ended := List.head?_dropWhile_not accepts (atIndex characters start).remaining
  have afterRunEq : (atIndex characters start).afterRun accepts =
      ⟨(atIndex characters start).remaining.dropWhile accepts,
        (Position.ofIndex characters start).afterAll
          ((atIndex characters start).run accepts)⟩ :=
    rfl
  rw [afterRunEq, afterAll_ofIndex split]
  generalize (atIndex characters start).run accepts = passed at *
  generalize (atIndex characters start).remaining.dropWhile accepts = rest at *
  have lengths : characters.length - start = passed.length + rest.length := by
    rw [← List.length_drop, split, List.length_append]
  have remaining : characters.drop (start + passed.length) = rest := by
    rw [← List.drop_drop, split, List.drop_left]
  refine ⟨start + passed.length, ⟨by omega, by omega, ?_, ?_⟩, ?_, ?_⟩
  · intro index after before
    have inPassed : index - start < passed.length := by omega
    rw [show index = start + (index - start) by omega, ← List.getElem?_drop, split,
      List.getElem?_append_left inPassed, List.getElem?_eq_getElem inPassed, Option.any_some]
    exact allAccepted _ (List.getElem_mem inPassed)
  · rw [← List.head?_drop, remaining]
    cases rest with
    | nil => rfl
    | cons character later => simpa using ended
  · rw [List.extract_eq_take_drop, split, Nat.add_sub_cancel_left, List.take_left]
  · rw [atIndex, remaining]

end Cursor

end RefScript
