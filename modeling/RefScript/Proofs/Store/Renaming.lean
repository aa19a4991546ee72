import RefScript.Machine
import RefScript.Proofs.Script.Renaming
import RefScript.Proofs.Store.References

namespace RefScript

/-!
# Stores under other names

A store may be shown under other names: every variable that is shown has a name of
its own there, and so has every function, while a variable that is hidden is left
out. Look-ups and assignments under the new names find what they find under the
old ones. Where a scope ends, its references are released in another order, and
that shows in the order of the stray references alone.
-/

/--
Other names for variables and functions, and other positions for commands. A
variable that is hidden has no name.
-/
structure Naming where
  shown? : String → Option String
  function : String → String
  place : Position → Position
  shown_injective :
    ∀ {name other shown : String},
      shown? name = some shown → shown? other = some shown → name = other
  function_injective : ∀ {name other : String}, function name = function other → name = other
  /-- Frames that belong to no function stay such frames. -/
  function_block : function Store.blockFrameName = Store.blockFrameName

namespace Naming

variable (naming : Naming)

/-- Whether the variables of a name are shown. -/
def Shows (name : String) : Prop :=
  (naming.shown? name).isSome = true

/-- The name of a variable that is shown. -/
def name (name : String) : String :=
  (naming.shown? name).getD name

theorem shown?_of_shows {naming : Naming} {name : String} (shows : naming.Shows name) :
    naming.shown? name = some (naming.name name) := by
  obtain ⟨shown, isShown⟩ := Option.isSome_iff_exists.mp shows
  rw [Naming.name, isShown, Option.getD_some]

/-- Whether all variables that are shown keep their names. -/
def KeepsNames : Prop :=
  ∀ {name shown : String}, naming.shown? name = some shown → shown = name

/-- The commands under the new names, at the new positions. -/
def commands : List Command → List Command :=
  renameAll naming.name naming.function naming.place

end Naming

/-! ## Finite maps with other keys -/

section Rekey

variable {α β : Type} {key? : String → Option String} {content : α → β}
  {entries : Std.ExtTreeMap String α}

/-- The entries under other keys, without those whose key has none. -/
def rekeyed (key? : String → Option String) (content : α → β)
    (entries : Std.ExtTreeMap String α) : List (String × β) :=
  entries.toList.filterMap fun entry =>
    (key? entry.1).map fun key => (key, content entry.2)

/-- The finite map of these entries. -/
def rekey (key? : String → Option String) (content : α → β)
    (entries : Std.ExtTreeMap String α) : Std.ExtTreeMap String β :=
  .ofList (rekeyed key? content entries) compare

theorem mem_rekeyed {new : String} {found : β} :
    (new, found) ∈ rekeyed key? content entries ↔
      ∃ key entry, key? key = some new ∧ entries[key]? = some entry ∧ content entry = found := by
  have listed {key : String} {entry : α} :
      (key, entry) ∈ entries.toList ↔ entries[key]? = some entry :=
    Std.ExtTreeMap.mem_toList_iff_getElem?_eq_some
  simp only [rekeyed, List.mem_filterMap, Prod.exists, listed, Option.map_eq_some_iff,
    Prod.mk.injEq]
  grind

theorem distinct_rekeyed
    (injective : ∀ {key other new}, key? key = some new → key? other = some new → key = other) :
    (rekeyed key? content entries).Pairwise
      fun first second => ¬ compare first.1 second.1 = .eq := by
  refine Std.ExtTreeMap.distinct_keys_toList.filterMap _ ?_
  rintro ⟨key, entry⟩ ⟨other, entry'⟩ distinctKeys new isNew new' isNew'
  obtain ⟨newKey, isKey, rfl⟩ := Option.map_eq_some_iff.mp isNew
  obtain ⟨newKey', isKey', rfl⟩ := Option.map_eq_some_iff.mp isNew'
  intro sameKey
  have same : newKey = newKey' := Std.LawfulEqOrd.compare_eq_iff_eq.mp sameKey
  subst same
  exact distinctKeys (by rw [injective isKey isKey']; exact Std.ReflCmp.compare_self)

/-- An entry is found under a new key if it stands under the key that has become that. -/
theorem getElem?_rekey
    (injective : ∀ {key other new}, key? key = some new → key? other = some new → key = other)
    {new : String} {found : β} :
    (rekey key? content entries)[new]? = some found ↔
      ∃ key entry, key? key = some new ∧ entries[key]? = some entry ∧ content entry = found := by
  have distinct : (rekeyed key? content entries).Pairwise _ := distinct_rekeyed injective
  rw [← mem_rekeyed]
  constructor
  · intro isFound
    by_cases isKey : new ∈ (rekeyed key? content entries).map Prod.fst
    · obtain ⟨⟨_, value⟩, member, rfl⟩ := List.mem_map.mp isKey
      have here := Std.ExtTreeMap.getElem?_ofList_of_mem Std.ReflCmp.compare_self distinct member
      rw [rekey, here] at isFound
      cases isFound
      exact member
    · have notContained : ((rekeyed key? content entries).map Prod.fst).contains new = false := by
        rw [List.contains_eq_mem, decide_eq_false isKey]
      have missing : (rekey key? content entries)[new]? = none :=
        Std.ExtTreeMap.getElem?_ofList_of_contains_eq_false notContained
      rw [missing] at isFound
      cases isFound
  · exact Std.ExtTreeMap.getElem?_ofList_of_mem Std.ReflCmp.compare_self distinct

end Rekey

variable {naming : Naming}

/-! ## Scopes -/

namespace Scope

/-- The scope under the new names. -/
def rename (naming : Naming) (scope : Scope) : Scope :=
  ⟨rekey naming.shown? id scope.cells⟩

/-- Only variables that are shown are bound. -/
def OnlyShows (naming : Naming) (scope : Scope) : Prop :=
  ∀ name, scope.find? name ≠ none → naming.Shows name

variable {scope : Scope} {name shown : String} {cell : Cell} {value : Option Word}

theorem find?_rename_eq_some_iff :
    (scope.rename naming).find? shown = some cell ↔
      ∃ name, naming.shown? name = some shown ∧ scope.find? name = some cell := by
  refine (getElem?_rekey naming.shown_injective).trans ?_
  simp [find?]

/-- A variable that is shown is found under its new name. -/
theorem find?_rename_of_shown (isShown : naming.shown? name = some shown) :
    (scope.rename naming).find? shown = scope.find? name := by
  ext cell
  rw [find?_rename_eq_some_iff]
  constructor
  · rintro ⟨other, isOther, found⟩
    rwa [naming.shown_injective isShown isOther]
  · exact fun found => ⟨name, isShown, found⟩

theorem find?_rename (scope : Scope) (shows : naming.Shows name) :
    (scope.rename naming).find? (naming.name name) = scope.find? name :=
  find?_rename_of_shown (Naming.shown?_of_shows shows)

/-- Other names are not bound. -/
theorem find?_rename_of_unused (unused : ∀ name, naming.shown? name ≠ some shown) :
    (scope.rename naming).find? shown = none := by
  rw [Option.eq_none_iff_forall_ne_some]
  intro cell found
  obtain ⟨name, isShown, _⟩ := find?_rename_eq_some_iff.mp found
  exact unused name isShown

@[simp] theorem rename_empty : empty.rename naming = empty := by
  ext shown cell
  simp [find?_rename_eq_some_iff]

theorem rename_bind (scope : Scope) (shows : naming.Shows name) (cell : Cell) :
    (scope.bind name cell).rename naming =
      (scope.rename naming).bind (naming.name name) cell := by
  have isShown := Naming.shown?_of_shows shows
  refine ext fun shown => ?_
  rw [find?_bind]
  by_cases used : ∃ other, naming.shown? other = some shown
  · obtain ⟨other, isOther⟩ := used
    have sameName : naming.name name = shown ↔ name = other := by
      constructor
      · rintro rfl
        exact naming.shown_injective isShown isOther
      · rintro rfl
        exact Option.some.inj (isShown.symm.trans isOther)
    simp only [find?_rename_of_shown isOther, find?_bind, sameName]
  · have unused : ∀ other, naming.shown? other ≠ some shown := not_exists.mp used
    rw [find?_rename_of_unused unused, find?_rename_of_unused unused, if_neg]
    rintro rfl
    exact unused name isShown

theorem rename_declare (scope : Scope) (shows : naming.Shows name) (kind : CellKind) :
    (scope.declare name kind).rename naming =
      (scope.rename naming).declare (naming.name name) kind :=
  scope.rename_bind shows _

theorem assign?_rename (scope : Scope) (shows : naming.Shows name) (value : Option Word) :
    (scope.rename naming).assign? (naming.name name) value =
      (scope.assign? name value).map (rename naming) := by
  unfold assign?
  rw [scope.find?_rename shows]
  cases scope.find? name with
  | none => rfl
  | some cell => exact congrArg some (scope.rename_bind shows _).symm

/-- Where variables keep their names, and all are shown, the scope stays the same. -/
theorem rename_eq_self
    (keeps : naming.KeepsNames)
    (onlyShows : scope.OnlyShows naming) :
    scope.rename naming = scope := by
  refine ext fun name => ?_
  by_cases shows : naming.Shows name
  · have isShown := Naming.shown?_of_shows shows
    rw [keeps isShown] at isShown
    rw [find?_rename_of_shown isShown]
  · have unbound : scope.find? name = none := by
      by_contra bound
      exact shows (onlyShows name bound)
    rw [unbound]
    refine find?_rename_of_unused fun other isShown => shows ?_
    rw [keeps isShown, Naming.Shows, isShown]
    rfl

/-- The bound references are the same ones, if all variables are shown. -/
theorem boundRefs_rename (onlyShows : scope.OnlyShows naming) :
    (scope.rename naming).boundRefs.Perm scope.boundRefs := by
  have nodup : (rekeyed naming.shown? id scope.cells).Nodup := by
    refine (distinct_rekeyed naming.shown_injective).imp ?_
    rintro first second distinct rfl
    exact distinct Std.ReflCmp.compare_self
  have listing : (scope.rename naming).toList.Perm (rekeyed naming.shown? id scope.cells) := by
    refine (List.perm_ext_iff_of_nodup (nodup_toList _) nodup).mpr ?_
    rintro ⟨shown, cell⟩
    rw [mem_toList, mem_rekeyed]
    exact getElem?_rekey naming.shown_injective
  refine (listing.filterMap _).trans (.of_eq ?_)
  rw [rekeyed, List.filterMap_filterMap]
  refine List.filterMap_congr ?_
  rintro ⟨name, cell⟩ member
  have bound : scope.find? name ≠ none := by
    rw [mem_toList.mp member]
    nofun
  rw [Naming.shown?_of_shows (onlyShows name bound)]
  rfl

end Scope

/-! ## Frames -/

namespace Frame

/-- The frame under the new names. -/
def rename (naming : Naming) (frame : Frame) : Frame :=
  ⟨naming.function frame.function, frame.scopes.map (.rename naming)⟩

variable {name : String} {scope : Scope}

@[simp] theorem rename_withEmptyScope :
    (withEmptyScope Store.blockFrameName).rename naming =
      withEmptyScope Store.blockFrameName := by
  simp [rename, withEmptyScope, withScope, naming.function_block]

theorem rename_pushScope (frame : Frame) :
    frame.pushScope.rename naming = (frame.rename naming).pushScope := by
  simp [rename, pushScope]

theorem rename_declare (frame : Frame) (shows : naming.Shows name) (kind : CellKind) :
    (frame.declare name kind).rename naming =
      (frame.rename naming).declare (naming.name name) kind := by
  obtain ⟨function, scopes⟩ := frame
  cases scopes with
  | nil => simp [rename, declare, Scope.rename_declare _ shows]
  | cons innermost outer => simp [rename, declare, Scope.rename_declare _ shows]

theorem find?_rename (frame : Frame) (shows : naming.Shows name) :
    (frame.rename naming).find? (naming.name name) = frame.find? name := by
  rw [find?, rename, List.findSome?_map]
  exact congrArg (fun find => frame.scopes.findSome? find)
    (funext fun scope => scope.find?_rename shows)

theorem assignIn?_rename (scopes : List Scope) (shows : naming.Shows name) (value : Option Word) :
    assignIn? (naming.name name) value (scopes.map (.rename naming)) =
      (assignIn? name value scopes).map (List.map (.rename naming)) := by
  induction scopes with
  | nil =>
      rfl
  | cons scope outer inductionHypothesis =>
      rw [List.map_cons, assignIn?, assignIn?, scope.assign?_rename shows]
      cases scope.assign? name value with
      | some assigned => rfl
      | none =>
          simp only [Option.map_none, inductionHypothesis, Option.map_map]
          rfl

theorem assign?_rename (frame : Frame) (shows : naming.Shows name) (value : Option Word) :
    (frame.rename naming).assign? (naming.name name) value =
      (frame.assign? name value).map (rename naming) := by
  rw [assign?, assign?, rename, assignIn?_rename _ shows, Option.map_map, Option.map_map]
  rfl

theorem popScope?_rename (frame : Frame) :
    (frame.rename naming).popScope? =
      frame.popScope?.map fun popped => (popped.1.rename naming, popped.2.rename naming) := by
  obtain ⟨function, scopes⟩ := frame
  match scopes with
  | [] | [_] | _ :: _ :: _ => rfl

end Frame

namespace CallStack

/-- The stack under the new names. -/
def rename (naming : Naming) (stack : CallStack) : CallStack :=
  ⟨stack.frames.map (.rename naming), stack.depth, by rw [List.length_map, stack.depth_eq]⟩

variable {name : String}

theorem current?_rename (stack : CallStack) :
    (stack.rename naming).current? = stack.current?.map (.rename naming) :=
  List.head?_map

theorem find?_rename (stack : CallStack) (shows : naming.Shows name) :
    (stack.rename naming).find? (naming.name name) = stack.find? name := by
  rw [find?, current?_rename, find?]
  cases stack.current? with
  | none => rfl
  | some frame => exact frame.find?_rename shows

theorem rename_ofFrames (frames : List Frame) :
    (ofFrames frames).rename naming = ofFrames (frames.map (.rename naming)) :=
  ext rfl

theorem rename_withCurrent (stack : CallStack) (frame : Frame) :
    (stack.withCurrent frame).rename naming =
      (stack.rename naming).withCurrent (frame.rename naming) := by
  apply ext
  simp only [rename, withCurrent]
  cases stack.frames <;> rfl

theorem assign?_rename (stack : CallStack) (shows : naming.Shows name) (value : Option Word) :
    (stack.rename naming).assign? (naming.name name) value =
      (stack.assign? name value).map (rename naming) := by
  rw [assign?, current?_rename, assign?]
  cases stack.current? with
  | none =>
      rfl
  | some frame =>
      simp only [Option.map_some, Option.bind_some, frame.assign?_rename shows, Option.map_map]
      exact congrArg (fun change => (frame.assign? name value).map change)
        (funext fun assigned => (stack.rename_withCurrent assigned).symm)

end CallStack

/-! ## Functions -/

/-- The function under the new names. -/
def FunctionDef.rename (naming : Naming) (definition : FunctionDef (List Command)) :
    FunctionDef (List Command) :=
  ⟨naming.function definition.name, definition.formals.map naming.name,
    naming.commands definition.body⟩

namespace FunctionTable

/-- The table under the new names. -/
def rename (naming : Naming) (table : FunctionTable (List Command)) :
    FunctionTable (List Command) :=
  ⟨rekey (fun name => some (naming.function name)) (.rename naming) table.functions⟩

variable (table : FunctionTable (List Command)) (name : String)

theorem find?_rename_eq_some_iff {new : String} {found : FunctionDef (List Command)} :
    (table.rename naming).find? new = some found ↔
      ∃ name definition, naming.function name = new ∧ table.find? name = some definition ∧
        definition.rename naming = found := by
  refine (getElem?_rekey ?_).trans ?_
  · intro key other new isKey isOther
    exact naming.function_injective (Option.some.inj (isKey.trans isOther.symm))
  · simp [find?]

/-- A function is found under its new name. -/
theorem find?_rename :
    (table.rename naming).find? (naming.function name) =
      (table.find? name).map (.rename naming) := by
  ext found
  rw [find?_rename_eq_some_iff, Option.map_eq_some_iff]
  constructor
  · rintro ⟨other, definition, sameName, isFound, rfl⟩
    rw [naming.function_injective sameName] at isFound
    exact ⟨definition, isFound, rfl⟩
  · rintro ⟨definition, isFound, rfl⟩
    exact ⟨name, definition, rfl, isFound, rfl⟩

theorem find?_rename_of_unused {new : String} (unused : ∀ name, naming.function name ≠ new) :
    (table.rename naming).find? new = none := by
  rw [Option.eq_none_iff_forall_ne_some]
  intro found isFound
  obtain ⟨name, _, sameName, _⟩ := (find?_rename_eq_some_iff table).mp isFound
  exact unused name sameName

theorem rename_register (formals : List String) (body : List Command) :
    (table.register name formals body).rename naming =
      (table.rename naming).register (naming.function name) (formals.map naming.name)
        (naming.commands body) := by
  refine ext fun new => ?_
  rw [find?_register]
  by_cases used : ∃ other, naming.function other = new
  · obtain ⟨other, rfl⟩ := used
    rw [find?_rename, find?_rename, find?_register]
    by_cases sameName : name = other
    · rw [if_pos sameName, if_pos (congrArg naming.function sameName)]
      rfl
    · rw [if_neg sameName, if_neg fun same => sameName (naming.function_injective same)]
  · have unused : ∀ other, naming.function other ≠ new := not_exists.mp used
    rw [find?_rename_of_unused _ unused, find?_rename_of_unused _ unused, if_neg (unused name)]

end FunctionTable

/-! ## The same names -/

/-- All names stay the same, but only the variables of some names are shown. -/
def Naming.showing (shown : String → Bool) : Naming where
  shown? name := if shown name then some name else none
  function := id
  place := id
  shown_injective := by grind
  function_injective same := same
  function_block := rfl

section Showing

variable {shown : String → Bool}

namespace Naming

theorem shows_showing {name : String} (isShown : shown name = true) :
    (showing shown).Shows name := by
  simp [Shows, showing, isShown]

theorem keepsNames_showing : (showing shown).KeepsNames := by
  unfold KeepsNames showing
  grind

@[simp] theorem name_showing : (showing shown).name = id := by
  funext name
  cases isShown : (showing shown).shown? name with
  | none => rw [Naming.name, isShown, Option.getD_none, id]
  | some same => rw [Naming.name, isShown, Option.getD_some, keepsNames_showing isShown, id]

@[simp] theorem function_showing : (showing shown).function = id :=
  rfl

@[simp] theorem commands_showing (commands : List Command) :
    (showing shown).commands commands = commands := by
  rw [Naming.commands, name_showing]
  exact renameAll_id commands

end Naming

/-- The functions are the same ones. -/
@[simp] theorem FunctionTable.rename_showing (table : FunctionTable (List Command)) :
    table.rename (.showing shown) = table := by
  refine ext fun name => ?_
  refine (table.find?_rename name).trans ?_
  cases table.find? name <;> simp [FunctionDef.rename]

end Showing

end RefScript
