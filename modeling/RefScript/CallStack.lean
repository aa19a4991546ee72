import RefScript.Scope

namespace RefScript

/-!
# Frames and the call stack

A frame is one activation: a stack of nested scopes under the name of the
function it belongs to. Looking a name up in a frame searches that frame's own
scopes from the innermost outward and nothing else; callers are never
searched. The call stack holds the active frames, the current one first.
-/

/-- One activation, with its scopes from the innermost outward. -/
structure Frame where
  function : String
  /-- The nested scopes, innermost first; the last one is the base scope. -/
  scopes : List Scope
  deriving DecidableEq

namespace Frame

/-- A frame whose only scope is the given one. -/
def withScope (function : String) (scope : Scope) : Frame :=
  ⟨function, [scope]⟩

/-- A frame with one scope that binds nothing. -/
def withEmptyScope (function : String) : Frame :=
  withScope function Scope.empty

/-- Open a scope inside the current one. -/
def pushScope (frame : Frame) : Frame :=
  { frame with scopes := Scope.empty :: frame.scopes }

/--
Close the innermost scope, giving it and the frame without it.

The base scope is not closed here: it ends with its frame.
-/
def popScope? (frame : Frame) : Option (Scope × Frame) :=
  match frame.scopes with
  | innermost :: next :: outer =>
      some (innermost, { frame with scopes := next :: outer })
  | _ => none

/-- The number of nested scopes. -/
def scopeDepth (frame : Frame) : Nat :=
  frame.scopes.length

/-- Declare a name in the innermost scope; a frame without scopes gains one. -/
def declare (frame : Frame) (name : String) (kind : CellKind) : Frame :=
  match frame.scopes with
  | [] => { frame with scopes := [Scope.empty.declare name kind] }
  | innermost :: outer =>
      { frame with scopes := innermost.declare name kind :: outer }

/-- The cell a name has in the innermost scope that binds it. -/
def find? (frame : Frame) (name : String) : Option Cell :=
  frame.scopes.findSome? fun scope => scope.find? name

/-- Assign a raw value in the innermost of the given scopes that binds the name. -/
def assignIn? (name : String) (value : Option Word) : List Scope → Option (List Scope)
  | [] => none
  | scope :: outer =>
      match scope.assign? name value with
      | some assigned => some (assigned :: outer)
      | none => (assignIn? name value outer).map (scope :: ·)

/-- Give the cell that a name designates in this frame another raw value. -/
def assign? (frame : Frame) (name : String) (value : Option Word) : Option Frame :=
  (assignIn? name value frame.scopes).map fun scopes => { frame with scopes }

theorem scopes_pushScope_ne_nil (frame : Frame) : frame.pushScope.scopes ≠ [] :=
  List.cons_ne_nil _ _

/-- Exactly a scope with another one around it is closed; the frame keeps the others. -/
theorem popScope?_eq_some_iff {frame outer : Frame} {scope : Scope} :
    frame.popScope? = some (scope, outer) ↔
      frame = ⟨outer.function, scope :: outer.scopes⟩ ∧ outer.scopes ≠ [] := by
  obtain ⟨function, scopes⟩ := frame
  obtain ⟨outerFunction, outerScopes⟩ := outer
  unfold popScope?
  match scopes with
  | [] => simp
  | [innermost] =>
      constructor
      · intro popped
        contradiction
      · rintro ⟨shape, nonempty⟩
        simp only [Frame.mk.injEq, List.cons.injEq] at shape
        exact (nonempty shape.2.2.symm).elim
  | innermost :: next :: rest =>
      simp only [Option.some.injEq, Prod.mk.injEq, Frame.mk.injEq, List.cons.injEq]
      constructor
      · rintro ⟨rfl, rfl, rfl⟩
        simp
      · rintro ⟨⟨rfl, rfl, rfl⟩, _⟩
        simp

theorem assignIn?_eq_none_iff
    {name : String} {value : Option Word} {scopes : List Scope} :
    assignIn? name value scopes = none ↔
      scopes.findSome? (fun scope => scope.find? name) = none := by
  induction scopes with
  | nil =>
      simp [assignIn?]
  | cons scope outer inductionHypothesis =>
      unfold assignIn?
      cases here : scope.assign? name value with
      | none =>
          simp [Scope.assign?_eq_none_iff.mp here, inductionHypothesis]
      | some assigned =>
          have bound : scope.find? name ≠ none := fun unbound => by
            simp [Scope.assign?_eq_none_iff.mpr unbound] at here
          simp [bound]

/-- An assignment gives one cell another raw value: the innermost one of the name. -/
theorem assignIn?_eq_some
    {name : String} {value : Option Word} {scopes assigned : List Scope}
    (done : assignIn? name value scopes = some assigned) :
    ∃ inner scope outer cell,
      scopes = inner ++ scope :: outer ∧
        (∀ other ∈ inner, other.find? name = none) ∧
        scope.find? name = some cell ∧
        assigned = inner ++ scope.bind name (cell.assign value) :: outer := by
  induction scopes generalizing assigned with
  | nil =>
      contradiction
  | cons scope outer inductionHypothesis =>
      unfold assignIn? Scope.assign? at done
      cases found : scope.find? name with
      | some cell =>
          simp only [found, Option.some.injEq] at done
          exact ⟨[], scope, outer, cell, rfl, by simp, found, done.symm⟩
      | none =>
          simp only [found, Option.map_eq_some_iff] at done
          obtain ⟨_, further, rfl⟩ := done
          obtain ⟨inner, target, rest, cell, rfl, unbound, foundThere, rfl⟩ :=
            inductionHypothesis further
          exact ⟨scope :: inner, target, rest, cell, rfl, by simpa [found] using unbound,
            foundThere, rfl⟩

/-- A name can be assigned to in a frame exactly if a scope of the frame binds it. -/
theorem assign?_eq_none_iff {frame : Frame} {name : String} {value : Option Word} :
    frame.assign? name value = none ↔ frame.find? name = none := by
  rw [assign?, Option.map_eq_none_iff, assignIn?_eq_none_iff, find?]

end Frame

/--
The active frames, the current one first.

The depth is kept beside the frames, because it is asked for at every push.
-/
structure CallStack where
  /-- The frames from the current one to the outermost. -/
  frames : List Frame
  depth : Nat
  depth_eq : depth = frames.length

namespace CallStack

/-- The stack of the given frames. -/
def ofFrames (frames : List Frame) : CallStack :=
  ⟨frames, frames.length, rfl⟩

/-- The stack without frames: execution is at the top level. -/
def empty : CallStack :=
  ofFrames []

/-- Whether no frame is active. -/
def isEmpty (stack : CallStack) : Bool :=
  stack.frames.isEmpty

/-- The frame on top, if one is active. -/
def current? (stack : CallStack) : Option Frame :=
  stack.frames.head?

/-- Activate a frame. -/
def push (stack : CallStack) (frame : Frame) : CallStack :=
  ⟨frame :: stack.frames, stack.depth + 1, by rw [stack.depth_eq, List.length_cons]⟩

/-- Remove the current frame, giving it and the stack below it. -/
def pop? (stack : CallStack) : Option (Frame × CallStack) :=
  match active : stack.frames with
  | [] => none
  | frame :: callers =>
      some (frame, ⟨callers, stack.depth - 1, by simp [stack.depth_eq, active]⟩)

/-- The given frame in place of the first one, if there is a first one. -/
def replaceFirst (frame : Frame) : List Frame → List Frame
  | [] => []
  | _ :: callers => frame :: callers

@[simp] theorem length_replaceFirst (frame : Frame) (frames : List Frame) :
    (replaceFirst frame frames).length = frames.length := by
  cases frames <;> rfl

/-- The same stack with another current frame. -/
def withCurrent (stack : CallStack) (frame : Frame) : CallStack :=
  ⟨replaceFirst frame stack.frames, stack.depth, by
    rw [length_replaceFirst, stack.depth_eq]⟩

/-- The number of scopes of the current frame. -/
def scopeDepth? (stack : CallStack) : Option Nat :=
  stack.current?.map Frame.scopeDepth

/-- The cell that a name designates in the current frame. -/
def find? (stack : CallStack) (name : String) : Option Cell :=
  stack.current?.bind fun frame => frame.find? name

/-- Give the cell that a name designates in the current frame another raw value. -/
def assign? (stack : CallStack) (name : String) (value : Option Word) : Option CallStack :=
  stack.current?.bind fun frame => (frame.assign? name value).map stack.withCurrent

/-- Stacks of the same frames are equal. -/
@[ext] theorem ext {left right : CallStack} (sameFrames : left.frames = right.frames) :
    left = right := by
  obtain ⟨leftFrames, leftDepth, leftCounted⟩ := left
  obtain ⟨rightFrames, rightDepth, rightCounted⟩ := right
  cases sameFrames
  cases leftCounted
  cases rightCounted
  rfl

instance : DecidableEq CallStack := fun left right =>
  decidable_of_iff (left.frames = right.frames) ⟨ext, congrArg frames⟩

/-- The current frame is the first of the list. -/
theorem current?_eq_some_iff {stack : CallStack} {frame : Frame} :
    stack.current? = some frame ↔
      ∃ callers, stack.frames = frame :: callers := by
  unfold current?
  cases stack.frames <;> simp

theorem current?_of_frames
    {stack : CallStack}
    {frame : Frame}
    {callers : List Frame}
    (active : stack.frames = frame :: callers) :
    stack.current? = some frame :=
  current?_eq_some_iff.mpr ⟨callers, active⟩

/-- No frame is current exactly outside all frames. -/
theorem current?_eq_none_iff {stack : CallStack} :
    stack.current? = none ↔ stack.frames = [] := by
  unfold current?
  cases stack.frames <;> simp

/-- Replacing the current frame leaves its callers in place. -/
theorem withCurrent_eq
    {stack : CallStack}
    {current frame : Frame}
    {callers : List Frame}
    (active : stack.frames = current :: callers) :
    stack.withCurrent frame = ofFrames (frame :: callers) := by
  apply ext
  simp [withCurrent, active, replaceFirst, ofFrames]

theorem push_eq (stack : CallStack) (frame : Frame) :
    stack.push frame = ofFrames (frame :: stack.frames) :=
  ext rfl

@[simp] theorem frames_push (stack : CallStack) (frame : Frame) :
    (stack.push frame).frames = frame :: stack.frames :=
  rfl

/-- Popping gives back the frame that was pushed last, and what was below it. -/
theorem pop?_eq_some_iff {stack callers : CallStack} {frame : Frame} :
    stack.pop? = some (frame, callers) ↔ stack = callers.push frame := by
  unfold pop?
  split
  case h_1 active =>
    constructor
    · intro popped
      contradiction
    · intro pushed
      rw [pushed] at active
      contradiction
  case h_2 current rest active =>
    constructor
    · intro popped
      cases popped
      exact ext active
    · intro pushed
      have sameFrames := active.symm.trans (congrArg frames pushed)
      cases sameFrames
      simp only [Option.some.injEq, Prod.mk.injEq, true_and]
      exact ext rfl

/-- What is below the current frame are its callers. -/
theorem pop?_of_frames
    {stack : CallStack}
    {frame : Frame}
    {callers : List Frame}
    (active : stack.frames = frame :: callers) :
    stack.pop? = some (frame, ofFrames callers) :=
  pop?_eq_some_iff.mpr (ext active)

/-- Exactly the empty stack has nothing to pop. -/
theorem pop?_eq_none_iff {stack : CallStack} : stack.pop? = none ↔ stack = empty := by
  unfold pop?
  split
  case h_1 active =>
    exact ⟨fun _ => ext active, fun _ => rfl⟩
  case h_2 active =>
    constructor
    · intro popped
      contradiction
    · intro isEmpty
      rw [isEmpty] at active
      contradiction

/-- A name can be assigned to exactly if it is bound in the current frame. -/
theorem assign?_eq_none_iff {stack : CallStack} {name : String} {value : Option Word} :
    stack.assign? name value = none ↔ stack.find? name = none := by
  unfold assign? find?
  cases stack.current? <;> simp [Frame.assign?_eq_none_iff]

end CallStack

end RefScript
