import RefScript.CallStack

namespace RefScript

/-!
# The shape of scopes and frames

The shape of a scope is the set of names it binds, each with the kind of its
cell; the raw values are left out. Assignments keep the shape of every scope,
and a declaration changes it for one name in the innermost scope alone.
-/

namespace Scope

/-- The names that a scope binds, with the kinds of their cells. -/
def kinds (scope : Scope) (name : String) : Option CellKind :=
  (scope.find? name).map Cell.kind

/--
The later scope binds the declared names with the declared kinds, and all
other names as before.
-/
def Redeclared
    (declared : String → Option CellKind)
    (before after : Scope) : Prop :=
  ∀ name, after.kinds name = (declared name).or (before.kinds name)

/-- Without declarations, the shape stays. -/
theorem redeclared_none_iff {before after : Scope} :
    Redeclared (fun _ => none) before after ↔ after.kinds = before.kinds := by
  simp [Redeclared, funext_iff]

/-- Of two declarations of a name, the later one counts. -/
theorem Redeclared.trans
    {declaredFirst declaredSecond : String → Option CellKind}
    {before between after : Scope}
    (first : Redeclared declaredFirst before between)
    (second : Redeclared declaredSecond between after) :
    Redeclared (fun name => (declaredSecond name).or (declaredFirst name))
      before after := by
  intro name
  rw [second name, first name, Option.or_assoc]

/-- A declaration binds one name, with the declared kind. -/
theorem redeclared_declare (scope : Scope) (name : String) (kind : CellKind) :
    Redeclared (fun other => if name = other then some kind else none)
      scope (scope.declare name kind) := by
  intro other
  simp only [kinds, declare, find?_bind]
  by_cases sameName : name = other
  · cases kind <;> simp [sameName, Cell.fresh]
  · simp [sameName]

/-- An assignment keeps the kind of every cell. -/
theorem kinds_of_assign?
    {scope assigned : Scope}
    {name : String}
    {value : Option Word}
    (done : scope.assign? name value = some assigned) :
    assigned.kinds = scope.kinds := by
  unfold assign? at done
  cases found : scope.find? name with
  | none =>
      simp [found] at done
  | some cell =>
      simp only [found, Option.some.injEq] at done
      subst done
      funext other
      simp only [kinds, find?_bind]
      by_cases sameName : name = other
      · subst other
        simp [found, Cell.assign]
      · simp [sameName]

end Scope

namespace Frame

/--
The later frame belongs to the same function and has equally many scopes. The
declared names are bound in the innermost one, and all else is bound as before.
-/
inductive Redeclared (declared : String → Option CellKind) : Frame → Frame → Prop where
  | intro
      {function : String}
      {innermost innermost' : Scope}
      {outer outer' : List Scope}
      (inner : Scope.Redeclared declared innermost innermost')
      (rest : outer'.map Scope.kinds = outer.map Scope.kinds) :
      Redeclared declared
        ⟨function, innermost :: outer⟩
        ⟨function, innermost' :: outer'⟩

namespace Redeclared

variable {declared : String → Option CellKind} {before after : Frame}

theorem function_eq (kept : Redeclared declared before after) :
    after.function = before.function := by
  cases kept
  rfl

theorem scopes_ne_nil (kept : Redeclared declared before after) :
    after.scopes ≠ [] := by
  cases kept
  simp

theorem scopeDepth_eq (kept : Redeclared declared before after) :
    after.scopeDepth = before.scopeDepth := by
  cases kept with
  | intro inner rest =>
      have sameLength := congrArg List.length rest
      simpa [scopeDepth] using sameLength

theorem trans
    {declaredFirst declaredSecond : String → Option CellKind}
    {between : Frame}
    (first : Redeclared declaredFirst before between)
    (second : Redeclared declaredSecond between after) :
    Redeclared (fun name => (declaredSecond name).or (declaredFirst name))
      before after := by
  cases first with
  | intro inner rest =>
      cases second with
      | intro laterInner laterRest =>
          exact .intro (inner.trans laterInner) (laterRest.trans rest)

end Redeclared

/-- Frames of one function with scopes of the same shape, at least one each. -/
theorem redeclared_of_kinds_eq
    {before after : Frame}
    (sameFunction : after.function = before.function)
    (nonempty : before.scopes ≠ [])
    (sameKinds : after.scopes.map Scope.kinds = before.scopes.map Scope.kinds) :
    Redeclared (fun _ => none) before after := by
  obtain ⟨function, scopes⟩ := before
  obtain ⟨laterFunction, laterScopes⟩ := after
  cases sameFunction
  cases scopes with
  | nil =>
      exact (nonempty rfl).elim
  | cons innermost outer =>
      cases laterScopes with
      | nil =>
          simp at sameKinds
      | cons laterInnermost laterOuter =>
          simp only [List.map_cons, List.cons.injEq] at sameKinds
          exact .intro (Scope.redeclared_none_iff.mpr sameKinds.1) sameKinds.2

theorem redeclared_refl {frame : Frame} (nonempty : frame.scopes ≠ []) :
    Redeclared (fun _ => none) frame frame :=
  redeclared_of_kinds_eq rfl nonempty rfl

/-- A declaration goes to the innermost scope, if the frame has one. -/
theorem redeclared_declare
    {frame : Frame}
    (nonempty : frame.scopes ≠ [])
    (name : String)
    (kind : CellKind) :
    Redeclared (fun other => if name = other then some kind else none)
      frame (frame.declare name kind) := by
  obtain ⟨function, scopes⟩ := frame
  cases scopes with
  | nil =>
      exact (nonempty rfl).elim
  | cons innermost outer =>
      exact .intro (Scope.redeclared_declare innermost name kind) rfl

/-- An assignment keeps the shape of every scope it passes. -/
theorem kinds_of_assignIn?
    {name : String}
    {value : Option Word}
    {scopes assigned : List Scope}
    (done : assignIn? name value scopes = some assigned) :
    assigned.map Scope.kinds = scopes.map Scope.kinds := by
  induction scopes generalizing assigned with
  | nil =>
      simp [assignIn?] at done
  | cons scope outer inductionHypothesis =>
      unfold assignIn? at done
      cases here : scope.assign? name value with
      | some assignedHere =>
          simp only [here, Option.some.injEq] at done
          subst done
          simp [Scope.kinds_of_assign? here]
      | none =>
          simp only [here, Option.map_eq_some_iff] at done
          obtain ⟨assignedOuter, further, rfl⟩ := done
          simp [inductionHypothesis further]

/-- An assignment that succeeds has found a scope, and keeps the frame's shape. -/
theorem redeclared_of_assign?
    {frame assigned : Frame}
    {name : String}
    {value : Option Word}
    (done : frame.assign? name value = some assigned) :
    Redeclared (fun _ => none) frame assigned := by
  unfold assign? at done
  simp only [Option.map_eq_some_iff] at done
  obtain ⟨scopes, scopesAssigned, rfl⟩ := done
  have nonempty : frame.scopes ≠ [] := by
    intro isEmpty
    simp [isEmpty, assignIn?] at scopesAssigned
  exact redeclared_of_kinds_eq rfl nonempty (kinds_of_assignIn? scopesAssigned)

/-- A scope that was opened in a frame can be closed again, which restores the frame's shape. -/
theorem popScope?_of_redeclared
    {declared : String → Option CellKind}
    {frame inside : Frame}
    (nonempty : frame.scopes ≠ [])
    (kept : Redeclared declared frame.pushScope inside) :
    ∃ scope outer,
      inside.popScope? = some (scope, outer) ∧
        Redeclared (fun _ => none) frame outer := by
  obtain ⟨function, scopes⟩ := frame
  simp only [pushScope] at kept
  cases kept with
  | @intro _ _ innermost _ outer inner rest =>
      have restored : Redeclared (fun _ => none) ⟨function, scopes⟩ ⟨function, outer⟩ :=
        redeclared_of_kinds_eq rfl nonempty rest
      refine ⟨innermost, ⟨function, outer⟩, ?_, restored⟩
      exact popScope?_eq_some_iff.mpr ⟨rfl, restored.scopes_ne_nil⟩

end Frame

end RefScript
