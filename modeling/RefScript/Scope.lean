import Std.Data.ExtTreeMap
import RefScript.Cell

namespace RefScript

/-!
# Scopes

A scope is a finite map from names to the cells declared in one block. The
table of globals is a scope too. Two scopes are equal exactly when they bind
the same names to the same cells, whatever the order of the declarations.
-/

/-- The cells declared in one block, by name. -/
structure Scope where
  cells : Std.ExtTreeMap String Cell
  deriving DecidableEq

namespace Scope

/-- The scope without bindings. -/
def empty : Scope :=
  ⟨∅⟩

/-- The cell bound to a name. -/
def find? (scope : Scope) (name : String) : Option Cell :=
  scope.cells[name]?

/-- Whether a name is bound. -/
def binds (scope : Scope) (name : String) : Bool :=
  scope.cells.contains name

/-- Bind a name to a cell; an earlier binding of the name is lost. -/
def bind (scope : Scope) (name : String) (cell : Cell) : Scope :=
  ⟨scope.cells.insert name cell⟩

/-- Bind a name to a fresh cell of the given kind. -/
def declare (scope : Scope) (name : String) (kind : CellKind) : Scope :=
  scope.bind name (Cell.fresh kind)

/-- Give the cell of a bound name another raw value. -/
def assign? (scope : Scope) (name : String) (value : Option Word) : Option Scope :=
  match scope.find? name with
  | none => none
  | some cell => some (scope.bind name (cell.assign value))

/-- The number of bound names. -/
def size (scope : Scope) : Nat :=
  scope.cells.size

/-- Whether nothing is bound. -/
def isEmpty (scope : Scope) : Bool :=
  scope.cells.isEmpty

/-- The bindings in ascending order of the names. -/
def toList (scope : Scope) : List (String × Cell) :=
  scope.cells.toList

/-- The raw values of the bound references, in ascending order of the names. -/
def boundRefs (scope : Scope) : List Word :=
  scope.toList.filterMap fun binding => binding.2.boundRef?

@[simp] theorem find?_empty (name : String) : empty.find? name = none := by
  simp [empty, find?]

theorem find?_bind (scope : Scope) (name other : String) (cell : Cell) :
    (scope.bind name cell).find? other =
      if name = other then some cell else scope.find? other := by
  simp [bind, find?, Std.ExtTreeMap.getElem?_insert]

/-- A name can be assigned to exactly if it is bound. -/
theorem assign?_eq_none_iff {scope : Scope} {name : String} {value : Option Word} :
    scope.assign? name value = none ↔ scope.find? name = none := by
  unfold assign?
  cases scope.find? name <;> simp

/-- Scopes with the same look-ups are equal. -/
@[ext] theorem ext {left right : Scope}
    (sameLookup : ∀ name, left.find? name = right.find? name) : left = right := by
  cases left with
  | mk leftCells =>
    cases right with
    | mk rightCells =>
      congr
      exact Std.ExtTreeMap.ext_getElem? sameLookup

/-- The listing shows exactly the bindings. -/
theorem mem_toList {scope : Scope} {name : String} {cell : Cell} :
    (name, cell) ∈ scope.toList ↔ scope.find? name = some cell := by
  simp [toList, find?]

end Scope

end RefScript
