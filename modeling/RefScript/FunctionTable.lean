import Std.Data.ExtTreeMap

namespace RefScript

/-!
# Functions

The table of functions maps a name to its formal parameters and its body. What
a body is depends on who executes it, so the table is generic in its type.
-/

/-- A registered function. -/
structure FunctionDef (Body : Type) where
  name : String
  /-- The formal parameters in order; a name may occur more than once. -/
  formals : List String
  body : Body
  deriving DecidableEq, Repr

/-- The registered functions by name. -/
structure FunctionTable (Body : Type) where
  functions : Std.ExtTreeMap String (FunctionDef Body)

namespace FunctionTable

variable {Body : Type}

/-- The table without functions. -/
def empty : FunctionTable Body :=
  ⟨∅⟩

/-- The function registered under a name. -/
def find? (table : FunctionTable Body) (name : String) : Option (FunctionDef Body) :=
  table.functions[name]?

/-- Register a function; an earlier one of the same name is lost. -/
def register
    (table : FunctionTable Body)
    (name : String)
    (formals : List String)
    (body : Body) :
    FunctionTable Body :=
  ⟨table.functions.insert name ⟨name, formals, body⟩⟩

/-- Whether a function is registered under a name. -/
def contains (table : FunctionTable Body) (name : String) : Bool :=
  table.functions.contains name

/-- The number of registered functions. -/
def size (table : FunctionTable Body) : Nat :=
  table.functions.size

/-- Whether no function is registered. -/
def isEmpty (table : FunctionTable Body) : Bool :=
  table.functions.isEmpty

/-- The functions in ascending order of their names. -/
def toList (table : FunctionTable Body) : List (FunctionDef Body) :=
  table.functions.toList.map Prod.snd

theorem find?_register
    (table : FunctionTable Body)
    (name other : String)
    (formals : List String)
    (body : Body) :
    (table.register name formals body).find? other =
      if name = other then some ⟨name, formals, body⟩ else table.find? other := by
  simp [register, find?, Std.ExtTreeMap.getElem?_insert]

/-- Tables with the same look-ups are equal. -/
@[ext] theorem ext {left right : FunctionTable Body}
    (sameLookup : ∀ name, left.find? name = right.find? name) : left = right := by
  cases left with
  | mk leftFunctions =>
    cases right with
    | mk rightFunctions =>
      congr
      exact Std.ExtTreeMap.ext_getElem? sameLookup

end FunctionTable

end RefScript
