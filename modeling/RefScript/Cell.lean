import RefScript.Word

namespace RefScript

/-!
# Variable cells

A cell is the storage behind one declared name. Its kind is fixed when it is
declared; its raw value is shared by both kinds, so that aliasing and
parameter passing copy the raw value without looking at the kind.
-/

/-- What a variable was declared to be. -/
inductive CellKind where
  /-- The raw value is the scalar itself. -/
  | int
  /-- The raw value is the handle of a heap slot. -/
  | ref
  deriving DecidableEq, Repr

/-- The storage of one variable. -/
structure Cell where
  kind : CellKind
  /-- The raw value; a reference without one is unbound. -/
  value : Option Word
  deriving DecidableEq, Repr

namespace Cell

/-- A freshly declared cell: integers start at zero, references unbound. -/
def fresh : CellKind → Cell
  | .int => ⟨.int, some 0⟩
  | .ref => ⟨.ref, none⟩

/-- A reference cell that carries a raw value taken from another cell. -/
def rawRef (value : Option Word) : Cell :=
  ⟨.ref, value⟩

/-- Whether the cell was declared as a reference. -/
def isRef (cell : Cell) : Bool :=
  cell.kind = .ref

/--
The heap slot a reference cell designates.

An integer cell designates none, and neither does a reference that is unbound
or whose raw value is negative.
-/
def handle? (cell : Cell) : Option Handle :=
  match cell.kind with
  | .int => none
  | .ref => cell.value.bind Word.toHandle?

/-- The raw value a reference cell gives up when its scope ends. -/
def boundRef? (cell : Cell) : Option Word :=
  match cell.kind with
  | .int => none
  | .ref => cell.value

/-- The same cell with another raw value. -/
def assign (cell : Cell) (value : Option Word) : Cell :=
  ⟨cell.kind, value⟩

end Cell

end RefScript
