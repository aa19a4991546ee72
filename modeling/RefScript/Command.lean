import RefScript.Cell
import RefScript.Text.Position

namespace RefScript

/-!
# Commands

A script is a list of commands, one on a line, some of which hold a body of
commands of their own. A command knows the position of its first token; two
scripts that differ in positions alone mean the same.
-/

/-- One command of a script. -/
inductive Command where
  | declare (kind : CellKind) (name : String) (position : Position)
  /-- Bind a reference to a fresh heap slot. -/
  | allocate (name : String) (position : Position)
  | assign (name : String) (value : Word) (position : Position)
  /-- Copy the raw value of a variable. -/
  | copy (target source : String) (position : Position)
  /-- Write the next literal of the data text to a variable. -/
  | input (name : String) (position : Position)
  | print (name : String) (position : Position)
  /-- Run a body in a scope of its own. -/
  | block (body : List Command) (position : Position)
  /-- Run a body in a frame of its own. -/
  | frame (body : List Command) (position : Position)
  | function
      (name : String)
      (formals : List String)
      (body : List Command)
      (position : Position)
  | call (name : String) (actuals : List String) (position : Position)

namespace Command

/-- Where the command starts. -/
def position : Command → Position
  | declare _ _ position
  | allocate _ position
  | assign _ _ position
  | copy _ _ position
  | input _ position
  | print _ position
  | block _ position
  | frame _ position
  | function _ _ _ position
  | call _ _ position => position

/-- Whether the command registers a function. -/
def isFunction : Command → Bool
  | function .. => true
  | _ => false

end Command

end RefScript
