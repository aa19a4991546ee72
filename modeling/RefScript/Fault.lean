namespace RefScript

/-!
# Faults

A fault is what stops a program while it runs. It keeps its cause; the wording
is a function of the cause.
-/

/-- The actions that need an active frame. -/
inductive FrameAction where
  | pushScope
  | popScope
  | popFrame
  deriving DecidableEq, Repr

/-- The name of an action in messages. -/
def FrameAction.text : FrameAction → String
  | pushScope => "push_scope"
  | popScope => "pop_scope"
  | popFrame => "pop_frame"

/-- Why an action was refused. -/
inductive Fault where
  /-- The name is bound neither in the current frame nor globally. -/
  | undefinedName (name : String)
  /-- Read through a reference that designates no filled slot. -/
  | invalidRead (name : String)
  | invalidWrite (name : String)
  | notARef (name : String)
  | undefinedFunction (name : String)
  /-- Every literal of the data text has been read. -/
  | dataExhausted
  /-- The action needs a frame and none is active. -/
  | noFrame (action : FrameAction)
  /-- The base scope of a frame ends only with the frame. -/
  | scopeUnderflow (function : String)
  | argumentCount (function : String) (expected got : Nat)
  /-- The next handle fits in no word. -/
  | heapExhausted
  /-- Another frame would exceed the limit. -/
  | callDepth (limit : Nat)
  deriving DecidableEq, Repr

/-- The wording of a fault. -/
def Fault.message : Fault → String
  | undefinedName name => s!"undefined identifier '{name}'"
  | invalidRead name => s!"invalid heap read attempted through '{name}'"
  | invalidWrite name => s!"invalid heap write attempted through '{name}'"
  | notARef name => s!"'{name}' is not of type ref, cannot perform new-assign"
  | undefinedFunction name => s!"function call {name} has no target"
  | dataExhausted => "data file is out of values"
  | noFrame action => s!"no stack frame available for {action.text}"
  | scopeUnderflow function => s!"scope stack underflow in frame '{function}'"
  | argumentCount function expected got =>
      s!"function '{function}' expects {expected} argument(s), got {got}"
  | heapExhausted => "heap is out of addressable handles"
  | callDepth limit => s!"call depth limit of {limit} exceeded"

end RefScript
