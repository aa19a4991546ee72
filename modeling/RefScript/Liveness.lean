import RefScript.Word

namespace RefScript

/-!
# Liveness of handles

Every allocated handle has a flag that says whether the reference that was
bound to it first is still in scope. A flag is no count of references: an
alias never raises it, and the first reference to go out of scope clears it
for all. The number of raised flags is recounted on request and reported when
it differs from the last report.
-/

/-- A raw value given up by a reference that designates no tracked handle. -/
structure StrayRef where
  raw : Word
  /-- The number of tracked handles at that moment. -/
  tracked : Nat
  deriving DecidableEq, Repr

/-- One flag per tracked handle, and the count that was reported last. -/
structure Liveness where
  flags : Array Bool
  /-- The number of raised flags at the last recount. -/
  reachable : Nat
  deriving DecidableEq

namespace Liveness

/-- No handle is tracked and none was reported. -/
def empty : Liveness :=
  ⟨#[], 0⟩

/-- The number of tracked handles. -/
def size (liveness : Liveness) : Nat :=
  liveness.flags.size

/-- Whether no handle is tracked. -/
def isEmpty (liveness : Liveness) : Bool :=
  liveness.flags.isEmpty

/-- Whether a handle is tracked with its flag raised. -/
def isLive (liveness : Liveness) (handle : Handle) : Bool :=
  liveness.flags.getD handle false

/-- The number of raised flags. -/
def liveCount (liveness : Liveness) : Nat :=
  liveness.flags.count true

/--
Raise the flag of a handle.

The handle after the last tracked one is appended, and a tracked handle has its
flag raised again. A handle further on is appended too; the handles it skips
become tracked with their flags down.
-/
def trackLive (liveness : Liveness) (handle : Handle) : Liveness :=
  if handle = liveness.size then
    { liveness with flags := liveness.flags.push true }
  else if handle < liveness.size then
    { liveness with flags := liveness.flags.setIfInBounds handle true }
  else
    { liveness with
      flags :=
        (liveness.flags ++ Array.replicate (handle - liveness.size) false).push true }

/-- Clear the flag of the handle that a raw value spells, if it is tracked. -/
def markDead? (liveness : Liveness) (raw : Word) : Option Liveness :=
  match Word.toHandle? raw with
  | none => none
  | some handle =>
      if handle < liveness.size then
        some { liveness with flags := liveness.flags.setIfInBounds handle false }
      else
        none

/-- Count the raised flags, giving the count if it is not the one reported last. -/
def recount (liveness : Liveness) : Option Nat × Liveness :=
  if liveness.liveCount = liveness.reachable then
    (none, liveness)
  else
    (some liveness.liveCount, { liveness with reachable := liveness.liveCount })

end Liveness

end RefScript
