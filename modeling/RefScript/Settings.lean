import RefScript.Report

namespace RefScript

/-!
# Settings

The settings of a run: whether changes of the live count are shown, and how
many frames may be active at once.
-/

/-- What can be chosen for a run. -/
structure Settings where
  /-- Whether changes of the live count go to the console; they are counted anyway. -/
  reportLiveness : Bool
  /-- The greatest number of active frames. -/
  maxCallDepth : Nat
  deriving DecidableEq, Repr

namespace Settings

/-- Reports are shown, and a thousand frames may be active. -/
def standard : Settings :=
  ⟨true, 1000⟩

/-- The same settings without reports. -/
def quiet (settings : Settings) : Settings :=
  { settings with reportLiveness := false }

/-- The same settings with another limit on the frames. -/
def withMaxCallDepth (settings : Settings) (limit : Nat) : Settings :=
  { settings with maxCallDepth := limit }

/-- The reporter that the settings ask for. -/
def reporter (settings : Settings) : Reporter :=
  if settings.reportLiveness then .console else .silent

end Settings

end RefScript
