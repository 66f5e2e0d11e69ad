import MotionControl.Axes.AxisMask

/-! Which axes have a reference, and where the homing sequence stands. -/
namespace MotionControl

inductive HomingPhase where
  /-- No cycle has run since the last reset. -/
  | idle
  | cycleActive (axes : AxisMask)
  | done (axes : AxisMask)
  | aborted (axes : AxisMask)
  deriving DecidableEq, Repr

def HomingPhase.text : HomingPhase → String
  | idle => "Idle"
  | cycleActive axes => s!"Homing {axes}"
  | done axes => s!"Homed {axes}"
  | aborted axes => s!"Aborted {axes}"

structure HomingStatus where
  /-- Axes with a confirmed reference. -/
  homed : AxisMask := .none
  phase : HomingPhase := .idle
  deriving DecidableEq, Repr

namespace HomingStatus

/-- The axes of the cycle in progress. -/
def activeCycle (s : HomingStatus) : Option AxisMask :=
  match s.phase with
  | .cycleActive axes => some axes
  | _ => none

def isHomed (s : HomingStatus) (axes : AxisMask) : Bool := s.homed.containsAll axes

/-- The axes of a cycle lose their reference when it begins. -/
def begin (s : HomingStatus) (axes : AxisMask) : HomingStatus :=
  ⟨s.homed - axes, .cycleActive axes⟩

def complete (s : HomingStatus) (axes : AxisMask) : HomingStatus := ⟨s.homed ||| axes, .done axes⟩

def abort (s : HomingStatus) (axes : AxisMask) : HomingStatus := { s with phase := .aborted axes }

def markHomed (s : HomingStatus) (axes : AxisMask) : HomingStatus :=
  { s with homed := s.homed ||| axes }

end HomingStatus

end MotionControl
