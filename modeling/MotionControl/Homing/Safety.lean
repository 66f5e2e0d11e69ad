import MotionControl.Error

/-! What keeps a homing cycle from starting, and what ends one early. -/
namespace MotionControl

/-- Safety inputs looked at before a cycle starts. -/
structure SafetyInputs where
  doorAjar : Bool := false
  /-- Control pins that are asserted. -/
  activePins : List String := []
  deriving DecidableEq, Repr

/-- The door comes before the pins, and of these the first one counts. -/
def SafetyInputs.check (s : SafetyInputs) : Except HomingError Unit :=
  if s.doorAjar then .error (.safetyInterlock "safety door")
  else match s.activePins with
    | pin :: _ => .error (.safetyInterlock pin)
    | [] => .ok ()

/-- Why a cycle ended without homing its axes. -/
inductive AbortReason where
  | cancelled
  | eStop
  | alarm
  | safetyDoor
  /-- The approach finished before every switch tripped. -/
  | approachFailed
  deriving DecidableEq, Repr

def AbortReason.text : AbortReason → String
  | cancelled => "cancelled"
  | eStop => "emergency stop"
  | alarm => "alarm"
  | safetyDoor => "safety door"
  | approachFailed => "limit switch not found"

end MotionControl
