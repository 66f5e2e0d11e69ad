/-! What can go wrong in each layer, and the sentence reported for it. -/
namespace MotionControl

/-- A call that breaks the contract of the operation. It ends the calculation it occurs in and
is not an answer about the machine. -/
inductive Fault where
  /-- A position was built from values that are not all finite. -/
  | notFinite
  /-- A bit beyond the width of a mask. -/
  | bitWidth
  /-- A layout with more axes than a machine can have. -/
  | axisLimit
  /-- A coordinate that the position does not have. -/
  | missingAxis
  /-- A value confined to a range whose ends are not in order. -/
  | emptyRange
  /-- A list of more values than memory could ever address. -/
  | capacityOverflow
  /-- A timer that would go off again and again without any time passing. -/
  | zeroPeriod
  deriving DecidableEq, Repr

abbrev Checked := Except Fault

/-- A calculation that was refused with a reason, or broken off by a fault. -/
inductive Failure (ε : Type) where
  | refused (reason : ε)
  | fault (fault : Fault)
  deriving DecidableEq, Repr

abbrev Outcome (ε α : Type) := Except (Failure ε) α

/-- A checked step inside a calculation that may also be refused. -/
def Checked.lift {ε α : Type} : Checked α → Outcome ε α
  | .ok a => .ok a
  | .error f => .error (.fault f)

/-- An answer of another layer, its reasons read as reasons of this one. -/
def Outcome.mapReason {ε δ α : Type} (f : ε → δ) : Outcome ε α → Outcome δ α
  | .ok a => .ok a
  | .error (.refused e) => .error (.refused (f e))
  | .error (.fault e) => .error (.fault e)

def Outcome.ofExcept {ε α : Type} : Except ε α → Outcome ε α
  | .ok a => .ok a
  | .error e => .error (.refused e)

def refuse {ε α : Type} (reason : ε) : Outcome ε α := .error (.refused reason)

/-- Why a machine description cannot be operated. -/
inductive ConfigurationError where
  | invalidGeometry (param reason : String)
  | invalidTolerance (param value : String)
  | unknownKinematics (name : String)
  | tooFewAxes (kinematics : String) (required configured : Nat)
  | invalidAxes (reason : String)
  deriving DecidableEq, Repr

def ConfigurationError.message : ConfigurationError → String
  | invalidGeometry param reason => s!"Invalid geometry parameter '{param}': {reason}"
  | invalidTolerance param value => s!"Invalid tolerance '{param}': {value}"
  | unknownKinematics name => s!"Unknown kinematics: {name}"
  | tooFewAxes kinematics required configured =>
    s!"Kinematics {kinematics} needs at least {required} axes, {configured} configured"
  | invalidAxes reason => s!"Invalid axis configuration: {reason}"

/-- Why a pose has no motor position. -/
inductive KinematicsError where
  | infeasible (kinematics target reason : String)
  | singularity (kinematics target : String)
  | axisCountMismatch (expected actual : Nat)
  deriving DecidableEq, Repr

def KinematicsError.message : KinematicsError → String
  | infeasible kinematics target reason =>
    s!"Target {target} is outside the {kinematics} workspace: {reason}"
  | singularity kinematics target => s!"Target {target} is a {kinematics} singularity"
  | axisCountMismatch expected actual => s!"Expected {expected} axes, got {actual}"

/-- Why a homing request or cycle is refused. -/
inductive HomingError where
  | unsupportedAxes (kinematics axes : String)
  | singleAxisNotAllowed (axis : String)
  | disabled
  | cycleActive (axes : String)
  | noActiveCycle
  | safetyInterlock (input : String)
  | emptyCycle (cycle : Nat)
  | invalidRequest (request : String)
  deriving DecidableEq, Repr

def HomingError.message : HomingError → String
  | unsupportedAxes kinematics axes => s!"Kinematics {kinematics} cannot home axes {axes}"
  | singleAxisNotAllowed axis => s!"Single axis homing is not allowed for {axis}"
  | disabled => "Homing is disabled"
  | cycleActive axes => s!"Homing cycle already active for {axes}"
  | noActiveCycle => "No homing cycle is active"
  | safetyInterlock input => s!"Homing blocked by safety input: {input}"
  | emptyCycle cycle => s!"No axes for homing cycle {cycle}"
  | invalidRequest request => s!"Invalid homing request: {request}"

/-- Why the planner refuses a segment. -/
inductive PlannerError where
  | queueFull
  | notReady (reason : String)
  deriving DecidableEq, Repr

def PlannerError.message : PlannerError → String
  | queueFull => "Planner queue full"
  | notReady reason => s!"Machine not ready: {reason}"

/-- Why a move is rejected between the gateway and the planner. -/
inductive MotionError where
  | invalidTarget (reason : String)
  | invalidArc (reason : String)
  | kinematics (error : KinematicsError)
  | plannerRejected (segment : Nat) (error : PlannerError)
  deriving DecidableEq, Repr

def MotionError.message : MotionError → String
  | invalidTarget reason => s!"Invalid target: {reason}"
  | invalidArc reason => s!"Invalid arc: {reason}"
  | kinematics error => error.message
  | plannerRejected segment error => s!"Planner rejected segment {segment}: {error.message}"

/-- An error of any layer. -/
inductive MotionControlError where
  | configuration (error : ConfigurationError)
  | kinematics (error : KinematicsError)
  | homing (error : HomingError)
  | motion (error : MotionError)
  | other (text : String)
  deriving DecidableEq, Repr

namespace MotionControlError

def message : MotionControlError → String
  | configuration error => error.message
  | kinematics error => error.message
  | homing error => error.message
  | motion error => error.message
  | other text => text

def isConfigurationError : MotionControlError → Bool
  | configuration _ => true
  | _ => false

/-- No motor position for a pose, met directly or inside a rejected move. -/
def isInfeasible : MotionControlError → Bool
  | kinematics _ | motion (.kinematics _) => true
  | _ => false

def isHomingError : MotionControlError → Bool
  | homing _ => true
  | _ => false

end MotionControlError

end MotionControl
