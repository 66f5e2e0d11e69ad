import MotionControl.Arc
import MotionControl.Axes.Layout
import MotionControl.Kinematics.LimitOutcome
import MotionControl.Move

/-! The behaviour of one machine geometry, and the model of a configured machine. -/
namespace MotionControl
variable {α : Type}

/-- The transforms of a geometry and its part in homing. All but the transforms have a default. -/
structure Kinematics (α : Type) [Scalar α] where
  name : String
  /-- Whether the geometry suits the machine. -/
  validate : AxisLayout → Except ConfigurationError Unit := fun _ => .ok ()
  /-- The motor position assumed at power-up. -/
  initPosition : Nat → MotorPosition α := MotorPosition.zeros
  inverse : AxisPosition α → Outcome KinematicsError (MotorPosition α)
  forward : MotorPosition α → Nat → Checked (AxisPosition α)
  /-- A jog cut to the reachable workspace. -/
  constrainJog : Move α → AxisPosition α → Checked (Move α) :=
    fun move _ => .ok move
  /-- Cheap rejection of the target of a line. -/
  invalidLine : AxisPosition α → Bool := fun _ => false
  /-- Rejection of an arc that cannot be followed. -/
  invalidArc : AxisPosition α → AxisPosition α → Arc α → Checked Bool := fun _ _ _ => .ok false
  /-- Whether exactly these axes can be homed together. -/
  canHome : AxisMask → Bool := fun _ => false
  /-- Whether these axes are homed without motor motion. -/
  homesItself : AxisMask → Bool := fun _ => false
  /-- The motors that move while axes are homed. -/
  homingMotors : AxisMask → AxisLayout → MotorMask := fun axes layout => layout.motorsFor axes
  /-- The motors to release when axes are unlocked or homed. -/
  releaseMotors : AxisMask → MotorMask → MotorMask := fun axes motors => motors.onAxes axes
  /-- The axes satisfied by tripped motors. -/
  limitReached : AxisMask → MotorMask → MotorMask → LimitOutcome := LimitOutcome.requireAll
  /-- The seek move of a homing cycle in motor space, from the signed seek distances. -/
  homingApproach : AxisMask → AxisPosition α → Checked (MotorPosition α) := fun _ directions =>
    match inverse directions with
    | .ok motors => .ok motors
    | .error (.refused _) => .ok ⟨directions.values⟩
    | .error (.fault fault) => .error fault
  /-- The motor position once axes are on their home switches. -/
  homedPosition : AxisMask → MotorPosition α → AxisPosition α →
      Outcome KinematicsError (MotorPosition α) := fun axes current home => do
    let position ← Checked.lift (forward current current.length)
    inverse ⟨position.values.mapIdx fun axis value =>
      if axis < maxAxes && axes.contains axis then home.axis axis else value⟩
  /-- Lines need no subdivision. -/
  isLinear : Bool := false

/-- The kinematics of a configured machine. -/
structure MachineModel (α : Type) [Scalar α] where
  kinematics : Kinematics α
  layout : AxisLayout

namespace MachineModel
variable [Scalar α]

def name (m : MachineModel α) : String := m.kinematics.name

def axisCount (m : MachineModel α) : Nat := m.layout.axisCount

def initPosition (m : MachineModel α) : MotorPosition α := m.kinematics.initPosition m.axisCount

/-- Axis space to motor space, for a position with a value for every axis. -/
def inverse (m : MachineModel α) (target : AxisPosition α) :
    Outcome KinematicsError (MotorPosition α) :=
  if target.length ≠ m.axisCount then refuse (.axisCountMismatch m.axisCount target.length)
  else m.kinematics.inverse target

def forward (m : MachineModel α) (motors : MotorPosition α) (axisCount : Nat) :
    Checked (AxisPosition α) :=
  m.kinematics.forward motors axisCount

def constrainJog (m : MachineModel α) (move : Move α) (current : AxisPosition α) :
    Checked (Move α) :=
  m.kinematics.constrainJog move current

def invalidLine (m : MachineModel α) (target : AxisPosition α) : Bool :=
  target.length != m.axisCount || m.kinematics.invalidLine target

def invalidArc (m : MachineModel α) (start target : AxisPosition α) (arc : Arc α) :
    Checked Bool :=
  m.kinematics.invalidArc start target arc

def homingMotors (m : MachineModel α) (axes : AxisMask) : MotorMask :=
  m.kinematics.homingMotors axes m.layout

/-- A jog clipped to the workspace; any other move as it is. -/
def guardJog (m : MachineModel α) (move : Move α) (current : AxisPosition α) :
    Checked (Move α) :=
  if move.isJog then m.constrainJog move current else .ok move

end MachineModel

end MotionControl
