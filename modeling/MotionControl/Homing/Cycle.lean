import MotionControl.Homing.Safety
import MotionControl.Position
import MotionControl.Axes.MotorMask

/-! One homing cycle: what a driver is told to do, what it reports, and what it is answered. -/
namespace MotionControl

/-- The motion that a driver must perform for a cycle. -/
structure HomingPlan (α : Type) where
  axes : AxisMask
  motors : MotorMask
  /-- The relative seek move in motor space. -/
  approach : MotorPosition α

/-- A completed cycle: its axes, and the motors that can be released. -/
structure HomingOutcome where
  homed : AxisMask
  released : MotorMask
  deriving DecidableEq, Repr

inductive CycleStart (α : Type) where
  | plan (plan : HomingPlan α)
  /-- The kinematics homed the axes without motion. -/
  | done (outcome : HomingOutcome)

/-- What a driver saw since the last step. -/
structure HomingPoll where
  /-- Motors whose switch tripped. -/
  limited : MotorMask := .none
  /-- The approach has finished. -/
  motionDone : Bool := false
  cancel : Option AbortReason := none
  deriving DecidableEq, Repr

inductive HomingStep where
  /-- Keep these motors moving. -/
  | continue (motors : MotorMask)
  | done (outcome : HomingOutcome)
  | aborted (reason : AbortReason)
  deriving DecidableEq, Repr

/-- A cycle in progress: its axes, those not yet satisfied, and the motors still moving. -/
structure ActiveCycle where
  axes : AxisMask
  pending : AxisMask
  motors : MotorMask
  deriving DecidableEq, Repr

end MotionControl
