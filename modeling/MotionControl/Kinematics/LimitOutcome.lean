import MotionControl.Axes.MotorMask

/-! Limit switch reports during homing. -/
namespace MotionControl

/-- What a report of tripped motors leaves to be done. -/
structure LimitOutcome where
  /-- Axes that still wait for their switch. -/
  axes : AxisMask
  /-- Motors that must keep moving. -/
  motors : MotorMask
  /-- Axes satisfied by the report. -/
  reached : AxisMask
  /-- Every axis is satisfied. -/
  stop : Bool
  deriving DecidableEq, Repr

/-- An axis is satisfied once none of its motors is left. -/
def LimitOutcome.requireAll (axes : AxisMask) (motors limited : MotorMask) : LimitOutcome :=
  let motors := motors - (limited &&& motors)
  let pending := axes &&& motors.axes
  ⟨pending, motors, axes - pending, pending.isEmpty⟩

end MotionControl
